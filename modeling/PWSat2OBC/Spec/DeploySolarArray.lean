import PWSat2OBC.Spec.Deployment

/-!
# Solar array deployment (`libs/mission/sads/sads.cpp`)

The mission loop calls `Update`, `Condition` and `Action` of the task. Requests come from
another task at any moment. Between `Condition` and `Action` the mission loop can correct
the mission time.
-/

namespace PWSat2OBC

/-- Where the mission loop is in the procedures of the task. -/
inductive DeploySolarArrayPc
  | idle
  /-- `Condition` was true. -/
  | ready
  /-- In the loop of `Action`. -/
  | acting
deriving DecidableEq, Repr

/-- `DeploySolarArrayTask` with `SystemState::Time`. -/
structure DeploySolarArrayTask where
  time : ℤ
  deployment : Deployment
  deployOnNextMissionLoop : Bool
  isDeploying : Bool
  pc : DeploySolarArrayPc
deriving DecidableEq

inductive DeploySolarArrayEvent
  /-- `IDeploySolarArray::DeploySolarArray`. -/
  | deploySolarArray
  /-- The mission loop reads the clock. -/
  | setTime (time : ℤ)
  /-- `TimeTask::CorrectTime`, some time later. -/
  | correctTime (elapsed : ℕ) (timeCorrection : ℤ)
  | update
  | condition
  /-- One turn of the loop in `Action`. -/
  | turn
deriving DecidableEq

namespace DeploySolarArrayTask

/-- `DeploySolarArrayTask::Steps`. -/
def steps : List DeploymentStep :=
  [.enableMainThermalKnife, .delay100ms, .enableMainThermalKnife, .delay100ms, .enableMainBurnSwitch,
    .delay100ms, .enableMainBurnSwitch,
    .waitFor2mins,
    .disableMainThermalKnife, .delay100ms, .disableMainThermalKnife, .delay100ms,
    .enableRedundantThermalKnife, .delay100ms, .enableRedundantThermalKnife, .delay100ms,
    .enableRedundantBurnSwitch, .delay100ms, .enableRedundantBurnSwitch,
    .waitFor2mins,
    .disableRedundantThermalKnife, .delay100ms, .disableRedundantThermalKnife]

/-- What a step calls. `IgnoreOverheat` is not a step of this task. -/
def call : DeploymentStep → Option PowerCall
  | .ignoreOverheat | .delay100ms | .waitFor2mins => none
  | .enableMainThermalKnife => some (.mainThermalKnife true)
  | .disableMainThermalKnife => some (.mainThermalKnife false)
  | .enableRedundantThermalKnife => some (.redundantThermalKnife true)
  | .disableRedundantThermalKnife => some (.redundantThermalKnife false)
  | .enableMainBurnSwitch => some .enableMainSADSBurnSwitch
  | .enableRedundantBurnSwitch => some .enableRedundantSADSBurnSwitch

variable (s : DeploySolarArrayTask)

/-- `Update`. -/
def update : DeploySolarArrayTask :=
  let explicitDeploy := s.deployOnNextMissionLoop
  let s := { s with deployOnNextMissionLoop := false }
  let s := if steps.length ≤ s.deployment.step ∧ s.isDeploying then { s with isDeploying := false } else s
  if explicitDeploy ∧ ¬ s.isDeploying then
    { s with deployment := s.deployment.restart, isDeploying := true }
  else s

def step : DeploySolarArrayEvent → Option DeploySolarArrayTask
  | .deploySolarArray => some { s with deployOnNextMissionLoop := true }
  | .setTime time => if s.pc = .idle then some { s with time } else none
  | .correctTime elapsed timeCorrection =>
    if s.pc = .idle ∨ s.pc = .ready then
      some { s with
        time := s.time + elapsed + timeCorrection
        deployment := s.deployment.timeChanged timeCorrection }
    else none
  | .update => if s.pc = .idle then some s.update else none
  | .condition =>
    if s.pc = .idle then
      some { s with pc := if s.isDeploying ∧ s.deployment.isDue steps s.time then .ready else .idle }
    else none
  | .turn =>
    if s.pc = .ready ∨ s.pc = .acting then
      let turned := s.deployment.turn steps call s.time
      some { s with deployment := turned.1, pc := if turned.2 then .acting else .idle }
    else none

/-- The constructor. -/
def init (time : ℤ) : DeploySolarArrayTask :=
  { time
    deployment := Deployment.init
    deployOnNextMissionLoop := false
    isDeploying := false
    pc := .idle }

end DeploySolarArrayTask

end PWSat2OBC
