import PWSat2OBC.Spec.Deployment

/-!
# Sail deployment (`libs/mission/sail/sail.cpp`, `libs/obc/communication/telecommands/sail.cpp`)

The mission loop calls `Update`, `Condition` and `Action` of the task. The telecommands run
in another task and can come at any moment: between the reading of the sail state in
`Update` and what follows from it, between `Condition` and `Action`, and between any two
steps in `Action`. Between `Condition` and `Action` the mission loop can also correct the
mission time.
-/

namespace PWSat2OBC

/-- `state::SailOpeningState`. -/
inductive SailOpeningState
  | waiting
  | opening
  | openingStopped
deriving DecidableEq, Repr

/-- Where the mission loop is in the procedures of the task. -/
inductive OpenSailPc
  | idle
  /-- In `Update`, with the state that was read. -/
  | update (currentState : SailOpeningState)
  /-- `Condition` was true. -/
  | ready
  /-- In the loop of `Action`. -/
  | acting
deriving DecidableEq, Repr

/-- `OpenSailTask` with the part of the system state it works on. -/
structure OpenSailTask where
  /-- `state::SailState` in the persistent state. -/
  sailState : SailOpeningState
  /-- `SystemState::Time`. -/
  time : ℤ
  deployment : Deployment
  openOnNextMissionLoop : Bool
  ignoreOverheat : Bool
  pc : OpenSailPc
deriving DecidableEq

inductive OpenSailEvent
  /-- `IOpenSail::OpenSail`. -/
  | openSail (ignoreOverheat : Bool)
  /-- The StopSailDeployment telecommand; `saved` if the sail state could be set. -/
  | stopSailDeployment (saved : Bool)
  /-- The mission loop reads the clock. -/
  | setTime (time : ℤ)
  /-- `TimeTask::CorrectTime`, some time later. -/
  | correctTime (elapsed : ℕ) (timeCorrection : ℤ)
  /-- `Update` reads the sail state, if it can. -/
  | updateGet (got : Bool)
  /-- The rest of `Update`; `saved` if the sail state could be set. -/
  | update (saved : Bool)
  /-- `Condition`, which reads the sail state, if it can. -/
  | condition (got : Bool)
  /-- One turn of the loop in `Action`. -/
  | turn
deriving DecidableEq

namespace OpenSailTask

/-- `OpenSailTask::Steps`. -/
def steps : List DeploymentStep :=
  [.ignoreOverheat, .delay100ms,
    .enableMainThermalKnife, .delay100ms, .enableMainThermalKnife, .delay100ms, .enableMainBurnSwitch,
    .delay100ms, .enableMainBurnSwitch,
    .waitFor2mins,
    .disableMainThermalKnife, .delay100ms, .disableMainThermalKnife, .delay100ms,
    .enableRedundantThermalKnife, .delay100ms, .enableRedundantThermalKnife, .delay100ms,
    .enableRedundantBurnSwitch, .delay100ms, .enableRedundantBurnSwitch,
    .waitFor2mins,
    .disableRedundantThermalKnife, .delay100ms, .disableRedundantThermalKnife]

/-- What a step calls, with `_ignoreOverheat`. -/
def call (ignore : Bool) : DeploymentStep → Option PowerCall
  | .ignoreOverheat => if ignore then some .ignoreOverheat else none
  | .delay100ms | .waitFor2mins => none
  | .enableMainThermalKnife => some (.mainThermalKnife true)
  | .disableMainThermalKnife => some (.mainThermalKnife false)
  | .enableRedundantThermalKnife => some (.redundantThermalKnife true)
  | .disableRedundantThermalKnife => some (.redundantThermalKnife false)
  | .enableMainBurnSwitch => some .enableMainSailBurnSwitch
  | .enableRedundantBurnSwitch => some .enableRedundantSailBurnSwitch

/-- 40 days. -/
def openingTime : ℤ := 40 * 24 * 3600000

variable (s : OpenSailTask)

/-- `InProgress`. -/
def inProgress : Bool := s.deployment.step < steps.length

/-- `open` in `Update`. -/
def openUp (saved : Bool) : OpenSailTask :=
  { s with
    sailState := if saved then .opening else s.sailState
    deployment := s.deployment.restart }

/-- `Update`, after the sail state was read. -/
def updateState (currentState : SailOpeningState) (saved : Bool) : OpenSailTask :=
  let explicitOpen := s.openOnNextMissionLoop
  let s := { s with openOnNextMissionLoop := false }
  match currentState with
  | .opening => if explicitOpen ∧ ¬ s.inProgress then s.openUp saved else s
  | .openingStopped => if explicitOpen then s.openUp saved else s
  | .waiting =>
    if openingTime ≤ s.time then s.openUp saved
    else if explicitOpen then s.openUp saved
    else s

def step : OpenSailEvent → Option OpenSailTask
  | .openSail ignoreOverheat => some { s with openOnNextMissionLoop := true, ignoreOverheat }
  | .stopSailDeployment saved =>
    some { s with sailState := if saved then .openingStopped else s.sailState }
  | .setTime time => if s.pc = .idle then some { s with time } else none
  | .correctTime elapsed timeCorrection =>
    if s.pc = .idle ∨ s.pc = .ready then
      some { s with
        time := s.time + elapsed + timeCorrection
        deployment := s.deployment.timeChanged timeCorrection }
    else none
  | .updateGet got =>
    if s.pc = .idle then some { s with pc := if got then .update s.sailState else .idle } else none
  | .update saved =>
    match s.pc with
    | .update currentState => some { s.updateState currentState saved with pc := .idle }
    | _ => none
  | .condition got =>
    if s.pc = .idle then
      let holds := got ∧ s.sailState = .opening ∧ s.deployment.isDue steps s.time
      some { s with pc := if holds then .ready else .idle }
    else none
  | .turn =>
    if s.pc = .ready ∨ s.pc = .acting then
      let turned := s.deployment.turn steps (call s.ignoreOverheat) s.time
      some { s with deployment := turned.1, pc := if turned.2 then .acting else .idle }
    else none

/-- The constructor, with what the persistent state holds at start-up. -/
def init (sailState : SailOpeningState) (time : ℤ) : OpenSailTask :=
  { sailState, time
    deployment := Deployment.init
    openOnNextMissionLoop := false
    ignoreOverheat := true
    pc := .idle }

end OpenSailTask

end PWSat2OBC
