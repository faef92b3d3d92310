import PWSat2OBC.Lib.Runs

/-!
# Step sequences of the deployment tasks (`libs/mission/sail/sail.cpp`,
`libs/mission/sads/sads.cpp`)

`OpenSailTask` and `DeploySolarArrayTask` work through a list of steps in the same way.
`Deployment` is their common part: the index of the next step, the time from which it may
be performed, and the steps performed so far. Times are in milliseconds of mission time.
-/

namespace PWSat2OBC

/-- The calls of the tasks on `IPowerControl`. -/
inductive PowerCall
  | ignoreOverheat
  | mainThermalKnife (enabled : Bool)
  | redundantThermalKnife (enabled : Bool)
  | enableMainSailBurnSwitch
  | enableRedundantSailBurnSwitch
  | enableMainSADSBurnSwitch
  | enableRedundantSADSBurnSwitch
deriving DecidableEq, Repr

/-- The step procedures. -/
inductive DeploymentStep
  | ignoreOverheat
  | delay100ms
  | waitFor2mins
  | enableMainThermalKnife
  | disableMainThermalKnife
  | enableRedundantThermalKnife
  | disableRedundantThermalKnife
  | enableMainBurnSwitch
  | enableRedundantBurnSwitch
deriving DecidableEq, Repr

/-- `_nextStepAfter` after a step at `time`. -/
def DeploymentStep.nextStepAfter (time : ℤ) : DeploymentStep → ℤ
  | .waitFor2mins => time + 120000
  | _ => time

/-- A step performed: the mission time, the sum of the time corrections announced up to
then, and the call on the power interface. -/
structure Performed where
  step : DeploymentStep
  time : ℤ
  corrections : ℤ
  call : Option PowerCall
deriving DecidableEq

/-- The fields of both tasks. The program does not keep `corrections` and `log`. -/
structure Deployment where
  /-- `_step`. -/
  step : ℕ
  /-- `_nextStepAfter`. -/
  nextStepAfter : ℤ
  corrections : ℤ
  log : List Performed
deriving DecidableEq

namespace Deployment

variable (d : Deployment)

def init : Deployment := ⟨0, 0, 0, []⟩

/-- The procedure starts over. -/
def restart : Deployment := { d with step := 0, nextStepAfter := 0 }

/-- `TimeChanged`. -/
def timeChanged (timeCorrection : ℤ) : Deployment :=
  { d with
    nextStepAfter := d.nextStepAfter + timeCorrection
    corrections := d.corrections + timeCorrection }

/-- The part of `Condition` about the steps. -/
def isDue (steps : List DeploymentStep) (time : ℤ) : Bool :=
  d.nextStepAfter ≤ time ∧ d.step < steps.length

/-- One turn of the loop in `Action`: a step is performed, and the loop ends (`false`) if
the next one has to wait or there is none. -/
def turn (steps : List DeploymentStep) (call : DeploymentStep → Option PowerCall) (time : ℤ) :
    Deployment × Bool :=
  match steps[d.step]? with
  | none => (d, false)
  | some step =>
    let next := step.nextStepAfter time
    ({ d with
        step := d.step + 1
        nextStepAfter := next
        log := d.log ++ [⟨step, time, d.corrections, call step⟩] },
      next ≤ time)

/-- The calls on the power interface so far. -/
def calls : List PowerCall := d.log.filterMap (·.call)

end Deployment

/-! ## Thermal knives -/

/-- Which thermal knife was last switched on rather than off. -/
structure Knives where
  main : Bool
  redundant : Bool
deriving DecidableEq, Repr

namespace Knives

def off : Knives := ⟨false, false⟩

def after (k : Knives) : PowerCall → Knives
  | .mainThermalKnife enabled => { k with main := enabled }
  | .redundantThermalKnife enabled => { k with redundant := enabled }
  | _ => k

end Knives

/-- The knives after all calls so far. -/
def Deployment.knives (d : Deployment) : Knives := d.calls.foldl Knives.after Knives.off

end PWSat2OBC
