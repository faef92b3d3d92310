import PWSat2OBC.Lib.Runs

/-!
# Antenna deployment (`libs/mission/antenna/antenna.cpp`)

The mission loop calls `Update`, `Condition` and `Action` of the task. It evaluates the
conditions of all tasks before it executes any action: between `Condition` and `Action` the
mission time can be corrected, and a telecommand can change the antenna configuration.
Times are in milliseconds.
-/

namespace PWSat2OBC

/-- `AntennaChannel`. -/
inductive AntennaChannel
  | primary
  | backup
deriving DecidableEq, Repr

/-- `AntennaId`. -/
inductive AntennaId
  | auto
  | antenna1
  | antenna2
  | antenna3
  | antenna4
deriving DecidableEq, Repr

/-- The functions that perform a step. -/
inductive AntennaStepAction
  | powerOn
  | reset
  | arm
  | deploy
  | disarm
  | powerOff
deriving DecidableEq, Repr

/-- `AntennaTask::StepDescriptor`. -/
structure AntennaStep where
  action : AntennaStepAction
  channel : AntennaChannel
  antenna : AntennaId
  burnTime : ℤ
  waitTime : ℤ
deriving DecidableEq, Repr

/-- Calls on the power interface and the antenna driver. -/
inductive AntennaCall
  | primaryAntennaPower (enabled : Bool)
  | backupAntennaPower (enabled : Bool)
  | reset (channel : AntennaChannel)
  | arm (channel : AntennaChannel)
  | deployAntenna (channel : AntennaChannel) (antenna : AntennaId) (burnTime : ℤ) (override : Bool)
  | disarm (channel : AntennaChannel)
deriving DecidableEq, Repr

namespace AntennaStep

variable (channel : AntennaChannel)

/-- `Step<Channel>::PowerOn`. -/
def powerOn : AntennaStep := ⟨.powerOn, channel, .auto, 0, 9000⟩
/-- `Step<Channel>::Reset`. -/
def reset : AntennaStep := ⟨.reset, channel, .auto, 0, 59000⟩
/-- `Step<Channel>::Arm`. -/
def arm : AntennaStep := ⟨.arm, channel, .auto, 0, 59000⟩
/-- `Step<Channel>::AutoDeploy`. -/
def autoDeploy : AntennaStep := ⟨.deploy, channel, .auto, 4 * 30000, 179000⟩
/-- `Step<Channel>::ManualDeploy<Antenna>`. -/
def manualDeploy (antenna : AntennaId) : AntennaStep := ⟨.deploy, channel, antenna, 30000, 89000⟩
/-- `Step<Channel>::Disarm`. -/
def disarm : AntennaStep := ⟨.disarm, channel, .auto, 0, 0⟩
/-- `Step<Channel>::PowerOff`. -/
def powerOff : AntennaStep := ⟨.powerOff, channel, .auto, 0, 119000⟩

/-- `Step<Channel>::FullSequenceAuto`. -/
def fullSequenceAuto : List AntennaStep :=
  [powerOn channel, reset channel, arm channel, autoDeploy channel, disarm channel, powerOff channel]

/-- `Step<Channel>::FullSequenceManual<Antenna>`. -/
def fullSequenceManual (antenna : AntennaId) : List AntennaStep :=
  [powerOn channel, reset channel, arm channel, manualDeploy channel antenna, disarm channel,
    powerOff channel]

/-- The call that performs a step. -/
def call (s : AntennaStep) : AntennaCall :=
  match s.action with
  | .powerOn =>
    match s.channel with
    | .primary => .primaryAntennaPower true
    | .backup => .backupAntennaPower true
  | .reset => .reset s.channel
  | .arm => .arm s.channel
  | .deploy => .deployAntenna s.channel s.antenna s.burnTime true
  | .disarm => .disarm s.channel
  | .powerOff =>
    match s.channel with
    | .primary => .primaryAntennaPower false
    | .backup => .backupAntennaPower false

end AntennaStep

/-- An attempt at a step: its index, the call and whether it succeeded, the mission time
and the configuration that `Condition` saw, and the mission time when the call returned. -/
structure Attempt where
  index : ℕ
  call : AntennaCall
  ok : Bool
  evaluatedAt : ℤ
  /-- `IsDeploymentDisabled` in `Condition`. -/
  disabled : Bool
  time : ℤ
deriving DecidableEq

/-- Where the mission loop is in the procedures of the task. -/
inductive AntennaPc
  | idle
  /-- `Condition` was true. -/
  | ready (evaluatedAt : ℤ) (disabled : Bool)
deriving DecidableEq

/-- `AntennaTask` with the part of the system state it works on. The program does not
keep `log`. -/
structure AntennaTask where
  /-- `SystemState::Time`. -/
  time : ℤ
  /-- `AntennaConfiguration` in the persistent state. -/
  deploymentDisabled : Bool
  /-- `AntennaState`. -/
  deployed : Bool
  /-- `_step`. -/
  step : ℕ
  /-- `_nextStepAt`. -/
  nextStepAt : ℤ
  /-- `_retryCounter`. -/
  retryCounter : ℤ
  /-- `_controllerPoweredOn`. -/
  controllerPoweredOn : Bool
  pc : AntennaPc
  log : List Attempt
deriving DecidableEq

inductive AntennaEvent
  /-- The SetAntennaDeploymentMask telecommand. -/
  | setDeploymentDisabled (disabled : Bool)
  /-- The mission loop reads the clock, or corrects it. -/
  | setTime (time : ℤ)
  /-- `Update`; `got` if the configuration could be read. -/
  | update (got : Bool)
  /-- `Condition`; `got` if the configuration could be read. -/
  | condition (got : Bool)
  /-- `Action`, with the result of the call. -/
  | action (ok : Bool)
deriving DecidableEq

namespace AntennaTask

/-- `AntennaTask::Steps`. -/
def steps : List AntennaStep :=
  List.flatten
    [AntennaStep.fullSequenceAuto .primary,
      AntennaStep.fullSequenceManual .primary .antenna1,
      AntennaStep.fullSequenceManual .primary .antenna2,
      AntennaStep.fullSequenceManual .primary .antenna3,
      AntennaStep.fullSequenceManual .primary .antenna4,
      AntennaStep.fullSequenceAuto .backup,
      AntennaStep.fullSequenceManual .backup .antenna1,
      AntennaStep.fullSequenceManual .backup .antenna2,
      AntennaStep.fullSequenceManual .backup .antenna3,
      AntennaStep.fullSequenceManual .backup .antenna4]

/-- `StepRetries`. -/
def stepRetries : ℤ := 3

/-- `SilentPeriodThreshold`, 40 minutes. -/
def silentPeriodThreshold : ℤ := 2400000

variable (s : AntennaTask)

/-- `IsDeploymentDisabled`. -/
def isDeploymentDisabled (got : Bool) : Bool := got && s.deploymentDisabled

/-- `Update`. The telemetry it reads while the controller is on is left out. -/
def update (got : Bool) : AntennaTask :=
  if !s.deployed && s.isDeploymentDisabled got then { s with deployed := true } else s

/-- `Condition`. -/
def condition (got : Bool) : Bool :=
  silentPeriodThreshold < s.time ∧ s.step < steps.length ∧ s.nextStepAt ≤ s.time ∧
    s.isDeploymentDisabled got = false

/-- The step functions note whether the controller is on. -/
def poweredOn (step : AntennaStep) (ok : Bool) : Bool :=
  match step.action with
  | .powerOn => ok || s.controllerPoweredOn
  | .powerOff => !ok && s.controllerPoweredOn
  | _ => s.controllerPoweredOn

/-- `Action`, after `Condition` had seen a time and a configuration. -/
def action (step : AntennaStep) (evaluatedAt : ℤ) (disabled ok : Bool) : AntennaTask :=
  let s' : AntennaTask := { s with
    controllerPoweredOn := s.poweredOn step ok
    log := s.log ++ [⟨s.step, step.call, ok, evaluatedAt, disabled, s.time⟩] }
  if ok = false ∧ 1 < s.retryCounter then { s' with retryCounter := s.retryCounter - 1 }
  else
    { s' with
      step := s.step + 1
      nextStepAt := s.time + step.waitTime
      retryCounter := stepRetries
      deployed := s.deployed || decide (steps.length ≤ s.step + 1) }

def next : AntennaEvent → Option AntennaTask
  | .setDeploymentDisabled disabled => some { s with deploymentDisabled := disabled }
  | .setTime time => some { s with time }
  | .update got => if s.pc = .idle then some (s.update got) else none
  | .condition got =>
    if s.pc = .idle then
      some { s with
        pc := if s.condition got then .ready s.time (s.isDeploymentDisabled got) else .idle }
    else none
  | .action ok =>
    match s.pc, steps[s.step]? with
    | .ready evaluatedAt disabled, some step =>
      some { s.action step evaluatedAt disabled ok with pc := .idle }
    | _, _ => none

/-- The constructor, with what the persistent state holds at start-up. -/
def init (time : ℤ) (deploymentDisabled : Bool) : AntennaTask :=
  { time, deploymentDisabled
    deployed := false
    step := 0
    nextStepAt := 0
    retryCounter := stepRetries
    controllerPoweredOn := false
    pc := .idle
    log := [] }

end AntennaTask

end PWSat2OBC
