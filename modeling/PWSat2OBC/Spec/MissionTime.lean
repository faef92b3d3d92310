import PWSat2OBC.Lib.Runs

/-!
# Mission time and the tasks that keep it (`libs/mission/time/time.cpp`,
`libs/obc/communication/telecommands/time.cpp`, `libs/time/timer.cpp`)

The clock, the two paths that change it (`TimeTask::CorrectTime` and the SetTime
telecommand, one at a time under the synchronisation semaphore) and the values of mission
time that tasks have stored. `CorrectTime` takes several steps; ticks, telecommands and
other tasks can come between them. Times are in milliseconds.

`uptime` counts the ticks, and `due` says for the value a task has stored at which
`uptime` it falls due if only ticks moved the clock. The program does not read them.
-/

namespace PWSat2OBC

/-- `state::TimeState`. -/
structure TimeState where
  lastMissionTime : ℤ
  lastExternalTime : ℤ
deriving DecidableEq

/-- `state::TimeCorrectionConfiguration`. -/
structure TimeCorrectionConfiguration where
  missionTimeFactor : ℤ
  externalTimeFactor : ℤ
deriving DecidableEq

namespace TimeCorrectionConfiguration

def total (c : TimeCorrectionConfiguration) : ℤ := c.missionTimeFactor + c.externalTimeFactor

end TimeCorrectionConfiguration

namespace TimeTask

/-- `MaximumTimeCorrection`, two hours. -/
def maximumTimeCorrection : ℤ := 7200000

/-- `TimeTask::PerformTimeCorrection`. The division truncates; a zero total counts as a
zero quotient. -/
def performTimeCorrection (missionTime externalTime : ℤ) (state : TimeState)
    (configuration : TimeCorrectionConfiguration) : ℤ :=
  let deltaMcu := missionTime - state.lastMissionTime
  let deltaRtc := externalTime - state.lastExternalTime
  let deltaMcu := if deltaMcu < 0 then 0 else deltaMcu
  let deltaRtc := if deltaRtc < 0 then 0 else deltaRtc
  if deltaRtc = 0 then missionTime
  else
    let correctedMissionTime := state.lastMissionTime +
      (deltaMcu * configuration.missionTimeFactor + deltaRtc * configuration.externalTimeFactor).tdiv
        configuration.total
    let correctionValue :=
      if missionTime < correctedMissionTime then correctedMissionTime - missionTime
      else missionTime - correctedMissionTime
    if correctionValue < maximumTimeCorrection then correctedMissionTime else missionTime

end TimeTask

/-! ## Tasks -/

/-- The tasks of the mission loop that store a mission time. -/
inductive TimekeepingTask
  | antenna
  | comm
  | openSail
  | fileSystem
  | sendMessage
  | periodicPowerCycle
  | deploySolarArray
deriving DecidableEq

/-- The type inherits from `RequireNotifyWhenTimeChanges`. -/
def TimekeepingTask.isRequireNotifyWhenTimeChanges : TimekeepingTask → Bool
  | antenna => false
  | comm | openSail | fileSystem | sendMessage | periodicPowerCycle | deploySolarArray => true

/-- What the tasks have stored. -/
structure StoredTimes where
  /-- `AntennaTask::_nextStepAt`. -/
  nextStepAt : ℤ
  /-- `CommTask::_idleStateTurnOffTime`. -/
  idleStateTurnOffTime : ℤ
  /-- `OpenSailTask::_nextStepAfter`. -/
  sailNextStepAfter : ℤ
  /-- `FileSystemTask::_lastUpdate`. -/
  lastUpdate : Option ℤ
  /-- `SendMessageTask::_lastSentAt`. -/
  lastSentAt : Option ℤ
  /-- `PeriodicPowerCycleTask::_bootTime`. -/
  bootTime : Option ℤ
  /-- `DeploySolarArrayTask::_nextStepAfter`. -/
  solarArrayNextStepAfter : ℤ
deriving DecidableEq

namespace StoredTimes

variable (s : StoredTimes)

/-- The value a task has stored, if any. -/
def get : TimekeepingTask → Option ℤ
  | .antenna => some s.nextStepAt
  | .comm => some s.idleStateTurnOffTime
  | .openSail => some s.sailNextStepAfter
  | .fileSystem => s.lastUpdate
  | .sendMessage => s.lastSentAt
  | .periodicPowerCycle => s.bootTime
  | .deploySolarArray => some s.solarArrayNextStepAfter

/-- A task stores a value. -/
def set (value : ℤ) : TimekeepingTask → StoredTimes
  | .antenna => { s with nextStepAt := value }
  | .comm => { s with idleStateTurnOffTime := value }
  | .openSail => { s with sailNextStepAfter := value }
  | .fileSystem => { s with lastUpdate := some value }
  | .sendMessage => { s with lastSentAt := some value }
  | .periodicPowerCycle => { s with bootTime := some value }
  | .deploySolarArray => { s with solarArrayNextStepAfter := value }

/-- `TimeChanged` of a task. -/
def timeChanged (timeCorrection : ℤ) : TimekeepingTask → StoredTimes
  | .comm => { s with idleStateTurnOffTime := s.idleStateTurnOffTime + timeCorrection }
  | .openSail => { s with sailNextStepAfter := s.sailNextStepAfter + timeCorrection }
  | .fileSystem => { s with lastUpdate := s.lastUpdate.map (· + timeCorrection) }
  | .sendMessage => { s with lastSentAt := s.lastSentAt.map (· + timeCorrection) }
  | .periodicPowerCycle => { s with bootTime := s.bootTime.map (· + timeCorrection) }
  | .deploySolarArray => { s with solarArrayNextStepAfter := s.solarArrayNextStepAfter + timeCorrection }
  -- not declared
  | .antenna => s

/-- The tasks above in the order of `ObcMission`. -/
def missionTasks : List TimekeepingTask :=
  [.antenna, .comm, .openSail, .fileSystem, .sendMessage, .periodicPowerCycle, .deploySolarArray]

/-- `MissionLoop::NotifyTimeChanged`. -/
def notifyTimeChanged (timeCorrection : ℤ) : StoredTimes :=
  (missionTasks.filter (·.isRequireNotifyWhenTimeChanges)).foldl
    (fun s task => s.timeChanged timeCorrection task) s

end StoredTimes

/-! ## The system -/

/-- The mission loop in `CorrectTime`. -/
inductive CorrectTimePc
  /-- Outside, the semaphore is free. -/
  | idle
  /-- The clock has been read. -/
  | determine (time : ℤ)
  /-- The clock has been set, and the tasks are to be notified. -/
  | notify (timeCorrection : ℤ)
deriving DecidableEq

structure MissionTime where
  /-- `TimeProvider::currentTime`. -/
  currentTime : ℤ
  /-- `SystemState::Time`. -/
  stateTime : ℤ
  timeState : TimeState
  configuration : TimeCorrectionConfiguration
  stored : StoredTimes
  correctTime : CorrectTimePc
  uptime : ℤ
  due : TimekeepingTask → ℤ

inductive MissionTimeEvent
  /-- `TimeProvider::AdvanceTime`. -/
  | advanceTime (delta : ℕ)
  /-- `TimeTask::UpdateProc`. -/
  | update
  /-- A task stores a time, whatever it has computed. -/
  | store (task : TimekeepingTask) (value : ℤ)
  /-- The SetTimeCorrectionConfig telecommand. -/
  | configure (configuration : TimeCorrectionConfiguration)
  /-- `CorrectTime` takes the semaphore and reads the clock. -/
  | correctTime
  /-- `PersistentState.Get` fails. -/
  | correctTimeReturns
  /-- `DetermineNewTimeState` returns `false`. -/
  | determineFails
  /-- It sets the clock, from a reading of the RTC; `saved` if the state could be set. -/
  | setCorrectedTime (externalTime : ℤ) (saved : Bool)
  | notifyTimeChanged
  /-- The SetTime telecommand sets the clock, to seconds, with a reading of the RTC if there
  is one. -/
  | setTime (targetTime : BitVec 32) (externalTime : Option ℤ) (saved : Bool)
deriving DecidableEq

namespace MissionTime

variable (s : MissionTime)

/-- Only `CommTask` stores a time in another task than that of `CorrectTime`: when the
EnterIdleState telecommand is handled. -/
def mayStore (task : TimekeepingTask) : Bool := s.correctTime = .idle || task = .comm

def step : MissionTimeEvent → Option MissionTime
  | .advanceTime delta =>
    some { s with currentTime := s.currentTime + delta, uptime := s.uptime + delta }
  | .update => some { s with stateTime := s.currentTime }
  | .store task value =>
    if s.mayStore task then
      some { s with
        stored := s.stored.set value task
        due := Function.update s.due task (s.uptime + (value - s.currentTime)) }
    else none
  | .configure configuration => some { s with configuration }
  | .correctTime =>
    if s.correctTime = .idle then some { s with correctTime := .determine s.currentTime } else none
  | .correctTimeReturns =>
    match s.correctTime with
    | .determine _ => some { s with correctTime := .idle }
    | _ => none
  | .determineFails =>
    match s.correctTime with
    | .determine time =>
      some { s with timeState := ⟨time, s.timeState.lastExternalTime⟩, correctTime := .idle }
    | _ => none
  | .setCorrectedTime externalTime saved =>
    match s.correctTime with
    | .determine time =>
      let newTime := TimeTask.performTimeCorrection time externalTime s.timeState s.configuration
      some { s with
        currentTime := newTime
        timeState := if saved then ⟨newTime, externalTime⟩ else s.timeState
        stateTime := newTime
        correctTime := .notify (newTime - time) }
    | _ => none
  | .notifyTimeChanged =>
    match s.correctTime with
    | .notify timeCorrection =>
      some { s with stored := s.stored.notifyTimeChanged timeCorrection, correctTime := .idle }
    | _ => none
  | .setTime targetTime externalTime saved =>
    if s.correctTime = .idle then
      let target := (targetTime.toNat : ℤ) * 1000
      some { s with
        currentTime := target
        timeState :=
          if saved then ⟨target, externalTime.getD s.timeState.lastExternalTime⟩ else s.timeState }
    else none

/-- After start-up: each task waits for what it has stored initially. -/
def init (startTime : ℤ) (timeState : TimeState) (configuration : TimeCorrectionConfiguration)
    (stored : StoredTimes) : MissionTime where
  currentTime := startTime
  stateTime := startTime
  timeState := timeState
  configuration := configuration
  stored := stored
  correctTime := .idle
  uptime := 0
  due := fun task => (stored.get task).getD 0 - startTime

end MissionTime

end PWSat2OBC
