import PWSat2OBC.Lib.Runs

/-!
# Suspending and resuming the mission loop (`libs/mission/Include/mission/main.hpp`)

Two tasks: the mission loop task in `TaskLoop` and a controlling task that calls `Suspend`,
`Resume` and `RequestSingleIteration` one after another. They share an event group and the
state of the loop task. A step is one operation on them, or a call of `RunOnce` or its end.

A wait of the loop task can time out at any moment, so it can return whatever bits are
set. The wait in `RequestSingleIteration` can time out, too; the one in `Suspend` cannot.
-/

namespace PWSat2OBC

/-- The bits of the event group. -/
structure MissionFlags where
  pauseRequest : Bool
  pauseAck : Bool
  runOnceRequest : Bool
  runOnceFinished : Bool
deriving DecidableEq

/-- The loop task in `TaskLoop`, with the value of `result` where it is still needed. -/
inductive LoopPc
  | wait
  /-- About to call `RunOnce`, since `RunOnceRequestFlag` was set. -/
  | runRequested (result : MissionFlags)
  | inRequested (result : MissionFlags)
  | clearRunOnceRequest (result : MissionFlags)
  | setRunOnceFinished (result : MissionFlags)
  | clearPauseRequest
  | setPauseAck
  /-- About to call `SuspendTask(nullptr)`. -/
  | suspendSelf
  /-- About to call `RunOnce`, since no flag was set. -/
  | runPeriodic
  | inPeriodic
deriving DecidableEq

/-- The controlling task. -/
inductive ControlPc
  | idle
  /-- In `Suspend`, waiting for `PauseAckFlag`. -/
  | suspendWait
  /-- In `RequestSingleIteration`, about to call `Resume`. -/
  | requestResume
  /-- In `RequestSingleIteration`, waiting for both flags. -/
  | requestWait
deriving DecidableEq

structure MissionLoop where
  flags : MissionFlags
  /-- The loop task is suspended. -/
  suspended : Bool
  loop : LoopPc
  control : ControlPc
deriving DecidableEq

inductive MissionEvent
  /-- `Suspend` is called and sets `PauseRequestFlag`. -/
  | suspend
  | suspendReturns
  /-- `Resume` is called and returns. -/
  | resume
  /-- `RequestSingleIteration` is called and sets its two flags. -/
  | requestSingleIteration
  | requestResume
  | requestTimeout
  | requestReturns
  /-- The wait ends with other flags set, too, and is repeated. -/
  | requestMissed
  /-- The loop task performs the operation it stands at. -/
  | loop (pc : LoopPc)
deriving DecidableEq

namespace MissionLoop

/-- After `Initialize`. -/
def init : MissionLoop where
  flags := ⟨false, false, false, false⟩
  suspended := true
  loop := .wait
  control := .idle

/-- Behind the first `if` of the loop body. -/
def afterRunOnce (result : MissionFlags) : LoopPc :=
  if result.pauseRequest then .clearPauseRequest
  else if result = ⟨false, false, false, false⟩ then .runPeriodic
  else .wait

/-- Behind the wait. -/
def afterWait (result : MissionFlags) : LoopPc :=
  if result.runOnceRequest then .runRequested result else afterRunOnce result

variable (s : MissionLoop)

/-- A step of the loop task. -/
def loopStep : LoopPc → MissionLoop
  | .wait => { s with loop := afterWait s.flags }
  | .runRequested result => { s with loop := .inRequested result }
  | .inRequested result => { s with loop := .clearRunOnceRequest result }
  | .clearRunOnceRequest result =>
    { s with flags.runOnceRequest := false, loop := .setRunOnceFinished result }
  | .setRunOnceFinished result =>
    { s with flags.runOnceFinished := true, loop := afterRunOnce result }
  | .clearPauseRequest => { s with flags.pauseRequest := false, loop := .setPauseAck }
  | .setPauseAck => { s with flags.pauseAck := true, loop := .suspendSelf }
  -- `result` had a flag set, so the last `if` is passed over
  | .suspendSelf => { s with suspended := true, loop := .wait }
  | .runPeriodic => { s with loop := .inPeriodic }
  | .inPeriodic => { s with loop := .wait }

def step : MissionEvent → Option MissionLoop
  | .suspend =>
    if s.control = .idle then some { s with flags.pauseRequest := true, control := .suspendWait }
    else none
  | .suspendReturns =>
    if s.control = .suspendWait ∧ s.flags.pauseAck then
      some { s with flags.pauseAck := false, control := .idle }
    else none
  | .resume => if s.control = .idle then some { s with suspended := false } else none
  | .requestSingleIteration =>
    if s.control = .idle then
      some { s with
        flags.runOnceRequest := true
        flags.pauseRequest := true
        control := .requestResume }
    else none
  | .requestResume =>
    if s.control = .requestResume then some { s with suspended := false, control := .requestWait }
    else none
  | .requestTimeout =>
    if s.control = .requestWait ∧ ¬(s.flags.runOnceFinished ∧ s.flags.pauseAck) then
      some { s with control := .requestResume }
    else none
  | .requestReturns =>
    if s.control = .requestWait ∧ s.flags = ⟨false, true, false, true⟩ then
      some { s with
        flags.runOnceFinished := false
        flags.pauseAck := false
        control := .idle }
    else none
  | .requestMissed =>
    if s.control = .requestWait ∧ s.flags.runOnceFinished ∧ s.flags.pauseAck ∧
        s.flags ≠ ⟨false, true, false, true⟩ then
      some { s with
        flags.runOnceFinished := false
        flags.pauseAck := false
        control := .requestResume }
    else none
  | .loop pc => if s.suspended = false ∧ s.loop = pc then some (s.loopStep pc) else none

end MissionLoop

end PWSat2OBC
