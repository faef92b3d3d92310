import PWSat2OBC.Lib.Runs
import PWSat2OBC.Spec.Redundancy

/-!
# Experiment controller (`libs/experiments/experiments.cpp`) and the mission component
that drives it (`libs/mission/experiments/experiments.cpp`)

Three parties share the controller: callers of `RequestExperiment` and
`AbortExperiment`, the mission loop, which runs `KickExp` and `StartExp` once per cycle,
and the background task. A step is one operation on the event group, the queue or the
fields behind the lock. The position of a task is the operation it performs next.

Every request gets a number. The lists of numbers at the end of the state record what
became of the requests; the program does not read them.
-/

namespace PWSat2OBC

/-- `ExperimentCode`. -/
abbrev ExperimentCode := BitVec 8

/-- `StartResult`. -/
inductive StartResult
  | success
  | failure
deriving DecidableEq

/-- `IterationResult`. -/
inductive IterationResult
  | none
  | finished
  | loopImmediately
  | waitForNextCycle
  | failure
deriving DecidableEq

/-- A call of `RequestExperiment(code)`. -/
structure Request where
  id : ℕ
  code : ExperimentCode
deriving DecidableEq

/-- The mission loop in `CompositeAction::Run` over `KickExp` and `StartExp`. -/
inductive MissionPc
  /-- `ShouldKickExperiment`: `InProgress()`. -/
  | shouldKick
  /-- `NotifyLoopIterationStart`: `WaitAll(MissionLoopNotificationReqested, true, 0ms)`. -/
  | notifyWait
  /-- `NotifyLoopIterationStart`: `Set(MissionLoopIterationStarted)`. -/
  | notifySet
  /-- `ShouldStartExperiment`: `InProgress()`. -/
  | shouldStart
  /-- `ShouldStartExperiment`: `IsExperimentRequested()`. -/
  | isRequested
  /-- `StartExperiment`: taking the lock. -/
  | startLock
  /-- `StartExperiment`: `_queue.Overwrite(..)`. -/
  | startOverwrite
  /-- `StartExperiment`: `_requestedExperiment = None`, and the lock is given back. -/
  | startClear
deriving DecidableEq

/-- The background task in `BackgroundTask` and `RunExperiment`. -/
inductive BackgroundPc
  | pop
  /-- `std::find_if` over the registered experiments. -/
  | find
  | clearAbortRequest
  | setInProgress
  /-- The first block under the lock. -/
  | setCurrent
  /-- In `experiment.Start()`. -/
  | starting
  /-- The block under the lock after `Start`. -/
  | storeStartResult (result : StartResult)
  /-- `WaitAny(Event::AbortRequest, true, 0s)`. -/
  | checkAbort
  | clearIterationStarted
  /-- About to call `experiment.Iteration()`. -/
  | iterate
  /-- In `experiment.Iteration()`. -/
  | iterating
  /-- The block under the lock after `Iteration`. -/
  | storeIterationResult (result : IterationResult)
  | setNotificationRequested
  /-- `WaitAny(MissionLoopIterationStarted | AbortRequest, false, InfiniteTimeout)`. -/
  | wait
  /-- `experiment.Stop(result)`. -/
  | stop (result : IterationResult)
  /-- The last block under the lock. -/
  | clearCurrent
  | clearInProgress
deriving DecidableEq

/-- `ExperimentController` with the tasks that use it. -/
structure ExperimentController where
  /-- The bits of the event group. -/
  inProgress : Bool
  abortRequest : Bool
  missionLoopIterationStarted : Bool
  missionLoopNotificationRequested : Bool
  /-- The queue of length one. -/
  queue : Option Request
  requestedExperiment : Option Request
  currentExperiment : Option ExperimentCode
  lastStartResult : Option StartResult
  lastIterationResult : Option IterationResult
  iterationCounter : BitVec 32
  mission : MissionPc
  background : BackgroundPc
  /-- The request the background task has popped. -/
  taken : Option Request
  /-- The calls of `RequestExperiment` behind the check and before the lock. -/
  passed : List Request
  nextId : ℕ
  /-- The calls that returned `true`. -/
  accepted : List ℕ
  /-- Replaced by a later request before they were started. -/
  replaced : List ℕ
  /-- Overwritten in the queue. -/
  overwritten : List ℕ
  /-- Popped with a code that has no experiment. -/
  unhandled : List ℕ
  /-- Run to their end. -/
  completed : List ℕ

/-- A step of one of the tasks. -/
inductive ControllerEvent
  /-- `RequestExperiment(code)` looks at `InProgress`. -/
  | request (code : ExperimentCode)
  /-- The call takes the lock, stores its code and returns `true`. -/
  | store (request : Request)
  /-- `AbortExperiment()`. -/
  | abort
  /-- The mission loop performs the operation it stands at. -/
  | mission (pc : MissionPc)
  /-- The background task performs the operation it stands at. -/
  | background (pc : BackgroundPc)
  /-- `experiment.Start()` returns. -/
  | startReturns (result : StartResult)
  /-- The check for an abort request at the head of the loop, and what it saw. -/
  | checkAbort (aborted : Bool)
  /-- `experiment.Iteration()` returns. -/
  | iterationReturns (result : IterationResult)
deriving DecidableEq

namespace ExperimentController

/-- After `Initialize`. -/
def init : ExperimentController where
  inProgress := false
  abortRequest := false
  missionLoopIterationStarted := false
  missionLoopNotificationRequested := false
  queue := none
  requestedExperiment := none
  currentExperiment := none
  lastStartResult := none
  lastIterationResult := none
  iterationCounter := 0
  mission := .shouldKick
  background := .pop
  taken := none
  passed := []
  nextId := 0
  accepted := []
  replaced := []
  overwritten := []
  unhandled := []
  completed := []

variable (registered : ExperimentCode → Bool) (s : ExperimentController)

/-- The number of a request, as a list. -/
def ids (r : Option Request) : List ℕ := (r.map Request.id).toList

/-- Nobody holds `_sync`. The blocks of the other tasks are single steps here. -/
def lockFree : Bool :=
  match s.mission with
  | .startOverwrite | .startClear => false
  | _ => true

/-- A step of the mission loop. -/
def missionStep : MissionPc → Option ExperimentController
  | .shouldKick => some { s with mission := if s.inProgress then .notifyWait else .shouldStart }
  | .notifyWait =>
    if s.missionLoopNotificationRequested then
      some { s with missionLoopNotificationRequested := false, mission := .notifySet }
    else some { s with mission := .shouldStart }
  | .notifySet => some { s with missionLoopIterationStarted := true, mission := .shouldStart }
  | .shouldStart => some { s with mission := if s.inProgress then .shouldKick else .isRequested }
  | .isRequested =>
    some { s with mission := if s.requestedExperiment.isSome then .startLock else .shouldKick }
  | .startLock => some { s with mission := .startOverwrite }
  | .startOverwrite =>
    some { s with
      queue := s.requestedExperiment
      overwritten := s.overwritten ++ ids s.queue
      mission := .startClear }
  | .startClear => some { s with requestedExperiment := none, mission := .shouldKick }

/-- A step of the background task, outside the calls of the experiment. -/
def backgroundStep : BackgroundPc → Option ExperimentController
  | .pop =>
    match s.queue with
    | some r => some { s with queue := none, taken := some r, background := .find }
    | none => none
  | .find =>
    match s.taken with
    | some r =>
      if registered r.code then some { s with background := .clearAbortRequest }
      else some { s with taken := none, unhandled := s.unhandled ++ [r.id], background := .pop }
    | none => none
  | .clearAbortRequest => some { s with abortRequest := false, background := .setInProgress }
  | .setInProgress => some { s with inProgress := true, background := .setCurrent }
  | .setCurrent =>
    if s.lockFree then
      some { s with
        currentExperiment := s.taken.map Request.code
        lastIterationResult := none
        lastStartResult := none
        iterationCounter := 0
        background := .starting }
    else none
  | .starting => none
  | .storeStartResult result =>
    if s.lockFree then
      some { s with
        lastStartResult := some result
        iterationCounter := 0
        background := if result = .success then .checkAbort else .clearCurrent }
    else none
  | .checkAbort => none
  | .clearIterationStarted =>
    some { s with missionLoopIterationStarted := false, background := .iterate }
  | .iterate => some { s with background := .iterating }
  | .iterating => none
  | .storeIterationResult result =>
    if s.lockFree then
      some { s with
        lastIterationResult := some result
        iterationCounter := s.iterationCounter + 1
        background :=
          if result = .finished then .stop result
          else if result = .failure then .stop result
          else if result = .waitForNextCycle then .setNotificationRequested
          else .checkAbort }
    else none
  | .setNotificationRequested =>
    some { s with missionLoopNotificationRequested := true, background := .wait }
  | .wait =>
    if s.missionLoopIterationStarted || s.abortRequest then some { s with background := .checkAbort }
    else none
  | .stop _ => some { s with background := .clearCurrent }
  | .clearCurrent =>
    if s.lockFree then some { s with currentExperiment := none, background := .clearInProgress }
    else none
  | .clearInProgress =>
    some { s with
      inProgress := false
      completed := s.completed ++ ids s.taken
      taken := none
      background := .pop }

/-- One step of any task. -/
def step : ControllerEvent → Option ExperimentController
  | .request code =>
    if s.inProgress then some s
    else some { s with passed := ⟨s.nextId, code⟩ :: s.passed, nextId := s.nextId + 1 }
  | .store r =>
    if r ∈ s.passed ∧ s.lockFree then
      some { s with
        passed := s.passed.erase r
        requestedExperiment := some r
        replaced := s.replaced ++ ids s.requestedExperiment
        accepted := s.accepted ++ [r.id] }
    else none
  | .abort => some { s with abortRequest := true }
  | .mission pc => if s.mission = pc then s.missionStep pc else none
  | .background pc => if s.background = pc then s.backgroundStep registered pc else none
  | .startReturns result =>
    if s.background = .starting then some { s with background := .storeStartResult result } else none
  | .checkAbort aborted =>
    if s.background = .checkAbort ∧ s.abortRequest = aborted then
      if aborted then some { s with abortRequest := false, background := .stop .failure }
      else some { s with background := .clearIterationStarted }
    else none
  | .iterationReturns result =>
    if s.background = .iterating then some { s with background := .storeIterationResult result }
    else none

/-- The request that waits to be started. From `Overwrite` on it is in the queue, although
the field is cleared a little later, under the same lock. -/
def pending : Option Request :=
  if s.mission = .startClear then none else s.requestedExperiment

end ExperimentController

end PWSat2OBC
