import PWSat2OBC.Lib.Runs

/-!
# The idle state of the transmitter (`libs/mission/comm/comm.cpp`)

Two tasks use `CommTask`: telecommands call `EnterTransmitterStateWhenIdle` and
`LeaveTransmitterStateWhenIdle`, the mission loop evaluates the condition and runs the action.
They take turns in any order, one access to the flag, the turn-off time, the semaphore or the
transmitter at a time. Only the calls take the semaphore. Corrections of the turn-off time are in
`MissionTime`.

`transmitter`, `due` and `turnedOff` record what the transmitter has accepted; the program does not
read them. Times are in milliseconds.
-/

namespace PWSat2OBC

namespace CommTask

/-- A call. -/
inductive Request
  | enterTransmitterStateWhenIdle (turnOffTime : ℤ)
  | leaveTransmitterStateWhenIdle
deriving DecidableEq, Repr

/-- The state that is asked for: `IdleState::On` or `IdleState::Off`. -/
def Request.idleState : Request → Bool
  | enterTransmitterStateWhenIdle _ => true
  | leaveTransmitterStateWhenIdle => false

/-- What a task does next in a call. -/
inductive CallPc
  /-- `Lock`. -/
  | locking (request : Request)
  /-- `SetTransmitterStateWhenIdle`. -/
  | sending (request : Request)
  /-- The assignment of `_idleState`. -/
  | settingFlag (request : Request)
  /-- The assignment of `_idleStateTurnOffTime`. -/
  | settingTime (turnOffTime : ℤ)
  /-- The end of the scope of the lock. -/
  | unlocking
deriving DecidableEq, Repr

/-- What the mission loop does next. -/
inductive MissionPc
  | ready
  /-- The flag was set; the turn-off time is compared next. -/
  | comparing (time : ℤ)
  /-- In `ActionProc`. -/
  | acting (time : ℤ) (pc : CallPc)
deriving DecidableEq, Repr

/-- The mission loop has switched the idle state off. -/
structure TurnedOff where
  time : ℤ
  /-- The turn-off time of the latest successful enter. -/
  due : Option ℤ
deriving DecidableEq, Repr

/-- What both tasks use, and what the transmitter has accepted. -/
structure Shared where
  idleState : Bool
  idleStateTurnOffTime : ℤ
  /-- `_transmitterStateWhenIdleSem` is free. -/
  free : Bool
  transmitter : Bool
  due : Option ℤ
deriving DecidableEq, Repr

end CommTask

open CommTask

/-- The object and the two tasks. -/
structure CommTask where
  shared : Shared
  telecommand : Option CallPc
  mission : MissionPc
  turnedOff : List TurnedOff
deriving DecidableEq, Repr

namespace CommTask

/-- After `BuildAction`. The turn-off time is not initialised. -/
def init (turnOffTime : ℤ) : CommTask where
  shared := ⟨false, turnOffTime, true, false, none⟩
  telecommand := none
  mission := .ready
  turnedOff := []

/-- The transmitter accepts a state. -/
def Shared.accept (s : Shared) : Request → Shared
  | .enterTransmitterStateWhenIdle turnOffTime => { s with transmitter := true, due := some turnOffTime }
  | .leaveTransmitterStateWhenIdle => { s with transmitter := false }

/-- The next operation of a call: what is shared after it, and what comes next. `answer` is the
result of the lock or of the transmitter. -/
def callStep (s : Shared) (answer : Bool) : CallPc → Option (Shared × Option CallPc)
  | .locking request =>
    if ¬ answer then some (s, none)
    else if s.free then some ({ s with free := false }, some (.sending request))
    else none
  | .sending request =>
    if answer then some (s.accept request, some (.settingFlag request)) else some (s, some .unlocking)
  | .settingFlag (.enterTransmitterStateWhenIdle turnOffTime) =>
    some ({ s with idleState := true }, some (.settingTime turnOffTime))
  | .settingFlag .leaveTransmitterStateWhenIdle => some ({ s with idleState := false }, some .unlocking)
  | .settingTime turnOffTime => some ({ s with idleStateTurnOffTime := turnOffTime }, some .unlocking)
  | .unlocking => some ({ s with free := true }, none)

/-- What happens next. -/
inductive Event
  /-- A telecommand calls. -/
  | call (request : Request)
  /-- The next operation of its call. -/
  | telecommand (answer : Bool)
  /-- The mission loop begins with `CanLeaveTransmitterStateWhenIdle` at a mission time. -/
  | cycle (time : ℤ)
  /-- Its next operation. -/
  | mission (answer : Bool)
deriving DecidableEq, Repr

/-- The next operation of the mission loop. -/
def missionStep (s : CommTask) (answer : Bool) : Option CommTask :=
  match s.mission with
  | .ready => none
  | .comparing time =>
    let action := MissionPc.acting time (.locking .leaveTransmitterStateWhenIdle)
    some { s with mission := if s.shared.idleStateTurnOffTime ≤ time then action else .ready }
  | .acting time pc =>
    (callStep s.shared answer pc).map fun (shared, next) =>
      { s with
        shared := shared
        mission := (next.map (MissionPc.acting time)).getD .ready
        turnedOff := s.turnedOff ++
          if pc = .sending .leaveTransmitterStateWhenIdle ∧ answer then [⟨time, s.shared.due⟩] else [] }

/-- One step. -/
def step (s : CommTask) : Event → Option CommTask
  | .call request => if s.telecommand = none then some { s with telecommand := some (.locking request) } else none
  | .telecommand answer =>
    s.telecommand.bind fun pc =>
      (callStep s.shared answer pc).map fun (shared, next) => { s with shared := shared, telecommand := next }
  | .cycle time =>
    if s.mission = .ready then
      some { s with mission := if s.shared.idleState then .comparing time else .ready }
    else none
  | .mission answer => s.missionStep answer

end CommTask

end PWSat2OBC
