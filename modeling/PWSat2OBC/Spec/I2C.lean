import PWSat2OBC.Lib.Runs

/-!
# The I2C bus (`libs/drivers/i2c/efm.cpp`)

Tasks execute transfers one after the other under the lock of the bus. The hardware works on the
transfer started last, and its interrupt handler puts the result into a queue of one element.
Interrupts come between any two steps of a task.

What the pins, the registers and `I2C_Transfer` say is given by the events. Calls are counted from
0; `interrupts` and `returned` record what the interrupts and the calls have ended with. The
program does not read them.
-/

namespace PWSat2OBC

/-- `I2CResult`. -/
inductive I2CResult
  | ok
  | nack
  | busErr
  | arbLost
  | usageFault
  | swFault
  | timeout
  | lineLatched
  | failure
  | lineAlreadyLatched
deriving DecidableEq, Repr

/-- `I2C_TransferReturn_TypeDef` of a transfer that is over. `i2cTransferInProgress` is `none`
below. -/
inductive TransferReturn
  | done
  | nack
  | busErr
  | arbLost
  | usageFault
  | swFault
deriving DecidableEq, Repr

/-- The cast. -/
def I2CResult.ofReturn : TransferReturn → I2CResult
  | .done => .ok
  | .nack => .nack
  | .busErr => .busErr
  | .arbLost => .arbLost
  | .usageFault => .usageFault
  | .swFault => .swFault

namespace I2CLowLevelBus

/-- What `ExecuteTransfer` does next. Each but the first belongs to a call. -/
inductive Pc
  /-- The lock is free. -/
  | free
  /-- `IsSclOrSdaLatched`. -/
  | checking (call : ℕ)
  /-- `I2C_TransferInit`. -/
  | starting (call : ℕ)
  /-- `Pop`. -/
  | waiting (call : ℕ)
  /-- `hw->CMD = I2C_CMD_STOP | I2C_CMD_ABORT`. -/
  | aborting (call : ℕ)
  /-- While `I2C_STATUS_PABORT` is set. -/
  | polling (call : ℕ)
  /-- `IsSclOrSdaLatched`, after the abort. -/
  | checkingAgain (call : ℕ)
deriving DecidableEq, Repr

/-- A result that an interrupt has pushed. -/
structure Pushed where
  call : ℕ
  result : TransferReturn
deriving DecidableEq, Repr

/-- What a call has returned, and the element it has popped. -/
structure Returned where
  call : ℕ
  result : I2CResult
  popped : Option Pushed
deriving DecidableEq, Repr

end I2CLowLevelBus

open I2CLowLevelBus

/-- The bus. -/
structure I2CLowLevelBus where
  pc : Pc
  resultQueue : Option Pushed
  /-- The transfer the hardware works on, with its interrupts enabled. -/
  hardware : Option ℕ
  calls : ℕ
  interrupts : List Pushed
  returned : List Returned
deriving DecidableEq, Repr

namespace I2CLowLevelBus

/-- After `Initialize`. -/
def init : I2CLowLevelBus := ⟨.free, none, none, 0, [], []⟩

/-- What happens next. -/
inductive Event
  /-- A task calls `ExecuteTransfer` and gets the lock, or not. -/
  | executeTransfer (locked : Bool)
  | isSclOrSdaLatched (latched : Bool)
  | transferInit (status : Option TransferReturn)
  | pop
  /-- `Pop` fails. -/
  | timeout
  | abort
  | status (pabort : Bool)
  /-- `IRQHandler`, with the result of `I2C_Transfer`. -/
  | interrupt (status : Option TransferReturn)
deriving DecidableEq, Repr

/-- The call returns, and gives the lock back. -/
def returns (s : I2CLowLevelBus) (call : ℕ) (result : I2CResult) (popped : Option Pushed) : I2CLowLevelBus :=
  { s with pc := .free, returned := s.returned ++ [⟨call, result, popped⟩] }

/-- `PushISR`, which fails when the queue is full. -/
def pushISR (s : I2CLowLevelBus) (pushed : Pushed) : I2CLowLevelBus :=
  { s with resultQueue := if s.resultQueue.isSome then s.resultQueue else some pushed }

/-- The transfer `I2C_TransferInit` leaves to the hardware. A usage fault is found before the old one
is given up. -/
def transferInit (s : I2CLowLevelBus) (call : ℕ) : Option TransferReturn → I2CLowLevelBus
  | none => { s with hardware := some call }
  | some .usageFault => s
  | some _ => { s with hardware := none }

/-- One step. -/
def step (s : I2CLowLevelBus) : Event → Option I2CLowLevelBus
  | .executeTransfer locked =>
    let next := { s with calls := s.calls + 1 }
    if ¬ locked then some { next with returned := s.returned ++ [⟨s.calls, .failure, none⟩] }
    else if s.pc = .free then some { next with pc := .checking s.calls }
    else none
  | .isSclOrSdaLatched latched =>
    match s.pc with
    | .checking call =>
      if latched then some (s.returns call .lineAlreadyLatched none) else some { s with pc := .starting call }
    | .checkingAgain call => some (s.returns call (if latched then .lineLatched else .timeout) none)
    | _ => none
  | .transferInit status =>
    match s.pc with
    | .starting call =>
      match status with
      | none => some { s.transferInit call none with pc := .waiting call }
      | some result => some ((s.transferInit call (some result)).returns call (.ofReturn result) none)
    | _ => none
  | .pop =>
    match s.pc, s.resultQueue with
    | .waiting call, some pushed =>
      some ({ s with resultQueue := none }.returns call (.ofReturn pushed.result) (some pushed))
    | _, _ => none
  | .timeout =>
    match s.pc, s.resultQueue with
    | .waiting call, none => some { s with pc := .aborting call }
    | _, _ => none
  | .abort =>
    match s.pc with
    | .aborting call => some { s with pc := .polling call }
    | _ => none
  | .status pabort =>
    match s.pc with
    | .polling call => some { s with pc := if pabort then .polling call else .checkingAgain call }
    | _ => none
  | .interrupt status =>
    match s.hardware, status with
    | none, _ => none
    | some _, none => some s
    | some call, some result =>
      -- a transfer that is over has no more interrupts
      some { s.pushISR ⟨call, result⟩ with
        hardware := none
        interrupts := s.interrupts ++ [⟨call, result⟩] }

end I2CLowLevelBus

end PWSat2OBC
