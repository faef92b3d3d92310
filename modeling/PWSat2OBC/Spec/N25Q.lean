import PWSat2OBC.Spec.ErrorCounter
import PWSat2OBC.Spec.ExperimentFile

/-!
# N25Q flash memory (`libs/drivers/n25q/n25q.cpp`)

A chip of 16 MB behind an SPI bus. Programming stays in one page of 256 bytes and wraps
around in it; it clears bits only, erasing sets them. A busy chip takes nothing but status
reads. The error flags stay set until `ClearFlagRegister`.

The operations of the driver are modelled transaction by transaction (`N25QDriver.step`), so
the chip may finish its operation between any two of them. Transfers of these transactions are
taken to succeed; those of `ReadMemory` may fail. Reading ids and resetting are left out.
-/

namespace PWSat2OBC

/-- `devices::n25q::OperationResult`. -/
inductive OperationResult
  | success
  | failure
  | timeout
deriving DecidableEq, Repr

namespace N25Q

/-- The bytes of a chip, by their 24-bit address. -/
abbrev Memory := ℕ → Byte

/-- The number of bytes of a chip. -/
def size : ℕ := 2 ^ 24

/-- `N25QDriver::PageSize`. -/
def pageSize : ℕ := 256

/-- `WriterWriteAddress` and `WriteAddress`: an address as it goes over the bus. -/
def addressBytes (address : ℕ) : List Byte :=
  [BitVec.ofNat 8 (address >>> 16), BitVec.ofNat 8 (address >>> 8), BitVec.ofNat 8 address]

/-- The address the chip takes from the bus. -/
def busAddress : List Byte → ℕ
  | [b2, b1, b0] => b2.toNat * 65536 + b1.toNat * 256 + b0.toNat
  | _ => 0

/-- The address the chip works at for an address of the driver. -/
def chipAddress (address : ℕ) : ℕ := busAddress (addressBytes address)

/-- Where in a page that is programmed from `address` on a cell is. -/
def pageIndex (address a : ℕ) : ℕ := (a + pageSize - address % pageSize) % pageSize

/-- The chip programs a page. -/
def programPage (memory : Memory) (address : ℕ) (page : List Byte) : Memory := fun a =>
  if a / pageSize = address / pageSize ∧ pageIndex address a < page.length then
    memory a &&& page.getD (pageIndex address a) 0
  else memory a

/-- The chip erases the block of the given size around an address. -/
def eraseBlock (memory : Memory) (blockSize address : ℕ) : Memory := fun a =>
  if a / blockSize = address / blockSize then 0xFF else memory a

/-! ## Reading -/

/-- `Retry`: up to `remaining` actions, until one succeeds. -/
def retry {σ : Type} (action : σ → OSResult × σ) : (remaining : ℕ) → OSResult → σ → OSResult × σ
  | 0, lastResult, s => (lastResult, s)
  | remaining + 1, _, s =>
    match action s with
    | (.success, s') => (.success, s')
    | (.failed code, s') => retry action remaining (.failed code) s'

/-- `N25QDriver::RetryCount`. -/
def retryCount : ℕ := 3

/-- `OSResult::InvalidOperation`. -/
def invalidOperation : OSResult := .failed 2000

/-- What the bus makes of one attempt to read: the results of writing the command and of
reading, and what a failed read puts into the buffer. -/
structure ReadAttempt where
  write : OSResult
  read : OSResult
  garbage : List Byte
deriving DecidableEq, Repr

/-- The bytes the chip sends for the command `ReadMemory`; behind the last one it goes on at
address 0. -/
def memoryBytes (memory : Memory) (address length : ℕ) : List Byte :=
  (List.range length).map fun i => memory ((chipAddress address + i) % size)

/-- The number of attempts made and the buffer. -/
structure ReadState where
  tried : ℕ
  buffer : List Byte

/-- Put new bytes at the front of a buffer. -/
def refill (front buffer : List Byte) : List Byte :=
  front.take buffer.length ++ buffer.drop front.length

/-- The action that `ReadMemory` retries. -/
def readAction (memory : Memory) (attempts : ℕ → ReadAttempt) (address : ℕ) (s : ReadState) :
    OSResult × ReadState :=
  let attempt := attempts s.tried
  match attempt.write with
  | .failed code => (.failed code, { s with tried := s.tried + 1 })
  | .success =>
    match attempt.read with
    | .success => (.success, ⟨s.tried + 1, memoryBytes memory address s.buffer.length⟩)
    | .failed code => (.failed code, ⟨s.tried + 1, refill attempt.garbage s.buffer⟩)

/-- `N25QDriver::ReadMemory`: the result, the buffer, and the report to the error counter. -/
def readMemory (deviceId : Byte) (memory : Memory) (attempts : ℕ → ReadAttempt) (address : ℕ)
    (buffer : List Byte) : OSResult × List Byte × ErrorReport :=
  let (r, s) := retry (readAction memory attempts address) retryCount invalidOperation ⟨0, buffer⟩
  (r, s.buffer, if r = .success then .success deviceId else .failure deviceId)

/-! ## Programming and erasing -/

/-- An operation that ends with `Wait`. -/
inductive Operation
  | writePage (address : ℕ) (page : List Byte)
  | eraseSubSector (address : ℕ)
  | eraseSector (address : ℕ)
  | eraseChip
deriving DecidableEq, Repr

/-- The error flags of `FlagStatus` the driver looks at. -/
inductive ErrorFlag
  | programError
  | eraseError
deriving DecidableEq, Repr

namespace Operation

/-- What the operation does to the chip. -/
def effect (memory : Memory) : Operation → Memory
  | writePage address page => programPage memory (chipAddress address) page
  | eraseSubSector address => eraseBlock memory 4096 (chipAddress address)
  | eraseSector address => eraseBlock memory 65536 (chipAddress address)
  | eraseChip => eraseBlock memory size 0

/-- The flag that is set when the operation fails, and that `Wait` checks. -/
def errorStatus : Operation → ErrorFlag
  | writePage _ _ => .programError
  | _ => .eraseError

/-- `BeginWritePage` asserts that the data fits into a page. -/
def fits : Operation → Bool
  | writePage _ page => page.length ≤ pageSize
  | _ => true

end Operation

end N25Q

open N25Q

/-- A chip: its bytes, the write enable latch, the flag register and the operation it is busy
with. -/
structure N25QChip where
  memory : Memory
  writeEnabled : Bool
  flags : ErrorFlag → Bool
  operation : Option Operation

namespace N25QChip

variable (chip : N25QChip)

/-- The chip gets `ClearFlagRegister`. -/
def clearFlags : N25QChip :=
  if chip.operation.isSome then chip else { chip with flags := fun _ => false }

/-- The chip gets `WriteEnable`. -/
def writeEnable : N25QChip :=
  if chip.operation.isSome then chip else { chip with writeEnabled := true }

/-- The chip gets the command of an operation. -/
def accepts : Bool := chip.operation.isNone && chip.writeEnabled

/-- The chip begins an operation it accepts. -/
def execute (op : Operation) : N25QChip := if chip.accepts then { chip with operation := some op } else chip

/-- The chip ends an operation. A failed one sets its flag and leaves something behind. -/
def finish (op : Operation) (ok : Bool) (left : Memory) (writeEnabled : Bool) : N25QChip where
  memory := if ok then op.effect chip.memory else left
  writeEnabled := writeEnabled
  flags := if ok then chip.flags else Function.update chip.flags op.errorStatus true
  operation := none

end N25QChip

namespace N25QDriver

/-- The next transaction of the driver. -/
inductive Pc
  | idle
  /-- `ClearFlags`, which the erase operations begin with. -/
  | clearing (op : Operation)
  /-- `EnableWrite`. -/
  | enabling (op : Operation)
  /-- The command with its address and data. -/
  | commanding (op : Operation)
  /-- `Wait`. -/
  | waiting (op : Operation)
deriving DecidableEq, Repr

/-- What has become of the operation on the chip. -/
inductive Fate
  | notAccepted
  | running
  | succeeded
  | failed
deriving DecidableEq, Repr

/-- A `Wait` that has returned. -/
structure Waited where
  operation : Operation
  fate : Fate
  result : OperationResult
deriving DecidableEq, Repr

/-- `BeginWritePage`, `BeginEraseSubSector`, `BeginEraseSector` and `BeginEraseChip` up to
their first transaction. -/
def begin : Operation → Pc
  | .writePage address page => .enabling (.writePage address page)
  | op => .clearing op

end N25QDriver

/-- The driver, its chip, what has become of the current operation, and the `Wait`s so far. -/
structure N25QDriver where
  chip : N25QChip
  pc : N25QDriver.Pc
  fate : N25QDriver.Fate
  waits : List N25QDriver.Waited
  reports : List ErrorReport

/-- What happens next: the driver begins an operation, does its next transaction, or returns
from `Wait`; or the chip ends its operation. -/
inductive N25QEvent
  | start (op : Operation)
  | transact
  | wait
  | finish (ok : Bool) (left : Memory) (writeEnabled : Bool)

namespace N25QDriver

/-- A chip without errors. -/
def init (memory : Memory) : N25QDriver :=
  ⟨⟨memory, false, fun _ => false, none⟩, .idle, .notAccepted, [], []⟩

/-- `WaitForOperation`, when `WaitBusy` has read the status for the last time: the chip is still
busy after the timeout, or the flags are checked. -/
def waitForOperation (chip : N25QChip) (errorStatus : ErrorFlag) : OperationResult :=
  if chip.operation.isSome then .timeout
  else if chip.flags errorStatus then .failure else .success

/-- What the driver with device id `deviceId` reports to its error counter. -/
def report (deviceId : Byte) : OperationResult → ErrorReport
  | .success => .success deviceId
  | _ => .failure deviceId

/-- One step of the driver or of the chip. -/
def step (deviceId : Byte) (s : N25QDriver) : N25QEvent → Option N25QDriver
  | .start op =>
    match s.pc with
    | .idle => if op.fits then some { s with pc := begin op, fate := .notAccepted } else none
    | _ => none
  | .transact =>
    match s.pc with
    | .clearing op => some { s with chip := s.chip.clearFlags, pc := .enabling op }
    | .enabling op => some { s with chip := s.chip.writeEnable, pc := .commanding op }
    | .commanding op =>
      some { s with
        chip := s.chip.execute op, pc := .waiting op,
        fate := if s.chip.accepts then .running else .notAccepted }
    | _ => none
  | .wait =>
    match s.pc with
    | .waiting op =>
      let result := waitForOperation s.chip op.errorStatus
      some { s with
        pc := .idle, waits := s.waits ++ [⟨op, s.fate, result⟩],
        reports := s.reports ++ [report deviceId result] }
    | _ => none
  | .finish ok left writeEnabled =>
    match s.chip.operation with
    | some op =>
      some { s with
        chip := s.chip.finish op ok left writeEnabled,
        fate := if s.fate = .running then (if ok then .succeeded else .failed) else s.fate }
    | none => none

end N25QDriver

end PWSat2OBC
