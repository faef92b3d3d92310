import Mathlib.Tactic
import PWSat2OBC.Lib.Loops
import PWSat2OBC.Spec.N25Q

/-!
# Triple-redundant N25Q flash (`libs/drivers/n25q/redundant_n25q.cpp`)

Three chips hold the same bytes. `ReadMemory` reads two of them and the third only if they
differ; `WriteMemory` programs all three in parts of 256 bytes. The three buffers of a read
do not overlap.
-/

namespace PWSat2OBC

/-- `Vote`. -/
def Redundancy.voted {α : Type} [DecidableEq α] (a b c : α) : Option α :=
  if a = b ∨ a = c then some a else if b = c then some b else none

namespace RedundantN25Q

open N25Q

scoped instance threeChips : NeZero 3 := Nat.instNeZeroSucc

/-- `N25QDriver1` to `N25QDriver3`: the device ids of the drivers. -/
def deviceId : Fin 3 → Byte
  | 0 => 4
  | 1 => 5
  | 2 => 6

/-- `RedundantN25QDriver::ErrorCounter::DeviceId`. -/
def redundantDeviceId : Byte := 7

/-! ## Reading -/

/-- What a read meets: the bytes of the chips and what the bus makes of the attempts. -/
structure ReadChips where
  memory : Fin 3 → Memory
  attempts : Fin 3 → ℕ → ReadAttempt

/-- What `ReadMemory` leaves: the result, the three buffers, and the reports to the error
counters. -/
structure ReadOutcome where
  result : OSResult
  outputBuffer : List Byte
  redundantBuffer1 : List Byte
  redundantBuffer2 : List Byte
  reports : List ErrorReport
deriving DecidableEq

/-- `RedundantN25QDriver::ReadMemory`. -/
def readMemory (chips : ReadChips) (address : ℕ)
    (outputBuffer redundantBuffer1 redundantBuffer2 : Span) : ReadOutcome :=
  let bufferLength := min outputBuffer.length (min redundantBuffer1.length redundantBuffer2.length)
  let driver i buffer := N25Q.readMemory (deviceId i) (chips.memory i) (chips.attempts i) address buffer
  let output := outputBuffer.subspan 0 bufferLength
  let (r0, bytes0, report0) := driver 0 output.bytes
  let output' := refill bytes0 outputBuffer.bytes
  if r0 ≠ .success then ⟨r0, output', redundantBuffer1.bytes, redundantBuffer2.bytes, [report0]⟩
  else
    let redundant1 := redundantBuffer1.subspan 0 bufferLength
    let (r1, bytes1, report1) := driver 1 redundant1.bytes
    let redundant1' := refill bytes1 redundantBuffer1.bytes
    if r1 ≠ .success then ⟨r1, output', redundant1', redundantBuffer2.bytes, [report0, report1]⟩
    else if bytes0 = bytes1 then
      ⟨.success, output', redundant1', redundantBuffer2.bytes,
        [report0, report1, .success redundantDeviceId]⟩
    else
      let redundant2 := redundantBuffer2.subspan 0 bufferLength
      let (r2, bytes2, report2) := driver 2 redundant2.bytes
      let redundant2' := refill bytes2 redundantBuffer2.bytes
      let reports := [report0, report1, .failure redundantDeviceId, report2]
      if r2 ≠ .success then ⟨r2, output', redundant1', redundant2', reports⟩
      else
        -- the result of `CorrectBuffer` is not looked at
        let corrected := (Redundancy.correctBuffer ⟨output.addr, bytes0⟩ ⟨redundant1.addr, bytes1⟩
          ⟨redundant2.addr, bytes2⟩).2
        ⟨.success, refill corrected outputBuffer.bytes, redundant1', redundant2', reports⟩

/-! ## Programming -/

/-- What a chip makes of a page program: the result of `Wait`, and the bytes it leaves if it
does not execute the program. -/
structure PageAnswer where
  result : OperationResult
  instead : Option Memory

/-- The bytes of the three chips and the reports to the error counters. -/
structure Chips where
  memory : Fin 3 → Memory
  reports : List ErrorReport

/-- `BeginWritePage` and `Wait` on a chip. -/
def writePage (answer : PageAnswer) (memory : Memory) (address offset : ℕ) (page : List Byte) :
    Memory :=
  match answer.instead with
  | none => (Operation.writePage (address + offset) page).effect memory
  | some left => left

/-- The offsets of the loop in `WriteMemory`. -/
def offsets (length : ℕ) : List ℕ :=
  (List.range ((length + pageSize - 1) / pageSize)).map (· * pageSize)

/-- One turn of the loop in `WriteMemory`. -/
def writePart (answers : ℕ → Fin 3 → PageAnswer) (address : ℕ) (buffer : List Byte) (chips : Chips)
    (offset : ℕ) : Option OperationResult × Chips :=
  let page := (buffer.drop offset).take (min pageSize (buffer.length - offset))
  let memory i := writePage (answers offset i) (chips.memory i) address offset page
  let result i := (answers offset i).result
  let reports := chips.reports ++ (List.finRange 3).map fun i =>
    N25QDriver.report (deviceId i) (result i)
  match Redundancy.voted (result 0) (result 1) (result 2) with
  | none => (some .failure, ⟨memory, reports ++ [.failure redundantDeviceId]⟩)
  | some .success => (none, ⟨memory, reports⟩)
  | some votedResult => (some votedResult, ⟨memory, reports ++ [.failure redundantDeviceId]⟩)

/-- `RedundantN25QDriver::WriteMemory`. `answers` is what the chips make of the part at each
offset. -/
def writeMemory (answers : ℕ → Fin 3 → PageAnswer) (address : ℕ) (buffer : List Byte)
    (chips : Chips) : OperationResult × Chips :=
  match Loops.firstSome (writePart answers address buffer) (offsets buffer.length) chips with
  | (some result, chips) => (result, chips)
  | (none, chips) =>
    (.success, { chips with reports := chips.reports ++ [.success redundantDeviceId] })

end RedundantN25Q

end PWSat2OBC
