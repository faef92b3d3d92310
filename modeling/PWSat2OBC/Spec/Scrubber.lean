import PWSat2OBC.Lib.Runs
import PWSat2OBC.Spec.ProgramFlash

/-!
# Program scrubber (`libs/scrubber/program.cpp`)

Each call of `ScrubSlots` votes one 64 KB block of the three selected slots and rewrites
the copies that differ from the vote, if it gets the lock of the boot table.
-/

namespace PWSat2OBC

/-- `ProgramScrubber`: its buffer, with its address, and its state. -/
structure ProgramScrubber where
  slotsMask : Byte
  bufferAddr : ℕ
  buffer : List Byte
  offset : ℕ
  iterationsCount : BitVec 32
  slotsCorrected : BitVec 32
  inProgress : Bool
deriving DecidableEq, Repr

namespace ProgramScrubber

/-- `ScrubSize`. -/
def scrubSize : ℕ := Flash.largeSectorSize

/-- `ScrubAreaSize`. -/
def scrubAreaSize : ℕ := ProgramEntry.size

/-- `DecodeSlotsMask`. -/
def decodeSlotsMask (mask : Byte) : List Byte := BootTable.selectEntries mask

/-- `ProgramScrubber(buffer, bootTable, flashDriver, slotsMask)`. -/
def init (bufferAddr : ℕ) (buffer : List Byte) (slotsMask : Byte) : ProgramScrubber :=
  ⟨slotsMask, bufferAddr, buffer, 0, 0, 0, false⟩

/-- One turn of the loop over the three entries: rewrite the block of `slot` unless it is
correct. -/
def rewrite (offset : ℕ) (buffer : List Byte) (st : Flash × BitVec 32) (entry : Byte × Bool) :
    Flash × BitVec 32 :=
  let (flash, slotsCorrected) := st
  let (slot, isCorrect) := entry
  if isCorrect then (flash, slotsCorrected)
  else
    let flashOffset := ProgramEntry.inFlashOffset slot + offset
    ((flash.eraseSector flashOffset).program flashOffset buffer, slotsCorrected + 1)

variable (flash : Flash) (s : ProgramScrubber)

/-- `ScrubSlots`, where `locked` tells whether the lock was obtained. -/
def scrubSlots (locked : Bool) : Flash × ProgramScrubber :=
  let slots := decodeSlotsMask s.slotsMask
  if !locked then (flash, s)
  else
    let scrubSpans := slots.map fun slot =>
      (ProgramEntry.wholeEntry flash slot).subspan s.offset scrubSize
    let buffer := (Redundancy.correctBufferTo ⟨s.bufferAddr, s.buffer⟩ (scrubSpans.getD 0 ⟨0, []⟩)
      (scrubSpans.getD 1 ⟨0, []⟩) (scrubSpans.getD 2 ⟨0, []⟩)).2
    let isCorrect := scrubSpans.map fun span => span.bytes == buffer
    let (flash, slotsCorrected) :=
      (slots.zip isCorrect).foldl (rewrite s.offset buffer) (flash, s.slotsCorrected)
    let offset := s.offset + scrubSize
    let offset := if scrubAreaSize ≤ offset then 0 else offset
    (flash, { s with
      buffer, offset, slotsCorrected, iterationsCount := s.iterationsCount + 1, inProgress := false })

/-- A sequence of calls with the given outcomes of the lock. -/
def scrubAll (locks : List Bool) : Flash × ProgramScrubber :=
  locks.foldl (fun st locked => scrubSlots st.1 st.2 locked) (flash, s)

end ProgramScrubber

end PWSat2OBC
