import PWSat2OBC.Lib.Loops
import PWSat2OBC.Spec.BootTable
import PWSat2OBC.Spec.ExperimentTelecommands

/-!
# Copying boot slots (`libs/experiments/program/program_exp.cpp`)

What an iteration of the experiment does to the program flash and what it sends. The target
slots are erased first. Then the three source slots are voted in parts of 1 KB, and each part
is programmed into each of the targets.
-/

namespace PWSat2OBC

/-- `copyBuffer`, which has no initial value. -/
structure CopyBuffer where
  addr : ℕ
  bytes : List Byte
  length_bytes : bytes.length = 1024

namespace CopyBootSlotsExperiment

/-- What an iteration works on, and the payloads of the frames it has sent. -/
structure Copying where
  driver : FlashDriver
  copyBuffer : List Byte
  frames : List (List Byte)

/-- `EraseEntryError`. -/
def eraseEntryError (errorCode : Byte) (entry : ℕ) (offset : ℕ) : List Byte :=
  [0, 1, errorCode, 1 <<< entry] ++ Redundancy.storeWord (BitVec.ofNat 32 offset)

/-- `WriteProgramError`. -/
def writeProgramError (errorCode : Byte) (entry : ℕ) (offset : ℕ) : List Byte :=
  [1, 1, errorCode, 1 <<< entry] ++ Redundancy.storeWord (BitVec.ofNat 32 offset)

/-- The payload of the last frame of a copy. -/
def successResponse : List Byte := [0]

/-- `copyBuffer.size()`. -/
def partSize : ℕ := 1024

variable (o : CopyBootSlotsExperiment) (answers : FlashAnswers)

/-- One turn of the loop that erases the targets. -/
def eraseTarget (s : Copying) (i : ℕ) : Option IterationResult × Copying :=
  if o.targetEntries.getLsbD i then
    let (result, driver) := ProgramEntry.erase (BitVec.ofNat 8 i) answers s.driver
    match result with
    | some (status, offset) =>
      (some .failure,
        { s with driver, frames := s.frames ++ [eraseEntryError status.num i offset] })
    | none => (none, { s with driver })
  else (none, s)

/-- One turn of the inner loop: `copyBuffer` goes to a target. An error is reported. -/
def programTarget (offset : ℕ) (s : Copying) (i : ℕ) : Copying :=
  if o.targetEntries.getLsbD i then
    let (result, driver) := s.driver.perform answers
      (.program (ProgramEntry.inFlashOffset (BitVec.ofNat 8 i) + offset) s.copyBuffer)
    { s with
      driver
      frames :=
        if result ≠ .notBusy then s.frames ++ [writeProgramError result.num i offset] else s.frames }
  else s

/-- The vote on one part. The result of `CorrectBuffer` is not looked at. -/
def votePart (bufferAddr offset : ℕ) (s : Copying) : Copying :=
  let parts := (toSlotNumbers o.sourceEntries).map fun e =>
    (ProgramEntry.wholeEntry s.driver.flash e).subspan offset partSize
  { s with
    copyBuffer := (Redundancy.correctBufferTo ⟨bufferAddr, s.copyBuffer⟩ (parts.getD 0 ⟨0, []⟩)
      (parts.getD 1 ⟨0, []⟩) (parts.getD 2 ⟨0, []⟩)).2 }

/-- One turn of the outer loop. -/
def copyPart (bufferAddr : ℕ) (s : Copying) (offset : ℕ) : Copying :=
  (List.range BootTable.entriesCount).foldl (programTarget o answers offset)
    (votePart o bufferAddr offset s)

/-- The offsets of the parts. -/
def partOffsets : List ℕ := (List.range (ProgramEntry.size / partSize)).map (· * partSize)

/-- `Iteration`, with the lock of the boot table. -/
def iteration (copyBuffer : CopyBuffer) (flash : Flash) : IterationResult × Copying :=
  let erased := Loops.firstSome (eraseTarget o answers) (List.range BootTable.entriesCount)
    ⟨⟨flash, []⟩, copyBuffer.bytes, []⟩
  match erased with
  | (some result, s) => (result, s)
  | (none, s) =>
    let s := partOffsets.foldl (copyPart o answers copyBuffer.addr) s
    (.finished, { s with frames := s.frames ++ [successResponse] })

end CopyBootSlotsExperiment

/-- The masks in a telecommand that is accepted. -/
def PerformCopyBootSlotsExperiment.accepted (parameters : List Byte) : Option (Byte × Byte) :=
  match (PerformCopyBootSlotsExperiment.read parameters).2 with
  | some (.copyBootSlots sourceBitMask targetBitMask) => some (sourceBitMask, targetBitMask)
  | _ => none

/-- `SetupEntries` with the masks of a telecommand. -/
def CopyBootSlotsExperiment.setupEntries (masks : Byte × Byte) : CopyBootSlotsExperiment :=
  ⟨masks.1.setWidth 6, masks.2.setWidth 6⟩

end PWSat2OBC
