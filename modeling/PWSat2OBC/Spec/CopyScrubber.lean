import PWSat2OBC.Lib.Memory
import PWSat2OBC.Spec.ProgramFlash

/-!
# Bootloader and safe mode scrubbers (`libs/scrubber/bootloader.cpp`, `safe_mode.cpp`)

Both vote five copies in the program flash into the scrub buffer, rewrite the copies that
differ from the vote, and then repair a second memory page by page: the flash of the MCU
or the EEPROM. The scrub buffer is shared with the program scrubbers.
-/

namespace PWSat2OBC

/-- `ScrubbingBuffer`. -/
structure ScrubBuffer where
  addr : ℕ
  bytes : List Byte
  length_bytes : bytes.length = 65536

/-! ## Copies in the program flash -/

namespace CopyScrubber

/-- The five spans are voted into the buffer; the result of `CorrectBuffer` is not looked
at. -/
def correct (buffer : Span) (spans : List Span) : List Byte :=
  (Redundancy.correctBuffer5 buffer (spans.getD 0 ⟨0, []⟩) (spans.getD 1 ⟨0, []⟩)
    (spans.getD 2 ⟨0, []⟩) (spans.getD 3 ⟨0, []⟩) (spans.getD 4 ⟨0, []⟩)).2

/-- One turn of the loop over the copies: rewrite `copy` unless it is correct. -/
def rewrite (buffer : List Byte) (st : Flash × BitVec 32) (entry : FlashCopy × Bool) :
    Flash × BitVec 32 :=
  let (flash, copiesCorrected) := st
  let (copy, isCorrect) := entry
  if isCorrect then (flash, copiesCorrected)
  else (copy.write (copy.erase flash) 0 buffer, copiesCorrected + 1)

/-- The first half of both `Scrub`s: the new contents of the buffer, the flash and the
number of corrected copies. -/
def scrubCopies (copies : List FlashCopy) (buffer : Span) (flash : Flash)
    (copiesCorrected : BitVec 32) : List Byte × Flash × BitVec 32 :=
  let spans := copies.map fun copy => copy.content flash
  let buffer := correct buffer spans
  let isCorrect := spans.map fun copy => buffer.take copy.length == copy.bytes
  (buffer, (copies.zip isCorrect).foldl (rewrite buffer) (flash, copiesCorrected))

end CopyScrubber

/-! ## Bootloader -/

/-- Flash of the MCU. -/
abbrev McuFlash := ℕ → Byte

namespace McuFlash

/-- `IMCUFlash::SectorSize`. -/
def sectorSize : ℕ := 4096

variable (mcuFlash : McuFlash)

/-- `MCUMemoryController::Erase`. -/
def erase (sectorOffset : ℕ) : McuFlash := Memory.erase mcuFlash sectorOffset sectorSize

/-- `MCUMemoryController::Program`. -/
def program (sectorOffset : ℕ) (buffer : List Byte) : McuFlash :=
  Memory.program mcuFlash sectorOffset buffer

end McuFlash

/-- `BootloaderScrubber`, without the references it holds. -/
structure BootloaderScrubber where
  iterationsCount : BitVec 32
  copiesCorrected : BitVec 32
  mcuPagesCorrected : BitVec 32
  inProgress : Bool
deriving DecidableEq

namespace BootloaderScrubber

/-- One turn of the loop over the MCU flash. -/
def scrubSector (buffer : List Byte) (st : McuFlash × BitVec 32) (i : ℕ) :
    McuFlash × BitVec 32 :=
  let (mcuFlash, mcuPagesCorrected) := st
  let offset := i * McuFlash.sectorSize
  let validPart := (buffer.drop offset).take McuFlash.sectorSize
  if Memory.block mcuFlash offset McuFlash.sectorSize = validPart then
    (mcuFlash, mcuPagesCorrected)
  else ((mcuFlash.erase offset).program offset validPart, mcuPagesCorrected + 1)

/-- `GetBootloaderCopy(0)` to `GetBootloaderCopy(4)`. -/
def copies : List FlashCopy := (List.range 5).map bootloaderCopy

/-- What `Scrub` works on. -/
structure Memories where
  scrubBuffer : List Byte
  flash : Flash
  mcuFlash : McuFlash

/-- `BootloaderScrubber::Scrub`, where `locked` tells whether the lock was obtained. -/
def scrub (s : BootloaderScrubber) (locked : Bool) (scrubBuffer : ScrubBuffer) (flash : Flash)
    (mcuFlash : McuFlash) : BootloaderScrubber × Memories :=
  if !locked then (s, ⟨scrubBuffer.bytes, flash, mcuFlash⟩)
  else
    let corrected :=
      CopyScrubber.scrubCopies copies ⟨scrubBuffer.addr, scrubBuffer.bytes⟩ flash s.copiesCorrected
    let repaired := (List.range (65536 / McuFlash.sectorSize)).foldl (scrubSector corrected.1)
      (mcuFlash, s.mcuPagesCorrected)
    ({ s with
        copiesCorrected := corrected.2.2
        mcuPagesCorrected := repaired.2
        inProgress := false },
      ⟨corrected.1, corrected.2.1, repaired.1⟩)

end BootloaderScrubber

/-! ## Safe mode -/

/-- Contents of the EEPROM, mapped at `0x80000000`. -/
abbrev Eeprom := ℕ → Byte

namespace Eeprom

/-- The bus writes that unlock a page. -/
def unlock : List (ℕ × Byte) := [(0x5555, 0xAA), (0x2AAA, 0x55), (0x5555, 0xA0)]

/-- The device's answer to a burst of bus writes: those that follow the unlocking sequence
are stored, the sequence itself is not. -/
def burst (eeprom : Eeprom) (writes : List (ℕ × Byte)) : Eeprom :=
  if writes.take 3 = unlock then
    (writes.drop 3).foldl (fun eeprom (address, byte) => Function.update eeprom address byte) eeprom
  else eeprom

end Eeprom

/-- `SafeModeScrubber`, without the references it holds. -/
structure SafeModeScrubber where
  iterationsCount : BitVec 32
  copiesCorrected : BitVec 32
  eepromPagesCorrected : BitVec 32
  inProgress : Bool
deriving DecidableEq

namespace SafeModeScrubber

/-- The bus writes of one page: `area[i] = correctPart[i]` behind the unlocking sequence. -/
def pageWrites (offset : ℕ) (correctPart : List Byte) : List (ℕ × Byte) :=
  [(0x5555, 0xAA), (0x2AAA, 0x55), (0x5555, 0xA0)] ++
    (List.range 64).map fun i => (offset + i, correctPart.getD i 0)

/-- The condition of the waiting loop behind a page. -/
def waiting (eeprom : Eeprom) (offset : ℕ) (correctPart : List Byte) : Bool :=
  eeprom (offset + 63) &&& 0x80 != correctPart.getD 63 0 &&& 0x80

/-- One turn of the loop over the EEPROM. The loop that waits for the page ends when the
device has stored it. -/
def scrubPage (buffer : List Byte) (st : Eeprom × BitVec 32) (i : ℕ) : Eeprom × BitVec 32 :=
  let (eeprom, eepromPagesCorrected) := st
  let offset := i * 64
  let correctPart := (buffer.drop offset).take 64
  if Memory.block eeprom offset 64 = correctPart then (eeprom, eepromPagesCorrected)
  else (eeprom.burst (pageWrites offset correctPart), eepromPagesCorrected + 1)

/-- `GetSafeModeCopy(0)` to `GetSafeModeCopy(4)`. -/
def copies : List FlashCopy := (List.range 5).map safeModeCopy

/-- What `Scrub` works on. -/
structure Memories where
  scrubBuffer : List Byte
  flash : Flash
  eeprom : Eeprom

/-- `SafeModeScrubber::Scrub`: `_scrubBuffer` is the first half of the shared buffer. -/
def scrub (s : SafeModeScrubber) (locked : Bool) (scrubBuffer : ScrubBuffer) (flash : Flash)
    (eeprom : Eeprom) : SafeModeScrubber × Memories :=
  if !locked then (s, ⟨scrubBuffer.bytes, flash, eeprom⟩)
  else
    let corrected := CopyScrubber.scrubCopies copies
      ((⟨scrubBuffer.addr, scrubBuffer.bytes⟩ : Span).subspan 0 32768) flash s.copiesCorrected
    let repaired := (List.range (32768 / 64)).foldl (scrubPage corrected.1)
      (eeprom, s.eepromPagesCorrected)
    ({ s with
        copiesCorrected := corrected.2.2
        eepromPagesCorrected := repaired.2
        inProgress := false },
      ⟨corrected.1 ++ scrubBuffer.bytes.drop 32768, corrected.2.1, repaired.1⟩)

end SafeModeScrubber

end PWSat2OBC
