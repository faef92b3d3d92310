import PWSat2OBC.Spec.Redundancy

/-!
# Program flash (`libs/drivers/program_flash`)

The flash as the byte at each offset from its base, and the entries of the boot table
in it. Erasing sets a 64 KB sector to `0xFF`, programming can only clear bits.
-/

namespace PWSat2OBC

/-- Contents of the program flash. -/
abbrev Flash := ℕ → Byte

namespace Flash

/-- `io_map::ProgramFlash::FlashBase`. -/
def flashBase : ℕ := 0x84000000

/-- `IFlashDriver::LargeSectorSize`. -/
def largeSectorSize : ℕ := 65536

variable (flash : Flash)

/-- The bytes mapped at `FlashBase + offset`. -/
def span (offset length : ℕ) : Span :=
  ⟨flashBase + offset, (List.range length).map fun i => flash (offset + i)⟩

/-- `FlashDriver::EraseSector`. -/
def eraseSector (sectorOffset : ℕ) : Flash := fun a =>
  if sectorOffset ≤ a ∧ a < sectorOffset + largeSectorSize then 0xFF else flash a

/-- `FlashDriver::Program`. -/
def program (offset : ℕ) (value : List Byte) : Flash := fun a =>
  if offset ≤ a ∧ a < offset + value.length then flash a &&& value.getD (a - offset) 0 else flash a

end Flash

namespace ProgramEntry

/-- `ProgramEntry::Size`. -/
def size : ℕ := 524288

variable (flash : Flash) (index : Byte)

/-- `ProgramEntry::InFlashOffset`. -/
def inFlashOffset : ℕ := index.toNat * size

/-- `ProgramEntry::WholeEntry`. -/
def wholeEntry : Span := flash.span (inFlashOffset index) size

/-- `ProgramEntry::IsValid`. -/
def isValid : Bool := flash (inFlashOffset index + 64) == 0xAA

end ProgramEntry

/-- `BootloaderCopy` and `SafeModeCopy`: the base offset of the flash span and `Size`. -/
structure FlashCopy where
  offset : ℕ
  size : ℕ
deriving DecidableEq

/-- `BootTable::GetBootloaderCopy`. -/
def bootloaderCopy (index : ℕ) : FlashCopy := ⟨3 * 2 ^ 20 + 65536 * index, 65536⟩

/-- `BootTable::GetSafeModeCopy`. -/
def safeModeCopy (index : ℕ) : FlashCopy := ⟨3 * 2 ^ 20 + 5 * 65536 + 65536 * index, 32768⟩

namespace FlashCopy

variable (copy : FlashCopy) (flash : Flash)

/-- `Content`. -/
def content : Span := flash.span copy.offset copy.size

/-- `Erase`. -/
def erase : Flash := flash.eraseSector (copy.offset + 0)

/-- `Write`. -/
def write (offset : ℕ) (contents : List Byte) : Flash :=
  flash.program (copy.offset + offset) contents

end FlashCopy

namespace BootTable

/-- `EntriesCount`. -/
def entriesCount : ℕ := 6

/-- One turn of the loop below; `j` entries are found already. -/
def selectEntry (mask : Byte) (found : List Byte × ℕ) (i : ℕ) : List Byte × ℕ :=
  let (slots, j) := found
  if j = 3 then (slots, j)
  else if mask.getLsbD i then (slots.set j (BitVec.ofNat 8 i), j + 1)
  else (slots, j)

/-- The loop of `ToSlotNumbers` and `DecodeSlotsMask`: the first three bits set among the
lowest six, zeros where there are fewer. -/
def selectEntries (mask : Byte) : List Byte :=
  ((List.range entriesCount).foldl (selectEntry mask) ([0, 0, 0], 0)).1

end BootTable

end PWSat2OBC
