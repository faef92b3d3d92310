import PWSat2OBC.Spec.BootTable
import PWSat2OBC.Spec.CopyScrubber

/-!
# Loading an application (`boot/boot.cpp`, `libs/external/emlib/Source/em_msc.c`)

`LoadApplicationTMR` votes the programs of three boot slots page by page and writes the
pages to the flash of the MCU, where those that hold the vote already are left alone.
Offsets and addresses are 32 bits wide.

`reads` and `programmed` keep which spans of the program flash were read and which pages
were written. The program does not read them.
-/

namespace PWSat2OBC

/-! ## Flash controller -/

namespace Msc

/-- `FLASH_SIZE`. -/
def flashSize : ℕ := 0x00100000

/-- `MSC_ErasePage`. An address outside the flash is refused. -/
def erasePage (startAddress : ℕ) (mcuFlash : McuFlash) : McuFlash :=
  if startAddress < flashSize then mcuFlash.erase startAddress else mcuFlash

/-- `MSC_WriteWord`. -/
def writeWord (address : ℕ) (data : List Byte) (mcuFlash : McuFlash) : McuFlash :=
  if address < flashSize then mcuFlash.program address data else mcuFlash

end Msc

namespace ApplicationLoad

/-- `BOOT_APPLICATION_BASE`. -/
def applicationBase : ℕ := 0x00080000

/-- `BOOT_APPLICATION_SIZE`. -/
def applicationSize : ℕ := 512 * 1024

/-- `PageSize`. -/
def pageSize : ℕ := 4096

/-- `ProgramBlock`. What the controller answers is not looked at. -/
def programBlock (data : List Byte) (base : ℕ) (mcuFlash : McuFlash) : McuFlash :=
  Msc.writeWord base data (Msc.erasePage base mcuFlash)

/-- `pageBuffer`, which has no initial value. -/
structure PageBuffer where
  addr : ℕ
  bytes : List Byte
  length_bytes : bytes.length = 4096

structure LoadState where
  mcuFlash : McuFlash
  pageBuffer : List Byte
  /-- The offset and the length of each span. -/
  reads : List (ℕ × ℕ)
  /-- The address of each page. -/
  programmed : List ℕ

section

variable (flash : Flash) (slots : List Byte)

/-- The indices of `entries`. -/
def entries : List Byte := [slots.getD 0 0, slots.getD 1 0, slots.getD 2 0]

/-- `length`: the vote on the three lengths. -/
def length : BitVec 32 :=
  Redundancy.correct (ProgramEntry.length flash (slots.getD 0 0))
    (ProgramEntry.length flash (slots.getD 1 0)) (ProgramEntry.length flash (slots.getD 2 0))

/-- `programBases`, as offsets in the program flash. -/
def programBases : List ℕ := (entries slots).map fun entry => (ProgramEntry.programSpan entry).baseOffset

/-- One turn of the loop. -/
def loadPage (bufferAddr offset : ℕ) (s : LoadState) : LoadState :=
  let pageStarts := (programBases slots).map fun base => (base + offset) % 2 ^ 32
  let pageSpans := pageStarts.map fun start => flash.span start pageSize
  let ptr := (applicationBase + offset) % 2 ^ 32
  let pageBuffer := (Redundancy.correctBufferTo ⟨bufferAddr, s.pageBuffer⟩ (pageSpans.getD 0 ⟨0, []⟩)
    (pageSpans.getD 1 ⟨0, []⟩) (pageSpans.getD 2 ⟨0, []⟩)).2
  let internalOk := pageBuffer == Memory.block s.mcuFlash ptr pageSize
  { mcuFlash := if internalOk then s.mcuFlash else programBlock pageBuffer ptr s.mcuFlash
    pageBuffer := pageBuffer
    reads := s.reads ++ pageStarts.map fun start => (start, pageSize)
    programmed := if internalOk then s.programmed else s.programmed ++ [ptr] }

/-- The loop from an offset on; `none`: more than `fuel` pages are left. -/
def loadFrom (bufferAddr : ℕ) : (fuel offset : ℕ) → LoadState → Option LoadState
  | 0, offset, s => if offset < (length flash slots).toNat then none else some s
  | fuel + 1, offset, s =>
    if offset < (length flash slots).toNat then
      loadFrom bufferAddr fuel ((offset + pageSize) % 2 ^ 32) (loadPage flash slots bufferAddr offset s)
    else some s

/-- `LoadApplicationTMR`. -/
def loadApplicationTMR (fuel : ℕ) (pageBuffer : PageBuffer) (mcuFlash : McuFlash) : Option LoadState :=
  loadFrom flash slots pageBuffer.addr fuel 0 ⟨mcuFlash, pageBuffer.bytes, [], []⟩

end

end ApplicationLoad

end PWSat2OBC
