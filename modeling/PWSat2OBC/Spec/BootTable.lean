import PWSat2OBC.Spec.ProgramFlash

/-!
# Boot table entries (`libs/drivers/program_flash/boot_table.cpp`, `flash_driver.hpp`)

An entry takes a slot of 512 KB: a header of single fields and the program behind it. All
it does to the flash goes through calls of the driver. What the device answers to a call
is up to the device; a failed call leaves something in the area of the call, where
programming has cleared bits at most. Offsets are `std::size_t`, 32 bits wide.
-/

namespace PWSat2OBC

/-- `program_flash::FlashStatus`. -/
inductive FlashStatus
  | statusUnknown
  | notBusy
  | busy
  | exceededTimeLimits
  | suspend
  | writeBufferAbort
  | statusGetProblem
  | verifyError
  | bytesPerOpWrong
  | eraseError
  | programError
  | sectorLock
  | programSuspend
  | programSuspendError
  | eraseSuspend
  | eraseSuspendError
  | busyInOtherBank
deriving DecidableEq, Repr

/-- `num` of a status. -/
def FlashStatus.num : FlashStatus → Byte
  | statusUnknown => 0
  | notBusy => 1
  | busy => 2
  | exceededTimeLimits => 3
  | suspend => 4
  | writeBufferAbort => 5
  | statusGetProblem => 6
  | verifyError => 7
  | bytesPerOpWrong => 8
  | eraseError => 9
  | programError => 10
  | sectorLock => 11
  | programSuspend => 12
  | programSuspendError => 13
  | eraseSuspend => 14
  | eraseSuspendError => 15
  | busyInOtherBank => 16

/-! ## Flash driver -/

/-- A call of `IFlashDriver`. Programming a single byte is programming a list of one. -/
inductive FlashCall
  | eraseSector (sectorOffset : ℕ)
  | program (offset : ℕ) (value : List Byte)
deriving DecidableEq, Repr

/-- What the device makes of a call: the status and, for a failed call, what it leaves: the
bytes of the sector, or the bits that programming has not cleared. -/
structure FlashAnswer where
  status : FlashStatus
  left : Flash

namespace FlashCall

/-- The first byte and the number of bytes. -/
def area : FlashCall → ℕ × ℕ
  | eraseSector sectorOffset => (sectorOffset, Flash.largeSectorSize)
  | program offset value => (offset, value.length)

variable (call : FlashCall)

/-- Where in the area of the call a byte is. The area wraps around at 4 GB. -/
def index (a : ℕ) : ℕ := (a + 2 ^ 32 - call.area.1) % 2 ^ 32

/-- The call erases or programs the byte. -/
def Touches (a : ℕ) : Prop := a < 2 ^ 32 ∧ call.index a < call.area.2

instance (a : ℕ) : Decidable (call.Touches a) :=
  inferInstanceAs (Decidable (a < 2 ^ 32 ∧ call.index a < call.area.2))

/-- What becomes of a byte in the area of the call. -/
def store (answer : FlashAnswer) (a : ℕ) (old : Byte) : Byte :=
  match call with
  | eraseSector _ => if answer.status = .notBusy then 0xFF else answer.left a
  | program _ value =>
    if answer.status = .notBusy then old &&& value.getD (call.index a) 0 else old &&& answer.left a

/-- The flash after the call. -/
def effect (answer : FlashAnswer) (flash : Flash) : Flash := fun a =>
  if call.Touches a then call.store answer a (flash a) else flash a

end FlashCall

/-- The flash and the calls of its driver so far. -/
structure FlashDriver where
  flash : Flash
  calls : List FlashCall

/-- The answers of the device to the calls of one telecommand, none of which is made
twice. -/
abbrev FlashAnswers := FlashCall → FlashAnswer

/-- The driver makes a call. -/
def FlashDriver.perform (driver : FlashDriver) (answers : FlashAnswers) (call : FlashCall) :
    FlashStatus × FlashDriver :=
  ((answers call).status, ⟨call.effect (answers call) driver.flash, driver.calls ++ [call]⟩)

/-- `FlashSpan`, by its base offset. -/
structure FlashSpan where
  baseOffset : ℕ

namespace FlashSpan

variable (span : FlashSpan)

/-- `FlashSpanAt<Offset>`. -/
def spanAt (offset : ℕ) : FlashSpan := ⟨(span.baseOffset + offset) % 2 ^ 32⟩

/-- `FlashSpan::Erase`. -/
def erase (sectorOffset : ℕ) : FlashCall := .eraseSector ((span.baseOffset + sectorOffset) % 2 ^ 32)

/-- `FlashSpan::Program`. -/
def program (offset : ℕ) (value : List Byte) : FlashCall :=
  .program ((span.baseOffset + offset) % 2 ^ 32) value

end FlashSpan

/-! ## CRC -/

/-- One turn of the loop in `CRC_calc`. -/
def crcStep (crc : BitVec 16) (data : Byte) : BitVec 16 :=
  let crc := (crc >>> 8) ||| (crc <<< 8)
  let crc := crc ^^^ data.setWidth 16
  let crc := crc ^^^ ((crc &&& 0xFF) >>> 4)
  let crc := crc ^^^ (crc <<< 12)
  crc ^^^ ((crc &&& 0xFF) <<< 5)

/-- `CRC_calc`. -/
def crcCalc (buffer : List Byte) : BitVec 16 := buffer.foldl crcStep 0

/-! ## Entries -/

namespace ProgramEntry

/-- `_entrySpan`. -/
def entrySpan (index : Byte) : FlashSpan := ⟨inFlashOffset index⟩

/-- `_length`. -/
def lengthSpan (index : Byte) : FlashSpan := (entrySpan index).spanAt 0

/-- `_crc`. -/
def crcSpan (index : Byte) : FlashSpan := (entrySpan index).spanAt 32

/-- `_isValid`. -/
def isValidSpan (index : Byte) : FlashSpan := (entrySpan index).spanAt 64

/-- `_description`. -/
def descriptionSpan (index : Byte) : FlashSpan := (entrySpan index).spanAt 128

/-- `_program`. -/
def programSpan (index : Byte) : FlashSpan := (entrySpan index).spanAt 1024

section

variable (flash : Flash) (index : Byte)

/-- `ProgramEntry::Length`. -/
def length : BitVec 32 :=
  let o := (lengthSpan index).baseOffset
  Redundancy.loadWord (flash o) (flash (o + 1)) (flash (o + 2)) (flash (o + 3))

/-- `ProgramEntry::Crc`. -/
def crc : BitVec 16 :=
  let o := (crcSpan index).baseOffset
  flash (o + 1) ++ flash o

/-- The CRC over the first bytes of `Content`. The length becomes a signed index of 32 bits;
`none`: it is negative, which ends the program. -/
def contentCrc (length : BitVec 32) : Option (BitVec 16) :=
  if length.toNat < 2 ^ 31 then
    some (crcCalc (flash.span (programSpan index).baseOffset length.toNat).bytes)
  else none

/-- `ProgramEntry::CalculateCrc`. -/
def calculateCrc : Option (BitVec 16) := contentCrc flash index (length flash index)

end

/-! ### Calls -/

variable (index : Byte)

/-- The call in `ProgramEntry::Crc`. -/
def crcCall (crc : BitVec 16) : FlashCall :=
  (crcSpan index).program 0 [crc.extractLsb' 0 8, crc.extractLsb' 8 8]

/-- The call in `ProgramEntry::Length`. -/
def lengthCall (length : BitVec 32) : FlashCall :=
  (lengthSpan index).program 0 (Redundancy.storeWord length)

/-- The call in `ProgramEntry::MarkAsValid`. -/
def markCall : FlashCall := (isValidSpan index).program 0 [0xAA]

/-- The call in `ProgramEntry::WriteContent`. -/
def contentCall (offset : ℕ) (content : List Byte) : FlashCall :=
  (programSpan index).program offset content

/-! ### Operations -/

variable (answers : FlashAnswers)

/-- `ProgramEntry::Crc`. -/
def setCrc (crc : BitVec 16) (driver : FlashDriver) : FlashStatus × FlashDriver :=
  driver.perform answers (crcCall index crc)

/-- `ProgramEntry::Length`. -/
def setLength (length : BitVec 32) (driver : FlashDriver) : FlashStatus × FlashDriver :=
  driver.perform answers (lengthCall index length)

/-- `ProgramEntry::MarkAsValid`. -/
def markAsValid (driver : FlashDriver) : FlashStatus × FlashDriver :=
  driver.perform answers (markCall index)

/-- `ProgramEntry::WriteContent`. -/
def writeContent (offset : ℕ) (content : List Byte) (driver : FlashDriver) :
    FlashStatus × FlashDriver :=
  driver.perform answers (contentCall index offset content)

/-- `ProgramEntry::Erase` from a sector on, with this many left: the status and the offset of the
failure. -/
def eraseFrom : ℕ → ℕ → FlashDriver → Option (FlashStatus × ℕ) × FlashDriver
  | 0, _, driver => (none, driver)
  | left + 1, sectorOffset, driver =>
    let erased := driver.perform answers ((entrySpan index).erase sectorOffset)
    if erased.1 ≠ .notBusy then (some (erased.1, sectorOffset), erased.2)
    else eraseFrom left (sectorOffset + Flash.largeSectorSize) erased.2

/-- `ProgramEntry::Erase`. -/
def erase (driver : FlashDriver) : Option (FlashStatus × ℕ) × FlashDriver :=
  eraseFrom index answers (size / Flash.largeSectorSize) 0 driver

/-- `ProgramEntry::Description` from a character on; `none`: there was no NUL character, and the
next one is read behind the array. -/
def setDescription : List Byte → ℕ → FlashDriver → Option FlashStatus × FlashDriver
  | [], _, driver => (none, driver)
  | c :: cs, offset, driver =>
    let programmed := driver.perform answers ((descriptionSpan index).program offset [c])
    if c = 0 then (some programmed.1, programmed.2)
    else if programmed.1 ≠ .notBusy then (some programmed.1, programmed.2)
    else setDescription cs (offset + 1) programmed.2

end ProgramEntry

end PWSat2OBC
