import PWSat2OBC.Spec.Fram
import PWSat2OBC.Spec.Reader
import PWSat2OBC.Spec.Writer

/-!
# Boot settings (`libs/boot_settings/settings.cpp`) and their scrubber

The settings lie in the triple FRAM behind a magic number. They are read into locals of
the getters. The vote of the FRAM driver looks at the addresses of these locals, so the
model carries them: the stack pointer is aligned at every call, which makes the offset
of a local from the next multiple of 4 a constant of the build.
-/

namespace PWSat2OBC

/-- The fields of `BootFields`, in order. -/
inductive BootField
  | magicNumber
  | bootSlots
  | failsafeBootSlots
  | bootCounter
  | lastConfirmedBootCounter
deriving DecidableEq, Repr

namespace BootField

/-- The template arguments of `BootFields`. -/
def all : List BootField :=
  [magicNumber, bootSlots, failsafeBootSlots, bootCounter, lastConfirmedBootCounter]

/-- `sizeof(typename Head::Underlying)`. -/
def size : BootField → ℕ
  | magicNumber => 4
  | bootSlots => 1
  | failsafeBootSlots => 1
  | bootCounter => 4
  | lastConfirmedBootCounter => 4

/-- `Offsets::FindOffset`. -/
def findOffset (f : BootField) (acc : ℕ) : List BootField → ℕ
  | [] => 0xFFFF
  | head :: rest => if f = head then acc else findOffset f (acc + size head) rest

/-- `BootFields::Offset<f>()`. -/
def offset (f : BootField) : Address := BitVec.ofNat 16 (findOffset f 0 all)

end BootField

/-- Where the locals of the functions below are. All but the buffer in
`LastConfirmedBootCounter` are declared `alignas(4)`. -/
structure BootLayout where
  /-- `buf` in `CheckMagicNumber` and `BootCounter`, `r` in `BootSlots` and
  `FailsafeBootSlots`. -/
  buf : Aligned4
  /-- `buf` in `LastConfirmedBootCounter`. -/
  lastConfirmedBuf : ℕ
  /-- The two buffers in `RedundantFM25WDriver::Read`. -/
  redundantBuffer1 : Aligned4
  redundantBuffer2 : Aligned4

/-- `BootSettings`: the FRAM it works on. -/
structure BootSettings where
  layout : BootLayout
  fram : RedundantFm25w

namespace BootSettings

/-- `DefaultBootSlot`. -/
def defaultBootSlot : Byte := 0b111
/-- `DefaultFailsafeBootSlot`. -/
def defaultFailsafeBootSlot : Byte := 0b111000
/-- `DefaultBootCounter`. -/
def defaultBootCounter : BitVec 32 := 0
/-- `SafeModeBootSlot`. -/
def safeModeBootSlot : Byte := 0b01000000
/-- `UpperBootSlot`. -/
def upperBootSlot : Byte := 0b10000000
/-- `BootCounterTop`. -/
def bootCounterTop : BitVec 32 := 0xFFFF
/-- `MagicNumber`. -/
def magicNumber : BitVec 32 := 0x7D53C5D5

variable (s : BootSettings)

/-- `_fram.Read(BootFields::Offset<f>(), ..)` into a local at address `output`. -/
def readField (f : BootField) (output : ℕ) : List Byte :=
  (s.fram.read s.layout.redundantBuffer1 s.layout.redundantBuffer2 f.offset output f.size).1

/-- `_fram.Write(BootFields::Offset<f>(), ..)`. -/
def writeField (f : BootField) (bytes : List Byte) : BootSettings :=
  { s with fram := s.fram.write f.offset bytes }

/-- A double word in a buffer of 4 bytes, as the setters prepare it. -/
def doubleWordBuffer (word : BitVec 32) : List Byte :=
  ((Writer.init (List.replicate 4 0)).writeDoubleWordLE word).2.buffer

/-- `BootSettings::CheckMagicNumber`. -/
def checkMagicNumber : Bool :=
  ((Reader.init (s.readField .magicNumber s.layout.buf.addr)).readDoubleWordLE).1 == magicNumber

/-- `BootSettings::BootSlots()`. -/
def bootSlots : Byte :=
  if s.checkMagicNumber then (s.readField .bootSlots s.layout.buf.addr).headD 0
  else defaultBootSlot

/-- `BootSettings::BootSlots(slots)`. -/
def setBootSlots (slots : Byte) : Bool × BootSettings :=
  let s' := s.writeField .bootSlots [slots]
  (s'.bootSlots == slots, s')

/-- `BootSettings::FailsafeBootSlots()`. -/
def failsafeBootSlots : Byte :=
  if s.checkMagicNumber then (s.readField .failsafeBootSlots s.layout.buf.addr).headD 0
  else defaultFailsafeBootSlot

/-- `BootSettings::FailsafeBootSlots(slots)`. -/
def setFailsafeBootSlots (slots : Byte) : Bool × BootSettings :=
  let s' := s.writeField .failsafeBootSlots [slots]
  (s'.failsafeBootSlots == slots, s')

/-- `BootSettings::BootCounter()`. -/
def bootCounter : BitVec 32 :=
  if s.checkMagicNumber then
    ((Reader.init (s.readField .bootCounter s.layout.buf.addr)).readDoubleWordLE).1
  else defaultBootCounter

/-- `BootSettings::BootCounter(counter)`. -/
def setBootCounter (counter : BitVec 32) : Bool × BootSettings :=
  let s' := s.writeField .bootCounter (doubleWordBuffer counter)
  (s'.bootCounter == counter, s')

/-- `BootSettings::MarkAsValid`. -/
def markAsValid : BootSettings := s.writeField .magicNumber (doubleWordBuffer magicNumber)

/-- `BootSettings::LastConfirmedBootCounter`: does not look at the magic number. -/
def lastConfirmedBootCounter : BitVec 32 :=
  ((Reader.init (s.readField .lastConfirmedBootCounter s.layout.lastConfirmedBuf)).readDoubleWordLE).1

/-- `BootSettings::ConfirmBoot`. -/
def confirmBoot : Bool × BootSettings :=
  let counter := s.bootCounter
  let s' := s.writeField .lastConfirmedBootCounter (doubleWordBuffer counter)
  (s'.lastConfirmedBootCounter == counter, s')

/-- `BootSettings::IsValidBootSlot`. -/
def isValidBootSlot (mask : Byte) : Bool :=
  if mask = upperBootSlot then true
  else if mask = safeModeBootSlot then true
  else
    let selectedSlots := mask &&& 0b00111111
    popcount selectedSlots == 3

end BootSettings

/-! ## Scrubbing (`libs/scrubber/boot_settings.cpp`) -/

namespace BootSettingsScrubber

/-- `BootSettingsSize`. -/
def size : ℕ := 16

/-- `BootSettingsScrubber::Scrub`. `buffer` is the address of its local array, which is not
declared `alignas(4)`, and `locked` tells whether the lock was obtained. -/
def scrub (redundantBuffer1 redundantBuffer2 : Aligned4) (buffer : ℕ) (locked : Bool)
    (fram : RedundantFm25w) : RedundantFm25w :=
  if !locked then fram
  else fram.write 0 (fram.read redundantBuffer1 redundantBuffer2 0 buffer size).1

end BootSettingsScrubber

end PWSat2OBC
