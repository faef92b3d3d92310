import PWSat2OBC.Lib.Bits
import PWSat2OBC.Spec.Redundancy

/-!
# Bit writer (`libs/base/BitWriter.cpp`)

Each operation returns its result and the writer after it. The positions and the sizes are
32-bit numbers.
-/

namespace PWSat2OBC

/-- `BitWriter`. -/
structure BitWriter where
  buffer : List Byte
  /-- Bits used in the last byte. -/
  bitPosition : ℕ
  bytePosition : ℕ
  bitLimit : ℕ
  isValid : Bool
deriving DecidableEq, Repr

/-- A call of one of the operations. -/
inductive BitWrite
  | write8 (value : BitVec 8)
  | write16 (value : BitVec 16)
  | write32 (value : BitVec 32)
  | write64 (value : BitVec 64)
  | writeBool (value : Bool)
  | writeWord (value : BitVec 16) (length : BitVec 8)
  | writeDoubleWord (value : BitVec 32) (length : BitVec 8)
  | writeQuadWord (value : BitVec 64) (length : BitVec 8)
  | writeSpan (buffer : List Byte)
deriving DecidableEq, Repr

/-- `WordMask`. -/
def wordMask : List ℕ :=
  [0x0, 0x1, 0x3, 0x7, 0xf, 0x1f, 0x3f, 0x7f, 0xff, 0x1ff, 0x3ff, 0x7ff, 0xfff, 0x1fff, 0x3fff, 0x7fff,
    0xffff]

/-- `BitsToBytes`. -/
def bitsToBytes (bits : ℕ) : ℕ := (bits + 8 - 1) / 8

namespace BitWriter

/-- `BitWriter(view)`. -/
def init (view : List Byte) : BitWriter :=
  { buffer := view
    bitPosition := 0
    bytePosition := 0
    bitLimit := view.length * 8 % 2 ^ 32
    isValid := decide (0 < view.length) }

variable (w : BitWriter)

/-- `BitWriter::GetBitDataLength`. -/
def getBitDataLength : ℕ := (w.bitPosition + w.bytePosition * 8) % 2 ^ 32

/-- `BitWriter::GetByteDataLength`. -/
def getByteDataLength : ℕ := (bitsToBytes w.bitPosition + w.bytePosition) % 2 ^ 32

/-- `BitWriter::UpdateStatus`. -/
def updateStatus (length lengthLimit : ℕ) : BitWriter :=
  { w with
    isValid := w.isValid && decide (length ≤ lengthLimit) &&
      decide ((w.getBitDataLength + length) % 2 ^ 32 ≤ w.bitLimit) }

/-- Store bytes at an index of the buffer. -/
def storeAt (buffer : List Byte) (index : ℕ) (bytes : List Byte) : List Byte :=
  buffer.take index ++ bytes ++ buffer.drop (index + bytes.length)

/-- The new bits merged with the bits the current byte already holds. -/
def combined (value length old bitPosition : ℕ) : ℕ :=
  ((value &&& wordMask.getD length 0) <<< bitPosition) + (old &&& wordMask.getD bitPosition 0)

/-- The up to three bytes that `combined` takes. -/
def combinedBytes (combined bytes : ℕ) : List Byte :=
  BitVec.ofNat 8 combined ::
    if 1 < bytes then
      BitVec.ofNat 8 (combined >>> 8) ::
        if 2 < bytes then [BitVec.ofNat 8 (combined >>> (2 * 8))] else []
    else []

/-- The private `BitWriter::WriteWord`, at the current byte. -/
def writePart (value length : ℕ) : BitWriter :=
  let old := (w.buffer.getD w.bytePosition 0).toNat
  let bits := length + w.bitPosition
  let bytes := bitsToBytes bits
  { w with
    buffer := storeAt w.buffer w.bytePosition
      (combinedBytes (combined value length old w.bitPosition) bytes)
    bytePosition := (w.bytePosition + bits / 8) % 2 ^ 32
    bitPosition := bits &&& (8 - 1) }

/-- The nested calls of `writePart`, for a type of so many 16-bit parts: the lowest part
first, and no call when no bit is left. -/
def writeParts : ℕ → BitWriter → ℕ → ℕ → BitWriter
  | 0, w, _, _ => w
  | parts + 1, w, value, length =>
    if 0 < length then
      writeParts parts (w.writePart (value % 2 ^ 16) (min length 16)) (value >>> 16) (length - 16)
    else w

/-- The common shape of the operations on words. -/
def writeBits (parts value length : ℕ) : Bool × BitWriter :=
  let w' := w.updateStatus length (16 * parts)
  if w'.isValid then (true, w'.writeParts parts value length) else (false, w')

/-- `BitWriter::WriteWord`. -/
def writeWord (value : BitVec 16) (length : BitVec 8) : Bool × BitWriter :=
  w.writeBits 1 value.toNat length.toNat

/-- `BitWriter::WriteDoubleWord`. -/
def writeDoubleWord (value : BitVec 32) (length : BitVec 8) : Bool × BitWriter :=
  w.writeBits 2 value.toNat length.toNat

/-- `BitWriter::WriteQuadWord`. -/
def writeQuadWord (value : BitVec 64) (length : BitVec 8) : Bool × BitWriter :=
  w.writeBits 4 value.toNat length.toNat

/-- `BitWriter::WriteSpan`. The size in bits is an `int`. -/
def writeSpan (buffer : List Byte) : Bool × BitWriter :=
  let size := buffer.length * 8 % 2 ^ 32
  let w' := w.updateStatus size size
  if w'.isValid then
    if w'.bitPosition = 0 then
      (true, { w' with
        buffer := storeAt w'.buffer w'.bytePosition buffer
        bytePosition := (w'.bytePosition + buffer.length) % 2 ^ 32 })
    else (true, buffer.foldl (fun w byte => w.writePart byte.toNat 8) w')
  else (false, w')

/-- `BitWriter::Capture`. -/
def capture : List Byte := if w.isValid then w.buffer.take w.getByteDataLength else []

/-- The overloads of `BitWriter::Write` and the operations they call. -/
def perform : BitWrite → Bool × BitWriter
  | .write8 value => w.writeWord (value.setWidth 16) 8
  | .write16 value => w.writeWord value 16
  | .write32 value => w.writeDoubleWord value 32
  | .write64 value => w.writeQuadWord value 64
  | .writeBool value => w.writeWord (BitVec.ofBool value |>.setWidth 16) 1
  | .writeWord value length => w.writeWord value length
  | .writeDoubleWord value length => w.writeDoubleWord value length
  | .writeQuadWord value length => w.writeQuadWord value length
  | .writeSpan buffer => w.writeSpan buffer

/-- A sequence of calls, with their results. -/
def performAll : BitWriter → List BitWrite → List Bool × BitWriter
  | w, [] => ([], w)
  | w, op :: ops =>
    let r := w.perform op
    let rest := performAll r.2 ops
    (r.1 :: rest.1, rest.2)

end BitWriter

end PWSat2OBC
