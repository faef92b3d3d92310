import PWSat2OBC.Lib.Endian
import PWSat2OBC.Lib.Runs
import PWSat2OBC.Spec.Writer

/-!
# Any sequence of writes (`libs/base/writer.cpp`)

The operations of `Writer` that no module before needed, all of them as one type, and what
a user of a writer can see: each operation that was asked for, and whether an earlier one
failed.
-/

namespace PWSat2OBC

namespace Writer

variable (w : Writer)

/-- `Writer::WriteWordBE`. -/
def writeWordBE (word : BitVec 16) : Bool × Writer :=
  w.write [word.extractLsb' 8 8, word.extractLsb' 0 8]

/-- `Writer::WriteSignedDoubleWordLE`. -/
def writeSignedDoubleWordLE (dword : BitVec 32) : Bool × Writer := w.writeDoubleWordLE dword

/-- The loop of `WriteLowerBytesBE`, with `bytesCount` bytes to go. -/
def storeLowerBytes (number : BitVec 32) : (bytesCount : ℕ) → Writer → Writer
  | 0, w => w
  | i + 1, w => storeLowerBytes number i (w.store [number.extractLsb' (8 * i) 8])

/-- `Writer::WriteLowerBytesBE`, for up to four bytes. -/
def writeLowerBytesBE (number : BitVec 32) (bytesCount : ℕ) : Bool × Writer :=
  let w' := w.updateState bytesCount
  if w'.isValid then (true, storeLowerBytes number bytesCount w') else (false, w')

/-- `Writer::WriteByteBCD`. -/
def writeByteBCD (value : Byte) : Bool × Writer :=
  let a := value.toNat % 10
  let b := value.toNat / 10
  w.writeByte (BitVec.ofNat 8 (b <<< 4 ||| a))

end Writer

/-- What can be asked of a writer. -/
inductive WriterOp
  | writeByte (byte : Byte)
  | writeByteBCD (value : Byte)
  | writeWordLE (word : BitVec 16)
  | writeWordBE (word : BitVec 16)
  | writeSignedWordLE (word : BitVec 16)
  | writeDoubleWordLE (word : BitVec 32)
  | writeSignedDoubleWordLE (dword : BitVec 32)
  | writeQuadWordLE (word : BitVec 64)
  | writeLowerBytesBE (number : BitVec 32) (bytesCount : Fin 5)
  | writeArray (buffer : List Byte)
  | fill (value : Byte)
  | reserve (count : ℕ)
deriving DecidableEq, Repr

namespace WriterOp

/-- Whether the operation succeeded, and the writer after it. `Reserve` has no result of its
own, its success is what `Status` says then. -/
def perform (w : Writer) : WriterOp → Bool × Writer
  | writeByte byte => w.writeByte byte
  | writeByteBCD value => w.writeByteBCD value
  | writeWordLE word => w.writeWordLE word
  | writeWordBE word => w.writeWordBE word
  | writeSignedWordLE word => w.writeSignedWordLE word
  | writeDoubleWordLE word => w.writeDoubleWordLE word
  | writeSignedDoubleWordLE dword => w.writeSignedDoubleWordLE dword
  | writeQuadWordLE word => w.writeQuadWordLE word
  | writeLowerBytesBE number bytesCount => w.writeLowerBytesBE number bytesCount
  | writeArray buffer => w.writeArray buffer
  | fill value => w.fill value
  | reserve count => ((w.reserve count).2.status, (w.reserve count).2)

/-- The span handed out: where it begins and its size. -/
def reserved (w : Writer) : WriterOp → ℕ × ℕ
  | reserve count => (w.reserve count).1
  | _ => (w.position, 0)

/-- The bytes that stand for what is to be written. In a reserved span these are the bytes
found there. -/
def encoding (w : Writer) : WriterOp → List Byte
  | writeByte byte => [byte]
  | writeByteBCD value => [BitVec.ofNat 8 (16 * (value.toNat / 10) + value.toNat % 10)]
  | writeWordLE word | writeSignedWordLE word => Endian.little 2 word.toNat
  | writeWordBE word => Endian.big 2 word.toNat
  | writeDoubleWordLE word | writeSignedDoubleWordLE word => Endian.little 4 word.toNat
  | writeQuadWordLE word => Endian.little 8 word.toNat
  | writeLowerBytesBE number bytesCount => Endian.big bytesCount number.toNat
  | writeArray buffer => buffer
  | fill value => List.replicate (w.buffer.length - w.position) value
  | reserve count => (w.buffer.drop w.position).take count

end WriterOp

/-- A writer in use, and whether a write has failed since it began. -/
structure WriterSession where
  writer : Writer
  failed : Bool
deriving DecidableEq, Repr

/-- What happens to a writer. -/
inductive WriterEvent
  | write (op : WriterOp)
  | reset
deriving DecidableEq, Repr

namespace WriterSession

/-- A writer over a buffer. -/
def init (view : List Byte) : WriterSession := ⟨Writer.init view, false⟩

variable (s : WriterSession)

def step : WriterEvent → Option WriterSession
  | .write op =>
    let (success, writer) := op.perform s.writer
    some ⟨writer, s.failed || !success⟩
  | .reset => some ⟨s.writer.reset, false⟩

variable (op : WriterOp)

/-- There is room for the bytes. -/
def Fits : Prop := s.writer.position + (op.encoding s.writer).length ≤ s.writer.buffer.length

instance : Decidable (s.Fits op) := inferInstanceAs (Decidable (_ ≤ _))

/-- **A clean write.** Nothing outside the buffer is touched or handed out, the writer stays inside,
and the bytes are appended if there is room for them and no write failed before; otherwise
nothing changes. A byte stored behind the buffer would make its list longer. -/
structure Clean : Prop where
  untouched : (op.perform s.writer).2.buffer.length = s.writer.buffer.length
  inside : (op.perform s.writer).2.position ≤ s.writer.buffer.length
  behind : (op.perform s.writer).1 = true → (op.perform s.writer).2.buffer.drop (op.perform s.writer).2.position =
    s.writer.buffer.drop (op.perform s.writer).2.position
  reserved : (op.reserved s.writer).1 + (op.reserved s.writer).2 ≤ s.writer.buffer.length
  success : (op.perform s.writer).1 = true ↔ s.failed = false ∧ s.Fits op
  captured : (op.perform s.writer).1 = true →
    (op.perform s.writer).2.capture = s.writer.capture ++ op.encoding s.writer
  unchanged : (op.perform s.writer).1 = false → (op.perform s.writer).2.buffer = s.writer.buffer ∧
    (op.perform s.writer).2.position = s.writer.position ∧ (op.reserved s.writer).2 = 0

/-- **When a write is clean.** With a writer that is valid: if there is room, the write ends below
`2 ^ 16`; if there is none, what the check sees of the size, a `uint8_t`, does not fit either. After
a failed write: nothing is reserved. Over an empty buffer: it is not a write of no bytes. -/
def SafeWrite : Prop :=
  if s.writer.isValid then
    (s.Fits op → s.writer.position + (op.encoding s.writer).length < 2 ^ 16) ∧
      (¬ s.Fits op → s.writer.buffer.length < s.writer.position + (op.encoding s.writer).length % 2 ^ 8)
  else if s.failed then (op.reserved s.writer).2 = 0
  else op.encoding s.writer ≠ []

instance : Decidable (s.SafeWrite op) :=
  inferInstanceAs (Decidable (if _ = true then (_ → _) ∧ (_ → _) else if _ = true then _ = _ else _ ≠ _))

def Safe : WriterEvent → Prop
  | .write op => s.SafeWrite op
  | .reset => True

instance : (e : WriterEvent) → Decidable (s.Safe e)
  | .write op => inferInstanceAs (Decidable (s.SafeWrite op))
  | .reset => isTrue trivial

end WriterSession

end PWSat2OBC
