import PWSat2OBC.Lib.Endian
import PWSat2OBC.Lib.Runs
import PWSat2OBC.Spec.Reader

/-!
# Any sequence of reads (`libs/base/reader.cpp`, `libs/base/utils.cpp`)

All operations of `Reader`, with what ends the program: `gsl::span` checks each index and each
part that is asked for (`none`). `ReadString` goes around the span, by the address of the
buffer, so what stands in memory behind the buffer belongs to the model.
-/

namespace PWSat2OBC

/-- What an operation returns: a status, a number, or a span with its beginning in the
buffer and its size. -/
inductive ReaderResult
  | status (valid : Bool)
  | number (value : ℤ)
  | span (start size : ℕ)
deriving DecidableEq, Repr

/-- The result says nothing: zero, or an empty span. -/
def ReaderResult.isEmpty : ReaderResult → Bool
  | status valid => !valid
  | number value => value == 0
  | span _ size => size == 0

/-- Where a buffer lies: the bytes in memory behind it, and whether it has no address. Only an
empty buffer may have none. -/
structure Placement where
  behind : ℕ → Byte
  isNull : Bool

/-- `strlen_n`, with `count` bytes behind it. It looks at a byte before it looks at `maxSize`, so at one more
than it counts. -/
def strlenN (s : ℕ → Byte) : (maxSize count : ℕ) → ℕ
  | 0, count => count
  | maxSize + 1, count => if s count = 0 then count else strlenN s maxSize (count + 1)

namespace SpanReader

variable (r : Reader)

/-- `this->buffer[this->position - i]`. -/
def back (i : ℕ) : Option Byte := if i ≤ r.position then r.buffer[r.position - i]? else none

/-- The common shape of the reads of `n` bytes: the bytes at these distances before the new
position are shifted into the value one after the other. -/
def readNumber (w n : ℕ) (distances : List ℕ) : Option (BitVec w × Reader) :=
  let r' := r.updateState n
  if r'.isValid then do
    let bytes ← distances.mapM (back r')
    some (bytes.foldl (fun value byte => (value <<< 8) + byte.setWidth w) 0#w, r')
  else some (0#w, r')

/-- `Reader::ReadByte`. -/
def readByte : Option (Byte × Reader) := readNumber r 8 1 [1]

/-- `Reader::ReadByteBCD`. -/
def readByteBCD (upperNibbleMask : Byte) : Option (Byte × Reader) :=
  (readByte r).map fun (bcdByte, r') =>
    ((bcdByte &&& upperNibbleMask) >>> 4 * 10#8 + (bcdByte &&& 0x0F#8), r')

/-- `Reader::ReadWordLE`. -/
def readWordLE : Option (BitVec 16 × Reader) := readNumber r 16 2 [1, 2]

/-- `Reader::ReadWordBE`. -/
def readWordBE : Option (BitVec 16 × Reader) := readNumber r 16 2 [2, 1]

/-- `Reader::ReadWordAndHalfLE`. -/
def readWordAndHalfLE : Option (BitVec 32 × Reader) := readNumber r 32 3 [1, 2, 3]

/-- `Reader::ReadWordAndHalfBE`. -/
def readWordAndHalfBE : Option (BitVec 32 × Reader) := readNumber r 32 3 [3, 2, 1]

/-- `Reader::ReadDoubleWordLE`. -/
def readDoubleWordLE : Option (BitVec 32 × Reader) := readNumber r 32 4 [1, 2, 3, 4]

/-- `Reader::ReadDoubleWordBE`. -/
def readDoubleWordBE : Option (BitVec 32 × Reader) := readNumber r 32 4 [4, 3, 2, 1]

/-- `Reader::ReadQuadWordLE`. -/
def readQuadWordLE : Option (BitVec 64 × Reader) := readNumber r 64 8 [1, 2, 3, 4, 5, 6, 7, 8]

/-- `Reader::ReadArray`. -/
def readArray (length : ℕ) : Option ((ℕ × ℕ) × Reader) :=
  let r' := r.updateState length
  if r'.isValid then
    if length ≤ r'.position ∧ r'.position ≤ r'.buffer.length then some ((r'.position - length, length), r')
    else none
  else some ((0, 0), r')

/-- `Reader::ReadToEnd`. The size is passed on as a `uint16_t`. -/
def readToEnd : Option ((ℕ × ℕ) × Reader) := readArray r (r.remainingSize % 2 ^ 16).toNat

/-- The conversion to `std::size_t`. -/
def sizeT (i : ℤ) : ℕ := if 0 ≤ i then i.toNat else (i + 2 ^ 32).toNat

variable (p : Placement)

/-- The memory from the position on. -/
def memory (i : ℕ) : Byte :=
  if r.position + i < r.buffer.length then r.buffer.getD (r.position + i) 0
  else p.behind (r.position + i - r.buffer.length)

/-- There is nothing to look at for `strlen_n`. -/
def noAddress : Bool := p.isNull && r.buffer.isEmpty

/-- `Reader::ReadString`. -/
def readString (maxsize : ℕ) : (ℕ × ℕ) × Reader :=
  let maxsize := max 0 (min maxsize (sizeT r.remainingSize))
  let len := if noAddress r p then 0 else strlenN (memory r p) maxsize 0
  ((r.position, len), r.updateState len)

end SpanReader

/-- What can be asked of a reader. -/
inductive ReaderOp
  | skip (length : BitVec 16)
  | readByte
  | readByteBCD (upperNibbleMask : Byte)
  | readWordLE
  | readSignedWordLE
  | readWordBE
  | readSignedWordBE
  | readWordAndHalfLE
  | readWordAndHalfBE
  | readDoubleWordLE
  | readSignedDoubleWordLE
  | readDoubleWordBE
  | readQuadWordLE
  | readArray (length : BitVec 16)
  | readToEnd
  | readString (maxsize : ℕ)
deriving DecidableEq, Repr

namespace ReaderOp

/-- An unsigned result. -/
def unsigned {w : ℕ} (x : BitVec w × Reader) : ReaderResult × Reader := (.number x.1.toNat, x.2)

/-- A result cast to a signed type. -/
def signed {w : ℕ} (x : BitVec w × Reader) : ReaderResult × Reader := (.number x.1.toInt, x.2)

/-- A span as a result. -/
def spanned (x : (ℕ × ℕ) × Reader) : ReaderResult × Reader := (.span x.1.1 x.1.2, x.2)

/-- What the operation returns, and the reader after it. -/
def perform (p : Placement) (r : Reader) : ReaderOp → Option (ReaderResult × Reader)
  | skip length => some (.status (r.updateState length.toNat).isValid, r.updateState length.toNat)
  | readByte => (SpanReader.readByte r).map unsigned
  | readByteBCD upperNibbleMask => (SpanReader.readByteBCD r upperNibbleMask).map unsigned
  | readWordLE => (SpanReader.readWordLE r).map unsigned
  | readSignedWordLE => (SpanReader.readWordLE r).map signed
  | readWordBE => (SpanReader.readWordBE r).map unsigned
  | readSignedWordBE => (SpanReader.readWordBE r).map signed
  | readWordAndHalfLE => (SpanReader.readWordAndHalfLE r).map unsigned
  | readWordAndHalfBE => (SpanReader.readWordAndHalfBE r).map unsigned
  | readDoubleWordLE => (SpanReader.readDoubleWordLE r).map unsigned
  | readSignedDoubleWordLE => (SpanReader.readDoubleWordLE r).map signed
  | readDoubleWordBE => (SpanReader.readDoubleWordBE r).map unsigned
  | readQuadWordLE => (SpanReader.readQuadWordLE r).map unsigned
  | readArray length => (SpanReader.readArray r length.toNat).map spanned
  | readToEnd => (SpanReader.readToEnd r).map spanned
  | readString maxsize => some (spanned (SpanReader.readString r p maxsize))

/-- The bytes looked at without the checks of the span: where they begin, and their number. -/
def looked (p : Placement) (r : Reader) : ReaderOp → ℕ × ℕ
  | readString maxsize =>
    if SpanReader.noAddress r p then (r.position, 0)
    else (r.position, (SpanReader.readString r p maxsize).1.2 + 1)
  | _ => (0, 0)

/-- The string ahead: up to a zero, the end of the buffer or the limit. -/
def stringAhead (r : Reader) (maxsize : ℕ) : List Byte :=
  ((r.buffer.drop r.position).take maxsize).takeWhile (· ≠ 0)

/-- How many bytes are asked for. -/
def size (r : Reader) : ReaderOp → ℕ
  | skip length => length.toNat
  | readByte | readByteBCD _ => 1
  | readWordLE | readSignedWordLE | readWordBE | readSignedWordBE => 2
  | readWordAndHalfLE | readWordAndHalfBE => 3
  | readDoubleWordLE | readSignedDoubleWordLE | readDoubleWordBE => 4
  | readQuadWordLE => 8
  | readArray length => length.toNat
  | readToEnd => (r.buffer.length - r.position) % 2 ^ 16
  | readString maxsize => (stringAhead r maxsize).length

/-- What the operation returns for the bytes that begin at `start`. -/
def value (start : ℕ) (bytes : List Byte) : ReaderOp → ReaderResult
  | skip _ => .status true
  | readByte | readWordLE | readWordAndHalfLE | readDoubleWordLE | readQuadWordLE =>
    .number (Endian.value bytes)
  | readWordBE | readWordAndHalfBE | readDoubleWordBE => .number (Endian.value bytes.reverse)
  | readSignedWordLE => .number (BitVec.ofNat 16 (Endian.value bytes)).toInt
  | readSignedWordBE => .number (BitVec.ofNat 16 (Endian.value bytes.reverse)).toInt
  | readSignedDoubleWordLE => .number (BitVec.ofNat 32 (Endian.value bytes)).toInt
  | readByteBCD upperNibbleMask =>
    let byte := Endian.value bytes
    .number (((byte &&& upperNibbleMask.toNat) / 16 * 10 + byte % 16 : ℕ) : ℤ)
  | readArray _ | readToEnd | readString _ => .span start bytes.length

def isString : ReaderOp → Bool
  | readString _ => true
  | _ => false

end ReaderOp

/-- A reader in use, and where the last operation ended that succeeded. -/
structure ReaderSession where
  reader : Reader
  ended : ℕ
deriving DecidableEq, Repr

/-- What happens to a reader. -/
inductive ReaderEvent
  | read (op : ReaderOp)
  | reset
deriving DecidableEq, Repr

namespace ReaderSession

/-- A reader over a buffer. -/
def init (view : List Byte) : ReaderSession := ⟨Reader.init view, 0⟩

variable (p : Placement) (s : ReaderSession) (op : ReaderOp)

/-- What is asked for lies ahead of a reader that is valid. -/
def Fits : Prop := s.reader.isValid = true ∧ s.ended + op.size s.reader ≤ s.reader.buffer.length

instance : Decidable (s.Fits op) := inferInstanceAs (Decidable (_ ∧ _))

def step : ReaderEvent → Option ReaderSession
  | .read op => (op.perform p s.reader).map fun (_, reader) =>
      ⟨reader, if s.Fits op then s.ended + op.size s.reader else s.ended⟩
  -- `Reader::Reset`
  | .reset => some ⟨Reader.init s.reader.buffer, 0⟩

/-- The bytes that are asked for. -/
def bytes : List Byte := (s.reader.buffer.drop s.ended).take (op.size s.reader)

/-- What a read is meant to leave: nothing outside the buffer was looked at; if what was asked for
fits, the result is made of the bytes where the last successful operation ended and the reader goes
on behind them; if not, the result is empty and the reader is not valid. -/
structure Clean.Outcome (result : ReaderResult) (r : Reader) : Prop where
  buffer : r.buffer = s.reader.buffer
  looked : (op.looked p s.reader).1 + (op.looked p s.reader).2 ≤ s.reader.buffer.length
  forward : r.isValid = true → s.reader.position ≤ r.position
  success : s.Fits op → r.isValid = true ∧ r.position = s.ended + op.size s.reader ∧
    result = op.value s.ended (s.bytes op)
  failure : ¬ s.Fits op → r.isValid = false ∧ result.isEmpty = true

/-- **A clean read.** -/
def Clean : Prop := ∃ result r, op.perform p s.reader = some (result, r) ∧ Clean.Outcome p s op result r

/-- **When a read is clean.** With a reader that is valid: what is asked for ends below `2 ^ 16`, and
behind a string there is one more byte in the buffer. Strings are only read with a reader that is
valid, or over no buffer at all. -/
def SafeRead : Prop :=
  if s.reader.isValid then
    s.reader.position + op.size s.reader < 2 ^ 16 ∧
      (op.isString = true → s.reader.position + op.size s.reader < s.reader.buffer.length)
  else op.isString = true → SpanReader.noAddress s.reader p = true

instance : Decidable (s.SafeRead p op) :=
  inferInstanceAs (Decidable (if _ = true then _ ∧ (_ → _) else (_ → _)))

def Safe : ReaderEvent → Prop
  | .read op => s.SafeRead p op
  | .reset => True

instance : (e : ReaderEvent) → Decidable (s.Safe p e)
  | .read op => inferInstanceAs (Decidable (s.SafeRead p op))
  | .reset => isTrue trivial

end ReaderSession

end PWSat2OBC
