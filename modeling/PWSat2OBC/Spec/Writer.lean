import PWSat2OBC.Spec.Redundancy

/-!
# Buffer writer (`libs/base/writer.cpp`)

Each operation returns its result and the writer after it. A writer that ran past its
buffer stays invalid and stores nothing more.
-/

namespace PWSat2OBC

/-- `Writer`. `position` is a `uint16_t`. -/
structure Writer where
  buffer : List Byte
  position : ℕ
  isValid : Bool
deriving DecidableEq, Repr

namespace Writer

/-- `Writer(view)`. -/
def init (view : List Byte) : Writer := ⟨view, 0, !view.isEmpty⟩

variable (w : Writer)

/-- `Writer::Reset`. -/
def reset : Writer := ⟨w.buffer, 0, !w.buffer.isEmpty⟩

/-- `Writer::RemainingSize`. -/
def remainingSize : ℤ := w.buffer.length - w.position

/-- `Writer::UpdateState`. The parameter is a `uint8_t`. -/
def updateState (requestedSize : ℕ) : Writer :=
  if w.isValid then
    { w with isValid := decide (w.position + requestedSize % 2 ^ 8 ≤ w.buffer.length) }
  else w

/-- Store bytes at the current position and move behind them. -/
def store (bytes : List Byte) : Writer :=
  { w with
    buffer := w.buffer.take w.position ++ bytes ++ w.buffer.drop (w.position + bytes.length)
    position := (w.position + bytes.length) % 2 ^ 16 }

/-- The common shape of the operations: ask for the room, then store. -/
def write (bytes : List Byte) : Bool × Writer :=
  let w' := w.updateState bytes.length
  if w'.isValid then (true, w'.store bytes) else (false, w')

/-- `Writer::WriteByte`. -/
def writeByte (byte : Byte) : Bool × Writer := w.write [byte]

/-- `Writer::WriteWordLE`. -/
def writeWordLE (word : BitVec 16) : Bool × Writer :=
  w.write [word.extractLsb' 0 8, word.extractLsb' 8 8]

/-- `Writer::WriteSignedWordLE`. -/
def writeSignedWordLE (word : BitVec 16) : Bool × Writer := w.writeWordLE word

/-- `Writer::WriteDoubleWordLE`. -/
def writeDoubleWordLE (word : BitVec 32) : Bool × Writer := w.write (Redundancy.storeWord word)

/-- `Writer::WriteQuadWordLE`. -/
def writeQuadWordLE (word : BitVec 64) : Bool × Writer :=
  w.write ((List.range 8).map fun i => word.extractLsb' (8 * i) 8)

/-- `Writer::WriteArray`. -/
def writeArray (buffer : List Byte) : Bool × Writer := w.write buffer

/-- `Writer::Fill`. -/
def fill (value : Byte) : Bool × Writer := w.write (List.replicate w.remainingSize.toNat value)

/-- `Writer::Reserve`: where the span begins, its size, and the writer behind it. -/
def reserve (count : ℕ) : (ℕ × ℕ) × Writer :=
  let count := min count (w.buffer.length - w.position)
  let w' := w.updateState count
  ((w.position, count), { w' with position := (w'.position + count) % 2 ^ 16 })

/-- Bytes arrive at the beginning of a reserved span. -/
def fillReserved (start : ℕ) (bytes : List Byte) : Writer :=
  { w with buffer := w.buffer.take start ++ bytes ++ w.buffer.drop (start + bytes.length) }

/-- `Writer::Status`. -/
def status : Bool := w.isValid

/-- `Writer::Capture`. -/
def capture : List Byte := w.buffer.take w.position

end Writer

end PWSat2OBC
