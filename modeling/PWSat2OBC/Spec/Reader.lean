import PWSat2OBC.Spec.Redundancy

/-!
# Buffer reader (`libs/base/reader.cpp`)

Each operation returns the value read and the reader after it. A reader that ran past
its buffer stays invalid and reads zeros.
-/

namespace PWSat2OBC

/-- `Reader`. `position` is a `uint16_t`. -/
structure Reader where
  buffer : List Byte
  position : ℕ
  isValid : Bool
deriving DecidableEq, Repr

namespace Reader

/-- `Reader(view)`. -/
def init (view : List Byte) : Reader := ⟨view, 0, !view.isEmpty⟩

variable (r : Reader)

/-- `Reader::Status`. -/
def status : Bool := r.isValid

/-- `Reader::UpdateState`. -/
def updateState (requestedSize : ℕ) : Reader :=
  if r.isValid then
    let position := (r.position + requestedSize) % 2 ^ 16
    { r with position, isValid := decide (position ≤ r.buffer.length) }
  else r

/-- The byte at a position of the buffer. -/
def at' (i : ℕ) : Byte := r.buffer.getD i 0

/-- `Reader::ReadByte`. -/
def readByte : Byte × Reader :=
  let r' := r.updateState 1
  (if r'.isValid then r'.at' (r'.position - 1) else 0, r')

/-- `Reader::ReadWordLE`. -/
def readWordLE : BitVec 16 × Reader :=
  let r' := r.updateState 2
  (if r'.isValid then r'.at' (r'.position - 1) ++ r'.at' (r'.position - 2) else 0, r')

/-- `Reader::ReadDoubleWordLE`. -/
def readDoubleWordLE : BitVec 32 × Reader :=
  let r' := r.updateState 4
  (if r'.isValid then
      Redundancy.loadWord (r'.at' (r'.position - 4)) (r'.at' (r'.position - 3))
        (r'.at' (r'.position - 2)) (r'.at' (r'.position - 1))
    else 0, r')

/-- `Reader::ReadDoubleWordBE`. -/
def readDoubleWordBE : BitVec 32 × Reader :=
  let r' := r.updateState 4
  (if r'.isValid then
      Redundancy.loadWord (r'.at' (r'.position - 1)) (r'.at' (r'.position - 2))
        (r'.at' (r'.position - 3)) (r'.at' (r'.position - 4))
    else 0, r')

/-- `Reader::ReadSignedWordLE`. -/
def readSignedWordLE : BitVec 16 × Reader := r.readWordLE

/-- `Reader::ReadQuadWordLE`. -/
def readQuadWordLE : BitVec 64 × Reader :=
  let r' := r.updateState 8
  let b := fun i => r'.at' (r'.position - i)
  (if r'.isValid then b 1 ++ (b 2 ++ (b 3 ++ (b 4 ++ (b 5 ++ (b 6 ++ (b 7 ++ b 8)))))) else 0, r')

/-- `Reader::ReadArray`. -/
def readArray (length : ℕ) : List Byte × Reader :=
  let r' := r.updateState length
  (if r'.isValid then (r'.buffer.drop (r'.position - length)).take length else [], r')

theorem length_readArray_le (length : ℕ) : (r.readArray length).1.length ≤ length := by
  unfold readArray
  dsimp only
  split
  · exact List.length_take_le _ _
  · exact Nat.zero_le _

/-- `Reader::RemainingSize`. -/
def remainingSize : ℤ := r.buffer.length - r.position

/-- `Reader::ReadToEnd`. The size is passed on as a `uint16_t`; `none`: with more than 64 KB
ahead the span would begin before the buffer, which ends the program. -/
def readToEnd : Option (List Byte × Reader) :=
  let length := (r.remainingSize % 2 ^ 16).toNat
  let r' := r.updateState length
  if r'.isValid ∧ r'.position < length then none else some (r.readArray length)

/-- `Reader::ReadString`: the bytes up to a zero byte, the end of the buffer or `maxsize`.
With an invalid reader the code returns bytes from behind the buffer; here the string is
empty then, and the callers reject the frame on `Status`. -/
def readString (maxsize : ℕ) : List Byte × Reader :=
  let s := ((r.buffer.drop r.position).take maxsize).takeWhile (· ≠ 0)
  (s, r.updateState s.length)

end Reader

end PWSat2OBC
