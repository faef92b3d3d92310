import PWSat2OBC.Lib.Memory
import PWSat2OBC.Spec.Downlink
import PWSat2OBC.Spec.Reader

/-!
# Memory dump (`libs/obc/communication/telecommands/memory.cpp`)

The frames that the telecommand hands to the transmitter, for a memory that does not change
meanwhile. Pointers and sizes are words of 32 bits.
-/

namespace PWSat2OBC

namespace ReadMemoryTelecommand

/-- `DownlinkAPID::MemoryContent`. -/
def apid : Byte := 0x21

/-- `DownlinkAPID::Operation`. -/
def operation : Byte := 0x02

/-- `std::min`. -/
def stdMin (a b : BitVec 32) : BitVec 32 := if b < a then b else a

variable (memory : ℕ → Byte) (correlationId : Byte)

/-- `gcc_workaround::ReadByte0`: the memory is read into `result`, which is not what is
returned. -/
def readByte0 : Byte :=
  let _result := memory 0
  0

/-- The variables of the loop. -/
structure Dump where
  size : BitVec 32
  memoryToRead : BitVec 32
  seq : BitVec 32
deriving DecidableEq, Repr

/-- A turn of the loop, with its frame. -/
def turn (s : Dump) : List Byte × Dump :=
  let partSize := stdMin s.size (BitVec.ofNat 32 CorrelatedDownlinkFrame.maxPayloadSize)
  let frame := CorrelatedDownlinkFrame.init apid s.seq correlationId
  let (frame, memoryToRead, partSize, size) :=
    if s.memoryToRead = 0 then
      (frame.writeByte (readByte0 memory), s.memoryToRead + 1, partSize - 1, s.size - 1)
    else (frame, s.memoryToRead, partSize, s.size)
  let part := Memory.block memory memoryToRead.toNat partSize.toNat
  let frame := frame.writeArray part
  (frame.frame, ⟨size - partSize, memoryToRead + partSize, s.seq + 1⟩)

/-- The loop, `none` where `fuel` turns are not enough. -/
def dump : (fuel : ℕ) → Dump → Option (List (List Byte))
  | 0, s => if s.size = 0 then some [] else none
  | fuel + 1, s =>
    if s.size = 0 then some []
    else
      let (frame, s) := turn memory correlationId s
      (dump fuel s).map (frame :: ·)

/-- `ReadMemoryTelecommand::Handle`. A turn dumps at least one byte, so there are not more turns
than bytes. -/
def handle (parameters : List Byte) : Option (List (List Byte)) :=
  let r := Reader.init parameters
  let (correlationId, r) := r.readByte
  let (offset, r) := r.readDoubleWordLE
  let (size, r) := r.readDoubleWordLE
  let size := stdMin size (BitVec.allOnes 32 - offset)
  if !r.status then some [((CorrelatedDownlinkFrame.init operation 0 correlationId).writeByte 1).frame]
  else dump memory correlationId size.toNat ⟨size, offset, 0⟩

end ReadMemoryTelecommand

end PWSat2OBC
