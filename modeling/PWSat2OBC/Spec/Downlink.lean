import PWSat2OBC.Spec.BitWriter
import PWSat2OBC.Spec.Writer

/-!
# Downlink frames (`libs/telecommunication/downlink.cpp`)

A frame is built in an array of 235 bytes: a header of three bytes with the APID in six bits
and the sequence number in 18, and the payload behind it. `parse` is what the ground makes of
the bytes (`integration_tests/devices/comm.py`).
-/

namespace PWSat2OBC

/-- `devices::comm::MaxDownlinkFrameSize`. -/
def maxDownlinkFrameSize : ℕ := 235

/-- `DownlinkFrame`. -/
structure DownlinkFrame where
  /-- The header part of `_frame`. -/
  header : List Byte
  /-- Over the other part. -/
  payloadWriter : Writer

namespace DownlinkFrame

/-- `HeaderSize`. -/
def headerSize : ℕ := 3

/-- `MaxPayloadSize`. -/
def maxPayloadSize : ℕ := maxDownlinkFrameSize - headerSize

/-- The bit writer of the constructor. -/
def writeHeader (view : List Byte) (apid : Byte) (seq : BitVec 32) : BitWriter :=
  let w := BitWriter.init view
  let w := (w.writeWord (apid.setWidth 16) 6).2
  (w.writeDoubleWord seq 18).2

/-- `DownlinkFrame(apid, seq)`. -/
def init (apid : Byte) (seq : BitVec 32) : DownlinkFrame :=
  let w := writeHeader (List.replicate maxDownlinkFrameSize 0) apid seq
  ⟨w.buffer.take headerSize, Writer.init (w.buffer.drop headerSize)⟩

variable (f : DownlinkFrame)

/-- `Frame`. -/
def frame : List Byte := f.header ++ f.payloadWriter.capture

/-- `PayloadWriter().WriteByte`. -/
def writeByte (byte : Byte) : DownlinkFrame := { f with payloadWriter := (f.payloadWriter.writeByte byte).2 }

/-- `PayloadWriter().WriteDoubleWordLE`. -/
def writeDoubleWordLE (word : BitVec 32) : DownlinkFrame :=
  { f with payloadWriter := (f.payloadWriter.writeDoubleWordLE word).2 }

/-- `PayloadWriter().WriteArray`. -/
def writeArray (buffer : List Byte) : DownlinkFrame :=
  { f with payloadWriter := (f.payloadWriter.writeArray buffer).2 }

end DownlinkFrame

namespace CorrelatedDownlinkFrame

/-- `MaxPayloadSize`. -/
def maxPayloadSize : ℕ := DownlinkFrame.maxPayloadSize - 1

/-- `CorrelatedDownlinkFrame(apid, seq, correlationId)`. -/
def init (apid : Byte) (seq : BitVec 32) (correlationId : Byte) : DownlinkFrame :=
  (DownlinkFrame.init apid seq).writeByte correlationId

end CorrelatedDownlinkFrame

/-- What the ground reads. -/
structure ReceivedFrame where
  apid : ℕ
  seq : ℕ
  payload : List Byte
deriving DecidableEq, Repr

/-- `DownlinkFrame.parse`. -/
def ReceivedFrame.parse (bytes : List Byte) : ReceivedFrame :=
  let num := (bytes.getD 0 0).toNat ||| (bytes.getD 1 0).toNat <<< 8 ||| (bytes.getD 2 0).toNat <<< 16
  ⟨num &&& 0b00111111, num >>> 6, bytes.drop 3⟩

end PWSat2OBC
