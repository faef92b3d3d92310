import PWSat2OBC.Lib.Chunks
import PWSat2OBC.Lib.Packets
import PWSat2OBC.Spec.Writer

/-!
# Experiment files (`libs/experiments/fs/ExperimentFile.cpp`)

Experiment results are collected in packets of 230 bytes, the size of a downlink frame.
`ExperimentFile` is the class with its buffer and the file behind it; `readFile` is the
demultiplexer of `doc/ExperimentFile.md`, which has to be told the length of each block.

The observer set by `SetOnFlush` is left out.
-/

namespace PWSat2OBC

/-- `OSResult`: success or the code of an error. -/
inductive OSResult
  | success
  | failed (code : ℕ)
deriving DecidableEq, Repr

/-- A file opened for writing. `results` is what the file system answers to each write. -/
structure File where
  content : List Byte
  writes : ℕ
  results : ℕ → OSResult
  closed : OSResult

namespace File

/-- `File::Write`. -/
def write (f : File) (buffer : List Byte) : OSResult × File :=
  match f.results f.writes with
  | .success => (.success, { f with content := f.content ++ buffer, writes := f.writes + 1 })
  | .failed code => (.failed code, { f with writes := f.writes + 1 })

/-- `File::Close`. -/
def close (f : File) : OSResult := f.closed

end File

namespace PID

/-- `PID::Timestamp`. -/
def timestamp : Byte := 1
/-- `PID::Synchronization`. -/
def synchronization : Byte := 0x47
/-- `PID::Continuation`. -/
def continuation : Byte := 0xFE
/-- `PID::Padding`. -/
def padding : Byte := 0xFF

/-- The PIDs that have no meaning to the format itself. -/
def Ordinary (pid : Byte) : Prop := pid ≠ timestamp ∧ pid ≠ continuation ∧ pid ≠ padding

instance (pid : Byte) : Decidable (Ordinary pid) := inferInstanceAs (Decidable (_ ∧ _ ∧ _))

end PID

/-- `ExperimentFile`. The writer owns the buffer. `time` is the time provider, if there is
one: it is asked once for each packet begun, and may have no answer. -/
structure ExperimentFile where
  writer : Writer
  file : File
  time : Option (ℕ → Option (BitVec 64))
  begun : ℕ
  hasPayloadInFrame : Bool

namespace ExperimentFile

/-- `PacketLength`. -/
def packetLength : ℕ := 230
/-- `PIDSize`. -/
def pidSize : ℕ := 1
/-- `PaddingData`. -/
def paddingData : Byte := 0xFF

/-- `InitializePacket`. -/
def initializePacket (s : ExperimentFile) : ExperimentFile :=
  let writer := (s.writer.reset.writeByte PID.synchronization).2
  let writer :=
    match s.time with
    | none => writer
    | some getCurrentTime =>
      match getCurrentTime s.begun with
      | none => writer
      | some timestamp => ((writer.writeByte PID.timestamp).2.writeQuadWordLE timestamp).2
  { s with writer, begun := s.begun + 1, hasPayloadInFrame := false }

/-- The constructor and `Open`. -/
def openFile (time : Option (ℕ → Option (BitVec 64))) (file : File) : ExperimentFile :=
  initializePacket
    { writer := Writer.init (List.replicate packetLength 0xAA)
      file, time
      begun := 0
      hasPayloadInFrame := false }

/-- `FillBufferWithPadding`. -/
def fillBufferWithPadding (s : ExperimentFile) : ExperimentFile :=
  if s.writer.remainingSize < 1 then s
  else
    { s with
      writer := ((s.writer.writeByte PID.padding).2.fill paddingData).2
      hasPayloadInFrame := true }

/-- `FlushInternal`. -/
def flushInternal (s : ExperimentFile) (init : Bool) : OSResult × ExperimentFile :=
  let s := s.fillBufferWithPadding
  match s.file.write s.writer.buffer with
  | (.success, file) =>
    let s := { s with file }
    (.success, if init then s.initializePacket else s)
  | (result, file) => (result, { s with file })

/-- `Flush`. -/
def flush (s : ExperimentFile) : OSResult × ExperimentFile := s.flushInternal true

/-- One turn of the loop: the PID and as much of the data as the packet takes. The
subtraction is unsigned. -/
def writeSubpart (s : ExperimentFile) (pid : Byte) (data : List Byte) : ℕ × ExperimentFile :=
  let length := min data.length ((s.writer.remainingSize - pidSize) % 2 ^ 32).toNat
  (length,
    { s with
      writer := ((s.writer.writeByte pid).2.writeArray (data.take length)).2
      hasPayloadInFrame := true })

/-- `WriteDataBiggerThanFrame`, for the data that remain. `none`: the loop took more
turns than `fuel`. -/
def writeDataBiggerThanFrame (pid : Byte) :
    (fuel : ℕ) → (data : List Byte) → ExperimentFile → Option (OSResult × ExperimentFile)
  | 0, _, _ => none
  | fuel + 1, data, s =>
    if data.length > 0 then
      let (length, s) := s.writeSubpart pid data
      if s.writer.remainingSize = 0 then
        match s.flush with
        | (.success, s) =>
          writeDataBiggerThanFrame pid fuel (data.drop length)
            { s with writer := (s.writer.writeByte PID.continuation).2 }
        | (result, s) => some (result, s)
      else writeDataBiggerThanFrame pid fuel (data.drop length) s
    else some (.success, s)

/-- `Write`, which does not look at the result of `WriteDataBiggerThanFrame`. Each turn of the loop
there takes at least one byte of the data, but for the first in a packet with room for one byte
only. -/
def write (s : ExperimentFile) (pid : Byte) (data : List Byte) :
    Option (OSResult × ExperimentFile) :=
  if (data.length + pidSize : ℕ) ≤ s.writer.remainingSize then
    some (.success,
      { s with
        writer := ((s.writer.writeByte pid).2.writeArray data).2
        hasPayloadInFrame := true })
  else if s.hasPayloadInFrame then
    match s.fillBufferWithPadding.flush with
    | (.success, s) => (writeDataBiggerThanFrame pid (data.length + 2) data s).map fun r => (.success, r.2)
    | (result, s) => some (result, s)
  else (writeDataBiggerThanFrame pid (data.length + 2) data s).map fun r => (.success, r.2)

/-- `Close`. -/
def close (s : ExperimentFile) : OSResult × ExperimentFile :=
  if s.hasPayloadInFrame then
    match s.flushInternal false with
    | (.success, s) => (s.file.close, s)
    | (result, s) => (result, s)
  else (s.file.close, s)

/-- A sequence of calls of `Write`, up to the first that fails. -/
def writeAll (s : ExperimentFile) : List (Packets.Block Byte) → Option (OSResult × ExperimentFile)
  | [] => some (.success, s)
  | b :: blocks =>
    match s.write b.pid b.data with
    | some (.success, s) => s.writeAll blocks
    | some (result, s) => some (result, s)
    | none => none

/-! ## Reading (`doc/ExperimentFile.md`) -/

/-- The payload of a packet: behind the Synchronisation Byte and, if there is one, the
Timestamp block. -/
def payload : List Byte → Option (List Byte)
  | [] => none
  | b :: rest =>
    if b = PID.synchronization then
      match rest with
      | [] => some []
      | pid :: data => if pid = PID.timestamp then some (data.drop 8) else some rest
    else none

def marks : Packets.Marks Byte where
  cont := PID.continuation
  pad := PID.padding
  cont_ne_pad := by decide
  strip := payload

/-- **The blocks in a file**, read in packets of 230 bytes. -/
def readFile (lengths : List ℕ) (content : List Byte) : Option (List (Packets.Block Byte)) :=
  Packets.read marks lengths (Chunks.pieces packetLength content)

end ExperimentFile

end PWSat2OBC
