import PWSat2OBC.Spec.Downlink
import PWSat2OBC.Spec.Reader

/-!
# Telecommands for files (`libs/obc/communication/telecommands/file_system.cpp`)

The handlers for download, removal and listing, as the frames they hand to the transmitter and
the calls of the file system that take a path. What the file system and the transmitter answer
is an input. A path is a pointer into the parameters, given by its distance from the first.
-/

namespace PWSat2OBC

/-! ## The file system -/

/-- A file opened for reading. -/
structure OpenedFile where
  content : List Byte
  /-- `FileSize` is an `int32_t`. -/
  small : content.length < 2 ^ 31

namespace OpenedFile

/-- `File::Size`. -/
def size (f : OpenedFile) : BitVec 32 := BitVec.ofNat 32 f.content.length

/-- `File::Seek` from the beginning. A negative offset is refused (`yaffs_lseek`), one behind
the end is not. -/
def seek (answer : Bool) (offset : BitVec 32) : Bool := answer && decide (0 ≤ offset.toInt)

/-- `File::Read` of up to `count` bytes at an offset: a prefix of the bytes that are there, none
where the read fails. -/
def read (f : OpenedFile) (delivered offset count : ℕ) : List Byte :=
  ((f.content.drop offset).take count).take delivered

end OpenedFile

/-- A directory entry: a name, as a C string has it, and the size that `GetFileSize` returns. -/
structure DirectoryEntry where
  name : List Byte
  noNul : 0 ∉ name
  size : BitVec 32

/-- A call that takes a path, with the place of the path. -/
inductive FileCall
  | isDirectory (path : ℕ)
  | open (path : ℕ)
  | unlink (path : ℕ)
  | openDirectory (path : ℕ)
  | getFileSize (path : ℕ) (name : List Byte)
deriving DecidableEq, Repr

/-- The place of the path. -/
def FileCall.path : FileCall → ℕ
  | isDirectory path | .open path | unlink path | openDirectory path | getFileSize path _ => path

/-- What one call of `SendPart` meets: whether the file system can seek, how many bytes it
delivers at most when it reads, and whether the transmitter takes the frame. -/
structure PartAnswers where
  seek : Bool
  delivered : ℕ
  sent : Bool
deriving DecidableEq, Repr

/-- What a handler meets. -/
structure FileAnswers where
  isDirectory : Bool
  /-- The file opened, if that succeeds. -/
  file : Option OpenedFile
  /-- For the parts in the order in which they are asked for. -/
  parts : ℕ → PartAnswers
  /-- The `OSResult` of `Unlink`. -/
  unlink : Byte
  /-- The entries of the directory, or the `OSResult` of `OpenDirectory`. -/
  directory : Except Byte (List DirectoryEntry)

/-- What a handler does. -/
structure FileResponse where
  calls : List FileCall
  frames : List (List Byte)
deriving DecidableEq, Repr

/-- `OSResult::InvalidArgument`. -/
def invalidArgument : Byte := 22

/-! ## Download -/

namespace DownloadFileTelecommand

/-- `ErrorCode`. -/
inductive ErrorCode
  | success
  | fileNotFound
  | malformedRequest
  | invalidPath
  | tooBigSeq
deriving DecidableEq, Repr

/-- The value of the code. -/
def ErrorCode.num : ErrorCode → Byte
  | success => 0x00
  | fileNotFound => 0x01
  | malformedRequest => 0x02
  | invalidPath => 0x03
  | tooBigSeq => 0x04

/-- `DownlinkAPID::FileSend`. -/
def apid : Byte := 0x0B

end DownloadFileTelecommand

/-- `FileSender`, for an open file. -/
structure FileSender where
  file : OpenedFile
  correlationId : Byte

namespace FileSender

/-- `MaxFileDataSize`. -/
def maxFileDataSize : ℕ := DownlinkFrame.maxPayloadSize - 2

/-- `FileSender::MaxChunkNumber`. -/
def maxChunkNumber (fileSize : BitVec 32) : BitVec 32 :=
  (fileSize + BitVec.ofNat 32 maxFileDataSize - 1) / BitVec.ofNat 32 maxFileDataSize

/-- What a call of `SendPart` returns, what it hands to the transmitter, and the bytes that the
file system delivered. -/
structure Part where
  returned : Bool
  frames : List (List Byte)
  delivered : List Byte
deriving DecidableEq, Repr

variable (sender : FileSender)

/-- `_lastSeq`. -/
def lastSeq : BitVec 32 := maxChunkNumber sender.file.size

/-- `FileSender::SendPart`. -/
def sendPart (answers : PartAnswers) (seq : BitVec 32) : Part :=
  if sender.lastSeq < seq then ⟨false, [], []⟩
  else
    let response := CorrelatedDownlinkFrame.init DownloadFileTelecommand.apid seq sender.correlationId
    let offset := seq * BitVec.ofNat 32 maxFileDataSize
    if !OpenedFile.seek answers.seek offset then ⟨false, [], []⟩
    else
      let response := response.writeByte DownloadFileTelecommand.ErrorCode.success.num
      let segmentSize := min maxFileDataSize (sender.file.size - offset).toNat
      let ((start, size), writer) := response.payloadWriter.reserve segmentSize
      let bytes := sender.file.read answers.delivered offset.toNat size
      let response := { response with payloadWriter := writer.fillReserved start bytes }
      ⟨answers.sent, [response.frame], bytes⟩

end FileSender

namespace DownloadFileTelecommand

/-- An error frame. -/
def errorResponse (seq : BitVec 32) (correlationId : Byte) (code : ErrorCode) (rest : List Byte) :
    List Byte :=
  ((CorrelatedDownlinkFrame.init apid seq correlationId).writeByte code.num |>.writeArray rest).frame

/-- The loop of `Handle`. Each turn reads four bytes, so `fuel` turns are enough for as many
bytes, up to the 64 KB that the position of a reader can tell apart. -/
def sendParts (sender : FileSender) (pathSpan : List Byte) (parts : ℕ → PartAnswers) :
    (fuel : ℕ) → Reader → List (List Byte)
  | 0, _ => []
  | fuel + 1, r =>
    let (seq, r) := r.readDoubleWordLE
    if !r.status then []
    else
      let part := sender.sendPart (parts 0) seq
      let error := if !part.returned then [errorResponse seq sender.correlationId .tooBigSeq pathSpan] else []
      part.frames ++ error ++ sendParts sender pathSpan (fun i => parts (i + 1)) fuel r

/-- `DownloadFileTelecommand::Handle`. -/
def handle (answers : FileAnswers) (parameters : List Byte) : FileResponse :=
  let r := Reader.init parameters
  let (correlationId, r) := r.readByte
  let (pathLength, r) := r.readByte
  let path := r.position
  let (pathSpan, r) := r.readArray pathLength.toNat
  let (terminationByte, r) := r.readByte
  if !r.status || terminationByte != 0 then
    ⟨[], [errorResponse 0 correlationId .malformedRequest [0]]⟩
  else if answers.isDirectory then
    ⟨[.isDirectory path], [errorResponse 0 correlationId .invalidPath [0]]⟩
  else
    match answers.file with
    | none =>
      ⟨[.isDirectory path, .open path], [errorResponse 0 correlationId .fileNotFound pathSpan]⟩
    | some file =>
      ⟨[.isDirectory path, .open path],
        sendParts ⟨file, correlationId⟩ pathSpan answers.parts parameters.length r⟩

end DownloadFileTelecommand

/-! ## Removal -/

namespace RemoveFileTelecommand

/-- `DownlinkAPID::FileRemove`. -/
def apid : Byte := 0x0A

/-- `RemoveFileTelecommand::Handle`. -/
def handle (answers : FileAnswers) (parameters : List Byte) : FileResponse :=
  let r := Reader.init parameters
  let (correlationId, r) := r.readByte
  let (pathLength, r) := r.readByte
  let path := r.position
  let (pathSpan, r) := r.readArray pathLength.toNat
  let (terminationByte, r) := r.readByte
  let response := CorrelatedDownlinkFrame.init apid 0 correlationId
  if !r.status || terminationByte != 0 then
    ⟨[], [((response.writeByte invalidArgument).writeByte 0).frame]⟩
  else
    ⟨[.unlink path], [((response.writeByte answers.unlink).writeArray pathSpan).frame]⟩

end RemoveFileTelecommand

/-! ## Listing -/

namespace ListFilesTelecommand

/-- `DownlinkAPID::FileList`. -/
def apid : Byte := 0x0C

/-- `LostFileName`: "[lost]". -/
def lostFileName : List Byte := [0x5B, 0x6C, 0x6F, 0x73, 0x74, 0x5D]

/-- The bound on names. -/
def maxNameLength : ℕ := 90

/-- What `name` points to. -/
inductive NamePointer
  | null
  | lost
  | entry (e : DirectoryEntry)

/-- `ReadDirectory`, with the entries after it. -/
def readDirectory : List DirectoryEntry → NamePointer × List DirectoryEntry
  | [] => (.null, [])
  | e :: entries => (.entry e, entries)

/-- Name, terminator and size. -/
def writeRecord (response : DownlinkFrame) (name : List Byte) (size : BitVec 32) : DownlinkFrame :=
  ((response.writeArray name).writeByte 0).writeDoubleWordLE size

/-- How a turn of the inner loop ends: it is the last one of the frame, or the next name is read. -/
inductive Turn
  | break (moreFiles : Bool) (name : NamePointer)
  | continue (response : DownlinkFrame) (calls : List FileCall)

/-- A turn of the inner loop. -/
def turn (path : ℕ) (response : DownlinkFrame) : NamePointer → Turn
  | .null => .break false .null
  | .lost => .continue (writeRecord response (lostFileName.take maxNameLength) 0) []
  | .entry e =>
    let nameLen := min e.name.length maxNameLength
    -- the byte behind `nameLen` is no terminator
    if nameLen < e.name.length then
      if response.payloadWriter.remainingSize < (lostFileName.length + 5 : ℕ) then .break true .lost
      else .continue (writeRecord response lostFileName 0) []
    else
      if response.payloadWriter.remainingSize < (nameLen + 5 : ℕ) then .break true (.entry e)
      else .continue (writeRecord response (e.name.take nameLen) e.size) [.getFileSize path e.name]

/-- A frame that is filled, and where the listing stands then. -/
structure Filled where
  moreFiles : Bool
  name : NamePointer
  entries : List DirectoryEntry
  response : DownlinkFrame
  calls : List FileCall

/-- The inner loop. -/
def fill (path : ℕ) (name : NamePointer) (response : DownlinkFrame) (calls : List FileCall) :
    List DirectoryEntry → Filled
  | [] =>
    match turn path response name with
    | .break moreFiles name => ⟨moreFiles, name, [], response, calls⟩
    | .continue response more =>
      -- `ReadDirectory` returns `nullptr`, with which the next turn ends the list
      ⟨false, .null, [], response, calls ++ more⟩
  | e :: entries =>
    match turn path response name with
    | .break moreFiles name => ⟨moreFiles, name, e :: entries, response, calls⟩
    | .continue response more => fill path (.entry e) response (calls ++ more) entries

/-- The outer loop, `none` where `fuel` turns are not enough. -/
def sendAll (path : ℕ) (correlationId : Byte) :
    (fuel : ℕ) → (seq : BitVec 32) → NamePointer → List DirectoryEntry → Option FileResponse
  | 0, _, _, _ => none
  | fuel + 1, seq, name, entries =>
    let response := (CorrelatedDownlinkFrame.init apid seq correlationId).writeByte 0
    let filled := fill path name response [] entries
    if filled.moreFiles then
      (sendAll path correlationId fuel (seq + 1) filled.name filled.entries).map fun rest =>
        ⟨filled.calls ++ rest.calls, filled.response.frame :: rest.frames⟩
    else some ⟨filled.calls, [filled.response.frame]⟩

/-- `ListFilesTelecommand::Handle`; `none` where the program ends or loops. -/
def handle (answers : FileAnswers) (parameters : List Byte) : Option FileResponse :=
  let r := Reader.init parameters
  let (correlationId, r) := r.readByte
  let path := r.position
  match r.readToEnd with
  | none => none
  | some (_, r) =>
    if !r.status || parameters.getLastD 0 != 0 then
      some ⟨[], [((CorrelatedDownlinkFrame.init apid 0 correlationId).writeByte invalidArgument).frame]⟩
    else
      match answers.directory with
      | .error status =>
        some ⟨[.openDirectory path], [((CorrelatedDownlinkFrame.init apid 0 correlationId).writeByte status).frame]⟩
      | .ok entries =>
        let (name, rest) := readDirectory entries
        (sendAll path correlationId (entries.length + 2) 0 name rest).map fun response =>
          ⟨.openDirectory path :: response.calls, response.frames⟩

end ListFilesTelecommand

end PWSat2OBC
