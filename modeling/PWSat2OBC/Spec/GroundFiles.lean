import PWSat2OBC.Lib.Reassembly
import PWSat2OBC.Spec.FileTelecommands
import PWSat2OBC.Spec.UploadSoftware
import PWSat2OBC.Spec.Uplink

/-!
# Files from the ground (`integration_tests/scripts/download_file.py`, `integration_tests/telecommand/fs.py`,
`integration_tests/response_frames/common.py`, `integration_tests/response_frames/file_system.py`)

The telecommands for files as the ground packs them, what it makes of the responses, and the script
that downloads a file, with the link between it and the handlers of `Spec/FileTelecommands`: a request
or a frame may be lost or come late, and frames of others are heard in between.

A frame that is of no known type ends the script; here it is passed over.
-/

namespace PWSat2OBC

/-! ## Telecommands -/

/-- `UplinkFrame(apid, content, security_code).build()`. -/
def UplinkFrame.build (securityCode : BitVec 32) (apid : Byte) (content : List Byte) : List Byte :=
  (Redundancy.storeWord securityCode).reverse ++ apid :: content

namespace DownloadFile

/-- `DownloadFile.apid`. -/
def apid : Byte := 0xAB

/-- `DownloadFile.payload`. -/
def payload (correlationId : Byte) (path : List Byte) (seqs : List ℕ) : List Byte :=
  [correlationId, BitVec.ofNat 8 path.length] ++ path ++ [0] ++
    seqs.flatMap fun seq => Redundancy.storeWord (BitVec.ofNat 32 seq)

end DownloadFile

namespace ListFiles

/-- `ListFiles.apid`. -/
def apid : Byte := 0x0F

/-- `ListFiles.payload`. -/
def payload (correlationId : Byte) (path : List Byte) : List Byte := [correlationId] ++ path ++ [0]

end ListFiles

/-! ## Responses -/

/-- `GenericSuccessResponseFrame`: the correlation id and the response of a frame with the APID;
`none` for the other frames. -/
def GenericSuccessResponseFrame.decode (apid : ℕ) (f : ReceivedFrame) : Option (Byte × List Byte) :=
  if f.apid = apid then
    match f.payload with
    | correlationId :: status :: response => if status = 0 then some (correlationId, response) else none
    | _ => none
  else none

/-- `FileSendSuccessFrame`. -/
def FileSendSuccessFrame.decode : ReceivedFrame → Option (Byte × List Byte) :=
  GenericSuccessResponseFrame.decode 0x0B

namespace FileListSuccessFrame

/-- A turn of the loop in `decode`: name, size and the bytes behind them. `none` where there is no
zero byte or no size. -/
def turn (raw : List Byte) : Option ((List Byte × ℕ) × List Byte) :=
  if raw.contains 0 then
    match (raw.dropWhile (· ≠ 0)).drop 1 with
    | b0 :: b1 :: b2 :: b3 :: rest =>
      some ((raw.takeWhile (· ≠ 0), (Redundancy.loadWord b0 b1 b2 b3).toNat), rest)
    | _ => none
  else none

/-- The loop: each turn takes five bytes at least, so as many turns as bytes are enough. -/
def fileList : (fuel : ℕ) → (raw : List Byte) → Option (List (List Byte × ℕ))
  | _, [] => some []
  | 0, _ :: _ => none
  | fuel + 1, raw@(_ :: _) =>
    match turn raw with
    | none => none
    | some (file, raw) => (fileList fuel raw).map (file :: ·)

/-- `FileListSuccessFrame.decode`: the correlation id and `file_list`. -/
def decode (f : ReceivedFrame) : Option (Byte × List (List Byte × ℕ)) :=
  match GenericSuccessResponseFrame.decode 0x0C f with
  | none => none
  | some (correlationId, response) => (fileList response.length response).map (correlationId, ·)

end FileListSuccessFrame

/-! ## The script -/

/-- `i`, `chunks` and the content of `local`. -/
structure DownloadScript where
  next : ℕ
  chunks : List ℕ
  localFile : List Byte
deriving DecidableEq, Repr

namespace DownloadScript

/-- The correlation id. -/
def correlationId : Byte := 0x45

/-- The size of a chunk. -/
def chunkSize : ℕ := 230

/-- `CHUNKS_PER_ITERATION`. -/
def chunksPerIteration : ℕ := 10

/-- `chunks_count`: `int(ceil(length / 230.0))`. -/
def chunksCount (length : ℕ) : ℕ := Chunks.count length chunkSize

/-- Before the loop. -/
def init : DownloadScript := ⟨0, [], []⟩

variable (s : DownloadScript)

/-- `chunks = range(*r)`. -/
def range (count : ℕ) : List ℕ :=
  (List.range (min (s.next + chunksPerIteration) count - s.next)).map (s.next + ·)

/-- The beginning of a turn of the outer loop. -/
def request (count : ℕ) : DownloadScript :=
  { s with next := s.next + chunksPerIteration, chunks := s.range count }

/-- A turn of the inner loop. -/
def receive (part : ReceivedFrame) : DownloadScript :=
  match FileSendSuccessFrame.decode part with
  | none => s
  | some (id, response) =>
    if id ≠ correlationId then s
    else if part.seq ∉ s.chunks then s
    else
      { s with
        chunks := s.chunks.erase part.seq
        localFile := Reassembly.put 0 (part.seq * chunkSize) response s.localFile }

/-- Both loops have ended. -/
def Finished (count : ℕ) : Prop := s.chunks = [] ∧ count ≤ s.next

end DownloadScript

/-! ## The link -/

/-- What a frame from the ground leads to: that of the handler, if one is called. -/
def uplinked {α : Type} (securityCode : BitVec 32) (telecommands : List (HandleTelecommand α)) (content : List Byte) :
    Option α :=
  match UplinkProtocol.decode securityCode content with
  | some (.success commandCode parameters) =>
    IncomingTelecommandHandler.dispatchCommandHandler telecommands commandCode parameters
  | _ => none

/-- The handler for listings, over the directories that the file system has. A path is a C string in
the parameters, from byte 1 on. -/
def listingTelecommands (directories : List Byte → Except Byte (List DirectoryEntry)) :
    List (HandleTelecommand (Option FileResponse)) :=
  [⟨ListFiles.apid, fun parameters =>
    ListFilesTelecommand.handle
      { isDirectory := true, file := none, parts := fun _ => ⟨false, 0, false⟩, unlink := 0,
        directory := directories ((parameters.drop 1).takeWhile (· ≠ 0)) } parameters⟩]

/-- The handler for downloads, over the files that the file system has. A path is a C string in the
parameters, from byte 2 on. -/
def downloadTelecommands (files : List Byte → Option OpenedFile) :
    List (HandleTelecommand (Bool → (ℕ → PartAnswers) → FileResponse)) :=
  [⟨DownloadFile.apid, fun parameters isDirectory parts =>
    DownloadFileTelecommand.handle
      { isDirectory, file := files ((parameters.drop 2).takeWhile (· ≠ 0)), parts, unlink := 0,
        directory := .error 0 } parameters⟩]

/-- The script, the requests it has sent and the frames that have left the satellite. -/
structure DownloadLink where
  script : DownloadScript
  requests : List (List Byte)
  air : List (List Byte)

inductive DownloadLinkEvent
  /-- The script requests the next chunks. -/
  | request
  /-- A request arrives, with what the handler meets. -/
  | handle (request : List Byte) (isDirectory : Bool) (parts : ℕ → PartAnswers)
  /-- The script gets a frame. -/
  | frame (bytes : List Byte)
  /-- There is none for a second, and `get_frame` returns `None`. -/
  | timeout

namespace DownloadLink

variable (securityCode : BitVec 32) (files : List Byte → Option OpenedFile) (path : List Byte) (length : ℕ)

/-- Nothing has been sent. -/
def init : DownloadLink := ⟨DownloadScript.init, [], []⟩

/-- `DownloadFile(0x45, obc_path, chunks).build()`. -/
def requestFrame (chunks : List ℕ) : List Byte :=
  UplinkFrame.build securityCode DownloadFile.apid (DownloadFile.payload DownloadScript.correlationId path chunks)

open DownloadScript in
/-- One event. -/
def step (s : DownloadLink) : DownloadLinkEvent → Option DownloadLink
  | .request =>
    if s.script.chunks = [] ∧ s.script.next < chunksCount length then
      let script := s.script.request (chunksCount length)
      some { s with script, requests := s.requests ++ [requestFrame securityCode path script.chunks] }
    else none
  | .handle request isDirectory parts =>
    if s.requests.contains request then
      match uplinked securityCode (downloadTelecommands files) request with
      | some handle => some { s with air := s.air ++ (handle isDirectory parts).frames }
      | none => some s
    else none
  | .frame bytes =>
    if s.script.chunks = [] then none
    else some { s with script := s.script.receive (ReceivedFrame.parse bytes) }
  | .timeout => if s.script.chunks = [] then none else some s

/-- The operator asks for a file that is there, by a path that leaves room for the chunks in a frame,
and for no more bytes than it has. -/
structure Asked (file : OpenedFile) : Prop where
  found : files path = some file
  noNul : 0 ∉ path
  room : path.length + 3 + 4 * DownloadScript.chunksPerIteration ≤ UploadSoftware.maxPayloadSize
  length : length ≤ file.content.length

/-- A read delivers the bytes that are there. A frame comes from the satellite, or it is not one that
the script takes for a chunk. -/
def Sound (s : DownloadLink) : DownloadLinkEvent → Prop
  | .handle _ _ parts => ∀ i, FileSender.maxFileDataSize ≤ (parts i).delivered
  | .frame bytes => bytes ∈ s.air ∨
    ∀ id response, FileSendSuccessFrame.decode (ReceivedFrame.parse bytes) = some (id, response) →
      id ≠ DownloadScript.correlationId
  | _ => True

end DownloadLink

end PWSat2OBC
