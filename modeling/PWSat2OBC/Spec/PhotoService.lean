import PWSat2OBC.Lib.Loops
import PWSat2OBC.Lib.Memory
import PWSat2OBC.Spec.ExperimentFile

/-!
# Photos (`libs/drivers/camera`, `libs/obc/camera`, `libs/photo`)

The photo service downloads photos into one memory of 512 KB. `_freeSpace` moves behind each
photo, and `Reset` moves it back to the start. The camera sends a photo in packages; what
comes over its line is an argument.

What the commands do to the service is modelled here; the queue they wait in and the flags
of `Sleep` and `Break` are in `PhotoTask`.
-/

namespace PWSat2OBC

namespace OSResult

/-- `OSResult::IOError`. -/
def ioError : OSResult := .failed 5
/-- `OSResult::DeviceNotFound`. -/
def deviceNotFound : OSResult := .failed 19
/-- `OSResult::InvalidArgument`. -/
def invalidArgument : OSResult := .failed 22
/-- `OSResult::BufferNotAvailable`. -/
def bufferNotAvailable : OSResult := .failed 105
/-- `OSResult::PowerFailure`. -/
def powerFailure : OSResult := .failed 2001

end OSResult

/-- A part of the photo memory. -/
structure PhotoSpan where
  offset : ℕ
  length : ℕ
deriving DecidableEq, Repr

/-- The bytes of the photo memory. -/
abbrev PhotoMemory := ℕ → Byte

namespace CameraDriver

/-- `Camera::PackageSize`. -/
def packageSize : ℕ := 512

/-- One exchange of `SendAckWithResponse`: its result and the bytes that came in. -/
structure PackageAnswer where
  ok : Bool
  received : List Byte
deriving DecidableEq, Repr

/-- What the camera answers during a download: the length of the photo, and the exchanges for
each package. -/
structure PhotoAnswers where
  picture : Option (BitVec 24)
  packages : ℕ → ℕ → PackageAnswer

/-- `SendGetPictureJPEG`, which fails for a photo without data. -/
def sendGetPictureJPEG (picture : Option (BitVec 24)) : Option ℕ :=
  (picture.map BitVec.toNat).filter (0 < ·)

/-- The three tries to get one package. -/
def receivePackage (answers : ℕ → PackageAnswer) (buffer : PhotoSpan) (memory : PhotoMemory) :
    Bool × PhotoMemory :=
  let (r, memory') := Loops.firstSome (fun (m : PhotoMemory) j =>
    (if (answers j).ok then some () else none,
      Memory.overwrite m buffer.offset ((answers j).received.take buffer.length))) (List.range 3) memory
  (r.isSome, memory')

/-- The memory and the two counters of the loop over the packages. -/
structure Received where
  memory : PhotoMemory
  dataIndex : ℕ
  bufferIndex : ℕ

/-- The number of packages, as a `uint8_t`. -/
def packageCnt (totalDataLength : ℕ) : ℕ :=
  (totalDataLength / (packageSize - 6) + (if totalDataLength % (packageSize - 6) ≠ 0 then 1 else 0)) % 256

/-- One turn of the loop over the packages. It ends the loop when the package cannot be had. -/
def packageTurn (answers : ℕ → ℕ → PackageAnswer) (buffer : PhotoSpan) (totalDataLength : ℕ)
    (s : Received) (i : ℕ) : Option Unit × Received :=
  let dataToTake := min (packageSize - 6) (totalDataLength - s.dataIndex)
  let (result, memory) :=
    receivePackage (answers i) ⟨buffer.offset + s.bufferIndex, dataToTake + 6⟩ s.memory
  if result then (none, ⟨memory, s.dataIndex + dataToTake, s.bufferIndex + dataToTake + 6⟩)
  else (some (), { s with memory := memory })

/-- `Camera::CameraReceiveJPEGData`: the part of the buffer that holds the photo. -/
def cameraReceiveJPEGData (answers : PhotoAnswers) (buffer : PhotoSpan) (memory : PhotoMemory) :
    PhotoSpan × PhotoMemory :=
  match sendGetPictureJPEG answers.picture with
  | none => (⟨buffer.offset, 0⟩, memory)
  | some dataLength =>
    let totalDataLength := min dataLength buffer.length
    let count := packageCnt totalDataLength
    if buffer.length < totalDataLength + 6 * count then (⟨buffer.offset, 0⟩, memory)
    else
      let s := (Loops.firstSome (packageTurn answers.packages buffer totalDataLength) (List.range count)
        ⟨memory, 0, 0⟩).2
      (⟨buffer.offset, s.bufferIndex⟩, s.memory)

/-! ### What is asked of the camera -/

/-- One `SendAckWithResponse`: the package, the part of the buffer for it, and the result. -/
structure Request where
  packageId : ℕ
  receiveBuffer : PhotoSpan
  result : Bool
deriving DecidableEq, Repr

/-- The requests in the three tries of `receivePackage`. -/
def packageRequests (answers : ℕ → PackageAnswer) (packageId : ℕ) (buffer : PhotoSpan)
    (memory : PhotoMemory) : List Request :=
  (Loops.firstSome (Loops.logged (fun (m : PhotoMemory) j =>
      (if (answers j).ok then some () else none,
        Memory.overwrite m buffer.offset ((answers j).received.take buffer.length)))
    fun _ j => [⟨packageId, buffer, (answers j).ok⟩]) (List.range 3) (memory, [])).2.2

/-- The requests in one `packageTurn`. -/
def turnRequests (answers : ℕ → ℕ → PackageAnswer) (buffer : PhotoSpan) (totalDataLength : ℕ)
    (s : Received) (i : ℕ) : List Request :=
  let dataToTake := min (packageSize - 6) (totalDataLength - s.dataIndex)
  packageRequests (answers i) i ⟨buffer.offset + s.bufferIndex, dataToTake + 6⟩ s.memory

/-- The requests in `cameraReceiveJPEGData`. -/
def requests (answers : PhotoAnswers) (buffer : PhotoSpan) (memory : PhotoMemory) : List Request :=
  match sendGetPictureJPEG answers.picture with
  | none => []
  | some dataLength =>
    let totalDataLength := min dataLength buffer.length
    let count := packageCnt totalDataLength
    if buffer.length < totalDataLength + 6 * count then []
    else
      (Loops.firstSome (Loops.logged (packageTurn answers.packages buffer totalDataLength)
        (turnRequests answers.packages buffer totalDataLength)) (List.range count)
        (⟨memory, 0, 0⟩, [])).2.2

/-- `OBCCamera::DownloadPhoto`. -/
def downloadPhoto (answers : PhotoAnswers) (buffer : PhotoSpan) (memory : PhotoMemory) :
    Except OSResult PhotoSpan × PhotoMemory :=
  let (photo, memory) := cameraReceiveJPEGData answers buffer memory
  if photo.length ≠ 0 then (.ok photo, memory) else (.error .deviceNotFound, memory)

end CameraDriver

/-- `services::photo::Camera`. A telecommand casts any byte to it. -/
inductive Camera
  | nadir
  | wing
  | other (value : Byte)
deriving DecidableEq, Repr

/-- `SyncResult`. -/
structure SyncResult where
  successful : Bool
  retryCount : ℕ
deriving DecidableEq, Repr

/-- `PossibleCommand`. -/
inductive PhotoCommand
  | disableCamera (which : Camera)
  | enableCamera (which : Camera)
  | takePhoto (which : Camera) (resolution : Byte)
  | downloadPhoto (which : Camera) (bufferId : Byte)
  | savePhoto (bufferId : Byte) (path : List Byte)
  | reset
  | sleep (duration : ℤ)
  | breakSleep
deriving DecidableEq, Repr

/-- `BufferStatus`. -/
inductive BufferStatus
  | empty
  | downloading
  | occupied
  | failed
deriving DecidableEq, Repr

/-- `BufferInfo`. -/
structure BufferInfo where
  status : BufferStatus
  buffer : PhotoSpan
deriving DecidableEq, Repr

namespace PhotoService

/-- `PhotoService::BuffersCount`. -/
def buffersCount : ℕ := 100

/-- The size of `PhotoBuffer`. -/
def photoBufferSize : ℕ := 512 * 1024

/-- A file that was opened by `SavePhoto`, and what was written to it. -/
structure SavedFile where
  path : List Byte
  content : List Byte
deriving DecidableEq, Repr

/-- A download: the buffer it was for, the part of the memory that was handed to the camera, and
the photo with its bytes if there was one. -/
structure Download where
  bufferId : Fin buffersCount
  given : PhotoSpan
  photo : Option (PhotoSpan × List Byte)
deriving DecidableEq, Repr

/-- What happens outside while a command is executed: the answers of the power switches, of the
camera and of the file system, each in the order of the calls. -/
structure Answers where
  power : ℕ → Bool
  sync : ℕ → SyncResult
  taken : ℕ → Bool
  downloads : ℕ → CameraDriver.PhotoAnswers
  opened : Bool

end PhotoService

open PhotoService

/-- The photo service. `downloads` are those since the last `Reset`, `files` the files that were
saved. -/
structure PhotoService where
  memory : PhotoMemory
  freeSpace : ℕ
  bufferInfos : Fin buffersCount → BufferInfo
  selected : Camera
  lastNadirSyncResult : SyncResult
  lastWingSyncResult : SyncResult
  downloads : List Download
  files : List SavedFile

namespace PhotoService

/-- `BufferInfo::BufferInfo`. -/
def noBuffer : BufferInfo := ⟨.empty, ⟨0, 0⟩⟩

/-- The service after its construction, with any contents of the memory. -/
def init (memory : PhotoMemory) (selected : Camera) : PhotoService where
  memory := memory
  freeSpace := 0
  bufferInfos := fun _ => noBuffer
  selected := selected
  lastNadirSyncResult := ⟨false, 0⟩
  lastWingSyncResult := ⟨false, 0⟩
  downloads := []
  files := []

/-- `OBCCamera::Select`. -/
def select (s : PhotoService) : Camera → PhotoService
  | .nadir => { s with selected := .nadir }
  | .wing => { s with selected := .wing }
  | .other _ => s

/-- The answer of the power switch, for a camera that has one. -/
def switched (powered : Bool) : Camera → Bool
  | .other _ => false
  | _ => powered

/-- `Invoke(DisableCamera)`. -/
def disableCamera (powered : Bool) (which : Camera) : OSResult :=
  if switched powered which then .success else .ioError

/-- The result of the last synchronization is kept. -/
def setSyncResult (s : PhotoService) (syncResult : SyncResult) : Camera → PhotoService
  | .nadir => { s with lastNadirSyncResult := syncResult }
  | .wing => { s with lastWingSyncResult := syncResult }
  | .other _ => s

/-- `Invoke(EnableCamera)`. -/
def enableCamera (powered : Bool) (syncResult : SyncResult) (s : PhotoService) (which : Camera) :
    OSResult × PhotoService :=
  if switched powered which then
    (if syncResult.successful then .success else .deviceNotFound,
      (s.select which).setSyncResult syncResult which)
  else (.powerFailure, s)

/-- One turn of the loop in `Invoke(TakePhoto)`: after a failure the camera is switched off and
on again. -/
def takeTurn (answers : Answers) (which : Camera) (s : PhotoService) (i : ℕ) :
    Option OSResult × PhotoService :=
  if answers.taken i then (some .success, s)
  else (none, (enableCamera (answers.power (2 * i + 1)) (answers.sync i) s which).2)

/-- `Invoke(TakePhoto)`. -/
def takePhoto (answers : Answers) (s : PhotoService) (which : Camera) : OSResult × PhotoService :=
  let (r, s) := Loops.firstSome (takeTurn answers which) (List.range 3) (s.select which)
  (r.getD .deviceNotFound, s)

/-- The last result of the camera and the memory. -/
structure DownloadState where
  result : Except OSResult PhotoSpan
  memory : PhotoMemory

/-- One turn of the loop in `Invoke(DownloadPhoto)`. -/
def downloadTurn (answers : ℕ → CameraDriver.PhotoAnswers) (buffer : PhotoSpan) (s : DownloadState)
    (i : ℕ) : Option Unit × DownloadState :=
  let (r, memory) := CameraDriver.downloadPhoto (answers i) buffer s.memory
  (r.toOption.map fun _ => (), ⟨r, memory⟩)

/-- The part of the memory from `_freeSpace` on. -/
def freeSpan (s : PhotoService) : PhotoSpan := ⟨s.freeSpace, photoBufferSize - s.freeSpace⟩

/-- `Invoke(DownloadPhoto)`. Meanwhile the buffer is marked `Downloading`, which only other tasks
can see. -/
def downloadPhoto (answers : ℕ → CameraDriver.PhotoAnswers) (s : PhotoService) (which : Camera)
    (bufferId : Byte) : OSResult × PhotoService :=
  if h : bufferId.toNat < buffersCount then
    let s := s.select which
    let id : Fin buffersCount := ⟨bufferId.toNat, h⟩
    let r := (Loops.firstSome (downloadTurn answers s.freeSpan) (List.range 3)
      ⟨.error .deviceNotFound, s.memory⟩).2
    match r.result with
    | .ok photo =>
      (.success, { s with
        memory := r.memory
        bufferInfos := Function.update s.bufferInfos id ⟨.occupied, photo⟩
        freeSpace := s.freeSpace + photo.length
        downloads := s.downloads ++
          [⟨id, s.freeSpan, some (photo, Memory.block r.memory photo.offset photo.length)⟩] })
    | .error e =>
      (e, { s with
        memory := r.memory
        bufferInfos := Function.update s.bufferInfos id ⟨.failed, ⟨0, 0⟩⟩
        downloads := s.downloads ++ [⟨id, s.freeSpan, none⟩] })
  else (.invalidArgument, s)

/-- `Invoke(Reset)`. -/
def reset (s : PhotoService) : PhotoService :=
  { s with freeSpace := 0, bufferInfos := fun _ => noBuffer, downloads := [] }

/-- The markers in the files of buffers without a photo, each with its terminating zero. -/
def emptyMarker : List Byte := [0x45, 0x6D, 0x70, 0x74, 0x79, 0]
def failedMarker : List Byte := [0x46, 0x61, 0x69, 0x6C, 0x65, 0x64, 0]

/-- What `SavePhoto` writes to a file it has opened, and its result. -/
def photoContent (s : PhotoService) (bufferId : Byte) : OSResult × List Byte :=
  if h : bufferId.toNat < buffersCount then
    let info := s.bufferInfos ⟨bufferId.toNat, h⟩
    match info.status with
    | .empty => (.bufferNotAvailable, emptyMarker)
    | .failed => (.bufferNotAvailable, failedMarker)
    | _ => (.success, Memory.block s.memory info.buffer.offset info.buffer.length)
  else (.invalidArgument, [])

/-- `Invoke(SavePhoto)`. The result of the write is not looked at. -/
def savePhoto (opened : Bool) (s : PhotoService) (bufferId : Byte) (path : List Byte) :
    OSResult × PhotoService :=
  if opened then
    let (r, content) := s.photoContent bufferId
    (r, { s with files := s.files ++ [⟨path, content⟩] })
  else (.ioError, s)

/-- `Invoke`. -/
def invoke (answers : Answers) (s : PhotoService) : PhotoCommand → OSResult × PhotoService
  | .disableCamera which => (disableCamera (answers.power 0) which, s)
  | .enableCamera which => enableCamera (answers.power 0) (answers.sync 0) s which
  | .takePhoto which _ => takePhoto answers s which
  | .downloadPhoto which bufferId => downloadPhoto answers.downloads s which bufferId
  | .savePhoto bufferId path => savePhoto answers.opened s bufferId path
  | .reset => (.success, s.reset)
  | .sleep _ => (.success, s)
  | .breakSleep => (.success, s)

/-- The task executes commands, one after the other. -/
def invokeAll (s : PhotoService) (commands : List (PhotoCommand × Answers)) : PhotoService :=
  commands.foldl (fun s c => (invoke c.2 s c.1).2) s

end PhotoService

end PWSat2OBC
