import Mathlib.Data.Nat.Digits.Defs
import PWSat2OBC.Spec.PhotoService
import PWSat2OBC.Spec.Telecommands

/-!
# The photo task and its client (`libs/photo/photo_service.cpp`)

Commands wait in a queue for the photo task. Two flags belong to it: the task sets `IdleFlag`
when it finds the queue empty, and a purge ends a `Sleep` with `BreakSleepFlag`. The task and
one client take turns in any order, one operation on the queue or on the flags at a time.

Such a client is the telecommand task with `TakePhoto` and `PurgePhoto`. What a command does
while it is executed is in `PhotoService`.
-/

namespace PWSat2OBC

/-- A call of the photo service. Each command is pushed by the method of its name. -/
inductive PhotoRequest
  | push (command : PhotoCommand)
  | purgePendingCommands
  | waitForFinish
deriving DecidableEq, Repr

namespace PhotoRequest

/-- The size of `SavePhoto::Path`. -/
def pathSize : ℕ := 40

/-- `PhotoService::SavePhoto`: `vsnprintf` cuts the text, to leave room for the zero. -/
def savePhoto (bufferId : Byte) (text : List Byte) : PhotoRequest :=
  .push (.savePhoto bufferId (text.take (pathSize - 1)))

end PhotoRequest

/-! ## Telecommands -/

/-- The cast of a byte to a camera. -/
def Camera.ofByte (value : Byte) : Camera :=
  if value = 0 then .nadir else if value = 1 then .wing else .other value

namespace TakePhoto

/-- `DownlinkAPID::Photo`. -/
def apid : Byte := 0x0E

/-- The digits of a number, as `%d` prints them. -/
def decimal (n : ℕ) : List Byte :=
  if n = 0 then [0x30] else (Nat.digits 10 n).reverse.map fun d => BitVec.ofNat 8 (0x30 + d)

/-- `"%.*s_%d"`. -/
def fileName (path : List Byte) (cx : ℕ) : List Byte := path ++ [0x5F] ++ decimal cx

/-- What is done for each photo. -/
def photoRequests (cameraId : Camera) (resolution : Byte) (path : List Byte) (cx : ℕ) : List PhotoRequest :=
  [.push (.takePhoto cameraId resolution), .push (.downloadPhoto cameraId 0),
    .savePhoto 0 (fileName path cx), .push .reset]

/-- The parameters, as they are read. -/
structure Parameters where
  cameraId : Camera
  resolution : Byte
  count : ℕ
  delay : ℤ
  path : List Byte
deriving DecidableEq, Repr

/-- The calls for accepted parameters. The delay is in seconds. -/
def Parameters.requests (p : Parameters) : List PhotoRequest :=
  [.push .reset, .push (.sleep (p.delay * 1000)), .push (.enableCamera p.cameraId)] ++
    (List.range p.count).flatMap (photoRequests p.cameraId p.resolution p.path) ++
    [.push (.disableCamera p.cameraId), .push .reset]

/-- The correlation id, and the parameters if they are accepted. -/
def read (parameters : List Byte) : Byte × Option Parameters :=
  let (correlationId, r) := (Reader.init parameters).readByte
  let (cameraId, r) := r.readByte
  let (resolution, r) := r.readByte
  let (count, r) := r.readByte
  let (delay, r) := r.readWordLE
  let (path, r) := r.readString 30
  (correlationId,
    if !r.status || path.isEmpty || 30 ≤ count.toNat then none
    else some ⟨.ofByte cameraId, resolution, count.toNat, delay.toNat, path⟩)

/-- `TakePhoto::Handle`: the calls of the photo service, and the response. -/
def handle (parameters : List Byte) : List PhotoRequest × Handled :=
  if parameters.isEmpty then ([], .frame apid [0, 1])
  else
    match read parameters with
    | (correlationId, none) => ([], .frame apid [correlationId, 2])
    | (correlationId, some p) => (p.requests, .frame apid [correlationId, 0])

end TakePhoto

namespace PurgePhoto

/-- `DownlinkAPID::PurgePhoto`. -/
def apid : Byte := 0x12

/-- `PurgePhoto::Handle`: the calls of the photo service, and the response. -/
def handle (parameters : List Byte) : List PhotoRequest × Handled :=
  if parameters.isEmpty then ([], .frame apid [0, 1])
  else
    let (correlationId, r) := (Reader.init parameters).readByte
    if !r.status then ([], .frame apid [correlationId, 2])
    else
      ([.purgePendingCommands, .push (.disableCamera .nadir), .push (.disableCamera .wing), .push .reset],
        .frame apid [correlationId, 0])

end PurgePhoto

/-- A telecommand for the photo service. -/
inductive PhotoTelecommand
  | takePhoto (parameters : List Byte)
  | purgePhoto (parameters : List Byte)
deriving DecidableEq, Repr

/-- The calls it makes. -/
def PhotoTelecommand.requests : PhotoTelecommand → List PhotoRequest
  | takePhoto parameters => (TakePhoto.handle parameters).1
  | purgePhoto parameters => (PurgePhoto.handle parameters).1

/-! ## The task and its client -/

namespace PhotoTask

/-- The capacity of `_commandQueue`. -/
def capacity : ℕ := PhotoService.buffersCount * 4

/-- A command in the queue, with the number of purges that had begun when it was pushed. -/
structure Queued where
  command : PhotoCommand
  purges : ℕ
deriving DecidableEq, Repr

/-- What the photo task does next. -/
inductive TaskPc
  /-- `Pop(command, 0s)`. -/
  | polling
  /-- `Set(IdleFlag)`. -/
  | settingIdle
  /-- `Pop(command, InfiniteTimeout)`. -/
  | blocked
  /-- `Clear(IdleFlag)`. -/
  | clearing (command : Queued)
  /-- `Invoke`. -/
  | invoking (command : Queued)
  /-- In `WaitAny(BreakSleepFlag)`. -/
  | sleeping (command : Queued)
deriving DecidableEq, Repr

/-- What the client does next. -/
inductive ClientPc
  | ready
  /-- `Push`. -/
  | pushing (command : PhotoCommand)
  /-- `Clear(IdleFlag)`, with which pushing and purging end. -/
  | clearing
  /-- `PurgePendingCommands`: `Reset` of the queue, `Push` of a `Break` and `Set(BreakSleepFlag)`. -/
  | resetting
  | pushingBreak
  | settingBreak
  /-- `WaitForFinish`: the call of `WaitAny(IdleFlag)`, and in it. -/
  | checking
  | waiting
deriving DecidableEq, Repr

/-- A `WaitForFinish` that has returned: the commands that were not done then, and the result. -/
structure Waited where
  result : Bool
  pending : List Queued
deriving DecidableEq, Repr

/-- A `Sleep` that was ended by a purge. -/
structure Cut where
  sleep : Queued
  purge : ℕ
deriving DecidableEq, Repr

end PhotoTask

open PhotoTask

/-- The queue, the flags, the photo task and its client. `breakSleepFlag` is the purge that has set
it. -/
structure PhotoTask where
  queue : List Queued
  idleFlag : Bool
  breakSleepFlag : Option ℕ
  task : TaskPc
  client : ClientPc
  requests : List PhotoRequest
  purges : ℕ
  waits : List Waited
  cuts : List Cut
deriving DecidableEq, Repr

/-- What happens next. -/
inductive PhotoEvent
  /-- The client handles a telecommand, or makes any other call. -/
  | telecommand (t : PhotoTelecommand)
  | request (r : PhotoRequest)
  /-- The next operation of the client, or the end of its wait by the timeout. -/
  | client
  | timeout
  /-- The next operation of the task, or the end of its sleep by the timeout. -/
  | task
  | wake
deriving DecidableEq, Repr

namespace PhotoTask

/-- After `Initialize`. -/
def init : PhotoTask where
  queue := []
  idleFlag := false
  breakSleepFlag := none
  task := .polling
  client := .ready
  requests := []
  purges := 0
  waits := []
  cuts := []

/-- The command the task has taken and not done yet. -/
def held : TaskPc → Option Queued
  | .clearing q | .invoking q | .sleeping q => some q
  | _ => none

/-- The commands that are not done yet. -/
def pending (s : PhotoTask) : List Queued := (held s.task).toList ++ s.queue

/-- A call begins. -/
def begin : PhotoRequest → ClientPc
  | .push command => .pushing command
  | .purgePendingCommands => .resetting
  | .waitForFinish => .checking

/-- `WaitForFinish` returns. -/
def returned (s : PhotoTask) (result : Bool) : PhotoTask :=
  { s with client := .ready, waits := s.waits ++ [⟨result, s.pending⟩] }

/-- A sleep is ended by a purge, which clears the flag again. -/
def cutSleep (s : PhotoTask) (sleep : Queued) (purge : ℕ) : PhotoTask :=
  { s with task := .polling, breakSleepFlag := none, cuts := s.cuts ++ [⟨sleep, purge⟩] }

/-- An operation of the client. -/
def clientStep (s : PhotoTask) : Option PhotoTask :=
  match s.client with
  | .ready =>
    match s.requests with
    | [] => none
    | r :: rest => some { s with client := begin r, requests := rest }
  | .pushing command =>
    -- with a full queue the client stays in `Push`
    if s.queue.length < capacity then
      some { s with queue := s.queue ++ [⟨command, s.purges⟩], client := .clearing }
    else none
  | .clearing => some { s with idleFlag := false, client := .ready }
  | .resetting => some { s with queue := [], purges := s.purges + 1, client := .pushingBreak }
  | .pushingBreak =>
    if s.queue.length < capacity then
      some { s with queue := s.queue ++ [⟨.breakSleep, s.purges⟩], client := .settingBreak }
    else none
  | .settingBreak =>
    match s.task with
    | .sleeping q => some { s.cutSleep q s.purges with client := .clearing }
    | _ => some { s with breakSleepFlag := some s.purges, client := .clearing }
  | .checking =>
    if s.idleFlag then some (s.returned true) else some { s with client := .waiting }
  | .waiting => none

/-- An operation of `TaskProc`. -/
def taskStep (s : PhotoTask) : Option PhotoTask :=
  match s.task with
  | .polling =>
    match s.queue with
    | [] => some { s with task := .settingIdle }
    | q :: rest => some { s with queue := rest, task := .clearing q }
  | .settingIdle =>
    let s' := { s with idleFlag := true, task := .blocked }
    -- a client that waits for the flag returns
    if s.client = .waiting then some (s'.returned true) else some s'
  | .blocked =>
    match s.queue with
    | [] => none
    | q :: rest => some { s with queue := rest, task := .clearing q }
  | .clearing q => some { s with idleFlag := false, task := .invoking q }
  | .invoking q =>
    match q.command with
    | .sleep _ =>
      match s.breakSleepFlag with
      | some purge => some (s.cutSleep q purge)
      | none => some { s with task := .sleeping q }
    | .breakSleep => some { s with breakSleepFlag := none, task := .polling }
    | _ => some { s with task := .polling }
  | .sleeping _ => none

/-- One step. -/
def step (s : PhotoTask) : PhotoEvent → Option PhotoTask
  | .telecommand t =>
    if s.client = .ready ∧ s.requests = [] then some { s with requests := t.requests } else none
  | .request r =>
    if s.client = .ready ∧ s.requests = [] then some { s with requests := [r] } else none
  | .client => s.clientStep
  | .timeout => if s.client = .waiting then some (s.returned s.idleFlag) else none
  | .task => s.taskStep
  | .wake =>
    match s.task with
    | .sleeping _ => some { s with task := .polling }
    | _ => none

end PhotoTask

end PWSat2OBC
