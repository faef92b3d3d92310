import PWSat2OBC.Lib.Runs
import PWSat2OBC.Spec.PhotoTask
import PWSat2OBC.Spec.SensorExperiments

/-!
# Photos of the sail experiment (`libs/experiments/sail/sail.cpp`)

The experiment hands commands to the photo service, one call after the other; the photo task
executes them in between. `executed` and `saves` record what has been executed and what was
asked to be saved since the last `Start`; the program does not read them.

A wait for the photo service may return at any time here: whether it waits long enough is a
question of the flags of the photo task (`PhotoTask`). The telemetry of the experiment is not
modelled.
-/

namespace PWSat2OBC

/-- `PhotoService::IsEmpty`. -/
def PhotoService.isEmpty (s : PhotoService) (bufferId : Byte) : Bool :=
  if h : bufferId.toNat < PhotoService.buffersCount then
    decide ((s.bufferInfos ⟨bufferId.toNat, h⟩).status = .empty)
  else false

namespace SailExperiment

/-- `ExperimentDuration`, in milliseconds. -/
def experimentDuration : ℤ := 240000

/-- `TakingPhotosPeriod`, in milliseconds. -/
def takingPhotosPeriod : ℤ := 2500

/-- `PhotoResolution`. -/
def p128 : Byte := 0x03
def p480 : Byte := 0x07

/-- A call of the photo service that has still to be made. -/
inductive Call
  | push (command : PhotoCommand)
  | purgePendingCommands
  | waitForFinish
  /-- `SavePhoto`, unless the buffer is empty. -/
  | savePhoto (index : Byte)
deriving DecidableEq

end SailExperiment

open SailExperiment

/-- The experiment, its calls, the queue of the photo service and the service. -/
structure SailExperiment where
  photoNumber : Byte
  nextPhoto : ℤ
  experimentEnd : ℤ
  lastCamera : Camera
  phase : ExperimentPhase
  calls : List SailExperiment.Call
  queue : List PhotoCommand
  service : PhotoService
  executed : List PhotoCommand
  saves : List Byte

namespace SailExperiment

/-- After the construction. -/
def init (service : PhotoService) : SailExperiment where
  photoNumber := 0
  nextPhoto := 0
  experimentEnd := 0
  lastCamera := .nadir
  phase := .idle
  calls := []
  queue := []
  service := service
  executed := []
  saves := []

/-- What happens next. -/
inductive Event
  /-- `Start`: whether there is a sail controller, whether the file, the ADCS and the power line
  are ready, and the reading of the clock. -/
  | start (controller prepared : Bool) (time : Option ℤ)
  | iteration (time : Option ℤ)
  | stop
  /-- The next call of the photo service. -/
  | call
  /-- The photo task executes the next command. -/
  | task (answers : PhotoService.Answers)

/-- `TakePhoto` with a camera and a resolution. -/
def takePhotoWith (s : SailExperiment) (camera : Camera) (resolution : Byte) : SailExperiment :=
  { s with
    calls := s.calls ++ [.push (.takePhoto camera resolution), .push (.downloadPhoto camera s.photoNumber)]
    photoNumber := s.photoNumber + 1 }

/-- `GetNextCamera`. -/
def getNextCamera (s : SailExperiment) : Camera := if s.lastCamera = .wing then .nadir else .wing

/-- `TimeUp`. -/
def timeUp (time : Option ℤ) (next : ℤ) : Bool :=
  match time with
  | none => false
  | some t => decide (next ≤ t)

/-- `NeedToTakePhoto`. -/
def needToTakePhoto (s : SailExperiment) (time : Option ℤ) : Bool := timeUp time s.nextPhoto

/-- `NeedToEnd`. -/
def needToEnd (s : SailExperiment) (time : Option ℤ) : Bool := timeUp time s.experimentEnd

/-- `TakePhoto` at a time. -/
def takePhoto (s : SailExperiment) (time : Option ℤ) : SailExperiment :=
  let camera := s.getNextCamera
  let s := { s with lastCamera := camera }
  let s := s.takePhotoWith camera p128
  match time with
  | none => s
  | some t => { s with nextPhoto := t + takingPhotosPeriod }

/-- `FinalizeExperiment`. -/
def finalizeExperiment (s : SailExperiment) : SailExperiment :=
  let s := { s with calls := s.calls ++ [Call.purgePendingCommands] }
  let s := s.takePhotoWith .wing p480
  let s := s.takePhotoWith .nadir p480
  { s with calls := s.calls ++ [Call.waitForFinish] }

/-- `Iteration`. -/
def iteration (s : SailExperiment) (time : Option ℤ) : IterationResult × SailExperiment :=
  let s := if s.needToTakePhoto time then s.takePhoto time else s
  if s.needToEnd time then (.finished, s.finalizeExperiment) else (.loopImmediately, s)

/-- The calls in `SavePhotos`. -/
def savePhotos (photoNumber : Byte) : List Call :=
  (List.range photoNumber.toNat).map fun index => .savePhoto (BitVec.ofNat 8 index)

/-- The calls in `Stop`. -/
def stopCalls (photoNumber : Byte) : List Call :=
  [.push (.disableCamera .nadir), .push (.disableCamera .wing)] ++ savePhotos photoNumber ++
    [.push .reset, .waitForFinish]

/-- The calls in `Start`. -/
def startCalls : List Call :=
  [.push .reset, .push (.enableCamera .nadir), .push (.enableCamera .wing), .waitForFinish]

/-- `Start`: a failure stops the experiment, except for a missing controller. -/
def start (s : SailExperiment) (controller prepared : Bool) (time : Option ℤ) :
    StartResult × SailExperiment :=
  if ¬ controller then (.failure, s)
  else if ¬ prepared then (.failure, { s with calls := s.calls ++ stopCalls s.photoNumber })
  else
    match time with
    | none => (.failure, { s with calls := s.calls ++ startCalls ++ stopCalls s.photoNumber })
    | some t => (.success, { s with
        calls := s.calls ++ startCalls
        experimentEnd := t + experimentDuration })

/-- `"/sail.photo_%d"`. -/
def photoPath (index : Byte) : List Byte :=
  TakePhoto.fileName [0x2F, 0x73, 0x61, 0x69, 0x6C, 0x2E, 0x70, 0x68, 0x6F, 0x74, 0x6F] index.toNat

/-- `Push`, which waits while the queue is full. -/
def push (s : SailExperiment) (command : PhotoCommand) : Option SailExperiment :=
  if s.queue.length < PhotoTask.capacity then some { s with queue := s.queue ++ [command] } else none

/-- One call of the photo service. -/
def callStep (s : SailExperiment) : Option SailExperiment :=
  match s.calls with
  | [] => none
  | .push command :: rest => { s with calls := rest }.push command
  | .purgePendingCommands :: rest => some { s with calls := rest, queue := [.breakSleep] }
  | .waitForFinish :: rest => some { s with calls := rest }
  | .savePhoto index :: rest =>
    if s.service.isEmpty index then some { s with calls := rest }
    else { s with calls := rest, saves := s.saves ++ [index] }.push (.savePhoto index (photoPath index))

/-- One step. -/
def step (s : SailExperiment) : Event → Option SailExperiment
  | .start controller prepared time =>
    if s.phase = .idle ∧ s.calls = [] then
      let (result, s) := start { s with executed := [], saves := [] } controller prepared time
      some { s with phase := if result = .success then .running else .idle }
    else none
  | .iteration time =>
    if s.phase = .running ∧ s.calls = [] then
      let (result, s) := s.iteration time
      some { s with phase := .after result }
    else none
  | .stop =>
    if s.phase ≠ .idle ∧ s.calls = [] then
      some { s with calls := stopCalls s.photoNumber, phase := .idle }
    else none
  | .call => s.callStep
  | .task answers =>
    match s.queue with
    | [] => none
    | command :: rest =>
      some { s with
        queue := rest
        service := (s.service.invoke answers command).2
        executed := s.executed ++ [command] }

end SailExperiment

end PWSat2OBC
