import PWSat2OBC.Spec.ExperimentController
import PWSat2OBC.Spec.ProgramFlash

/-!
# The experiments with parameters (`libs/experiments`)

Each experiment object holds the parameters last set up and its own progress. `step`
performs one operation of `Start` or `Iteration`; its second argument is the answer of
the outside world to that operation (a mission time in milliseconds, any value for
success, `none` for failure or a missing value). Operations without an answer ignore it.
A step that uses a parameter says which, and with what value.
-/

namespace PWSat2OBC

/-- A C string, without its terminator. -/
abbrev FileName := List Byte

/-- What `strsafecpy` leaves in a destination of `n` bytes. -/
def strsafecpy (n : ℕ) (source : FileName) : FileName := (source.takeWhile (· ≠ 0)).take (n - 1)

/-- `SunSExperimentParams`; the delays in seconds and in minutes. -/
structure SunSExperimentParams where
  gain : Byte
  itime : Byte
  samplesCount : Byte
  shortDelay : ℕ
  samplingSessionsCount : Byte
  longDelay : ℕ
deriving DecidableEq

/-- The use of a parameter. -/
inductive Use
  /-- The length of the detumbling run, in seconds. -/
  | duration (seconds : ℕ)
  | sampleRate (seconds : ℕ)
  | sessionsCount (count : Byte)
  | samplesCount (count : Byte)
  /-- Between two samples, in seconds. -/
  | delay (seconds : ℕ)
  | measurement (gain itime : Byte)
  /-- Between two sessions, in minutes. -/
  | longDelay (minutes : ℕ)
  /-- A session is put off until a time computed in the run of request `setBy`. -/
  | sessionAt (setBy : Option ℕ)
  | outputFile (name : FileName)
  | secondaryFile (name : FileName)
  | sources (slots : List Byte)
  | targets (mask : BitVec 6)
deriving DecidableEq

/-- Where an experiment is after a step. -/
inductive Next (Pc : Type)
  | goto (pc : Pc)
  /-- `Start` returns. -/
  | started (result : StartResult)
  /-- `Iteration` returns. -/
  | iterated (result : IterationResult)

/-- The outcome of a step: the object, the next position, and the parameter used. -/
structure Turn (Object Pc : Type) where
  object : Object
  next : Next Pc
  use : Option Use := none

/-! ## Detumbling -/

structure DetumblingExperiment where
  duration : ℕ
  sampleRate : ℕ
  endAt : ℕ

namespace DetumblingExperiment

inductive Pc
  /-- `Open`, `GetCurrentTime`, `SensPower` and `EnableExperimentalDetumbling`. -/
  | start
  | endAt (start : ℕ)
  | iteration
  | sleep
deriving DecidableEq

def step (o : DetumblingExperiment) : Pc → Option ℕ → Turn DetumblingExperiment Pc
  | .start, none => ⟨o, .started .failure, none⟩
  | .start, some start => ⟨o, .goto (.endAt start), none⟩
  | .endAt start, _ =>
    ⟨{ o with endAt := start + o.duration * 1000 }, .started .success, some (.duration o.duration)⟩
  | .iteration, none => ⟨o, .iterated .waitForNextCycle, none⟩
  | .iteration, some now => ⟨o, if o.endAt ≤ now then .iterated .finished else .goto .sleep, none⟩
  | .sleep, _ => ⟨o, .iterated .loopImmediately, some (.sampleRate o.sampleRate)⟩

end DetumblingExperiment

/-! ## Sun sensor -/

structure SunSExperiment where
  parameters : SunSExperimentParams
  primaryFileName : FileName
  secondaryFileName : FileName
  remainingSessions : Byte
  nextSessionAt : ℕ
  /-- The request whose run computed `nextSessionAt`. -/
  nextSessionBy : Option ℕ

namespace SunSExperiment

/-- The suffix `"_sec"`. -/
def secondarySuffix : FileName := [95, 115, 101, 99]

inductive Pc
  | start
  | openPrimary
  | openSecondary
  | iteration
  /-- The head of the loop over the samples. -/
  | samples (i : ℕ)
  | shortDelay (i : ℕ)
  | measure (i : ℕ)
  | sessionEnd
  | nextSession
deriving DecidableEq

/-- A step in the run of `request`. -/
def step (request : ℕ) (o : SunSExperiment) : Pc → Option ℕ → Turn SunSExperiment Pc
  | .start, _ =>
    ⟨{ o with remainingSessions := o.parameters.samplingSessionsCount }, .goto .openPrimary,
      some (.sessionsCount o.parameters.samplingSessionsCount)⟩
  | .openPrimary, r =>
    ⟨o, if r.isNone then .started .failure else .goto .openSecondary,
      some (.outputFile o.primaryFileName)⟩
  | .openSecondary, r =>
    ⟨o, if r.isNone then .started .failure else .started .success,
      some (.secondaryFile o.secondaryFileName)⟩
  | .iteration, none => ⟨o, .iterated .waitForNextCycle, none⟩
  | .iteration, some currentTime =>
    if currentTime < o.nextSessionAt then
      ⟨o, .iterated .waitForNextCycle, some (.sessionAt o.nextSessionBy)⟩
    else ⟨{ o with remainingSessions := o.remainingSessions - 1 }, .goto (.samples 0), none⟩
  | .samples i, _ =>
    ⟨o, .goto (if i < o.parameters.samplesCount.toNat then
          if 0 < i then .shortDelay i else .measure i
        else .sessionEnd),
      some (.samplesCount o.parameters.samplesCount)⟩
  | .shortDelay i, _ => ⟨o, .goto (.measure i), some (.delay o.parameters.shortDelay)⟩
  | .measure i, _ =>
    ⟨o, .goto (.samples (i + 1)), some (.measurement o.parameters.gain o.parameters.itime)⟩
  | .sessionEnd, _ =>
    ⟨o, if o.remainingSessions = 0 then .iterated .finished else .goto .nextSession, none⟩
  | .nextSession, currentTime =>
    -- a missing time counts as 0 here
    ⟨{ o with
        nextSessionAt := currentTime.getD 0 + o.parameters.longDelay * 60000
        nextSessionBy := some request },
      .iterated .waitForNextCycle, some (.longDelay o.parameters.longDelay)⟩

end SunSExperiment

/-! ## RadFET -/

structure RadFETExperiment where
  delay : ℕ
  samplesCount : Byte
  outputFileName : FileName
  samplesCollected : Byte

namespace RadFETExperiment

inductive Pc
  | start
  /-- `SensPower`, `RadFETOn`, `GetCurrentTime` and the first telemetry. -/
  | turnOn
  | delay
  | iteration
  /-- The measurements and saving them. -/
  | measure
  | compare
deriving DecidableEq

def step (o : RadFETExperiment) : Pc → Option ℕ → Turn RadFETExperiment Pc
  | .start, r =>
    ⟨o, if r.isNone then .started .failure else .goto .turnOn, some (.outputFile o.outputFileName)⟩
  | .turnOn, r => ⟨o, if r.isNone then .started .failure else .goto .delay, none⟩
  | .delay, _ => ⟨{ o with samplesCollected := 0 }, .started .success, some (.delay o.delay)⟩
  | .iteration, r =>
    ⟨{ o with samplesCollected := o.samplesCollected + 1 },
      if r.isNone then .iterated .waitForNextCycle else .goto .measure, none⟩
  | .measure, r => ⟨o, if r.isNone then .iterated .failure else .goto .compare, none⟩
  | .compare, _ =>
    ⟨o, .iterated (if o.samplesCollected < o.samplesCount then .waitForNextCycle else .finished),
      some (.samplesCount o.samplesCount)⟩

end RadFETExperiment

/-! ## Payload and camera commissioning -/

/-- What the two commissioning experiments have in common. -/
structure CommissioningExperiment where
  fileName : FileName
  currentStep : Byte

namespace CommissioningExperiment

inductive Pc
  | start
  | iteration
  /-- The loop over the photos in `CameraExperimentController::PerformPhotoTest`. -/
  | savePhoto (i : ℕ)
deriving DecidableEq

/-- Both experiments; `dispatch` is the `switch` in `Iteration`. -/
def step (dispatch : Byte → Next Pc) (o : CommissioningExperiment) :
    Pc → Option ℕ → Turn CommissioningExperiment Pc
  | .start, none => ⟨o, .started .failure, some (.outputFile o.fileName)⟩
  | .start, some _ =>
    ⟨{ o with currentStep := 0 }, .started .success, some (.outputFile o.fileName)⟩
  | .iteration, _ =>
    ⟨{ o with currentStep := o.currentStep + 1 }, dispatch (o.currentStep + 1), none⟩
  | .savePhoto i, r =>
    -- the answer is the photo, or nothing if the buffer is empty
    if i < 6 then ⟨o, .goto (.savePhoto (i + 1)), r.map fun _ => .outputFile o.fileName⟩
    else ⟨o, .iterated .loopImmediately, none⟩

end CommissioningExperiment

namespace PayloadCommissioningExperiment

def dispatch (currentStep : Byte) : Next CommissioningExperiment.Pc :=
  if currentStep = 1 ∨ currentStep = 2 ∨ currentStep = 3 then .iterated .loopImmediately
  else if currentStep = 4 then .goto (.savePhoto 0)
  else if currentStep = 5 then .iterated .finished
  else .iterated .failure

end PayloadCommissioningExperiment

namespace CameraCommissioningExperiment

def dispatch (currentStep : Byte) : Next CommissioningExperiment.Pc :=
  if currentStep = 1 then .iterated .loopImmediately
  else if currentStep = 2 then .goto (.savePhoto 0)
  else if currentStep = 3 then .iterated .finished
  else .iterated .failure

end CameraCommissioningExperiment

/-! ## Copying boot slots -/

structure CopyBootSlotsExperiment where
  sourceEntries : BitVec 6
  targetEntries : BitVec 6

namespace CopyBootSlotsExperiment

inductive Pc
  | start
  | iteration
  | erase (i : ℕ)
  | program (offset i : ℕ)
deriving DecidableEq

/-- `ToSlotNumbers`. -/
def toSlotNumbers (mask : BitVec 6) : List Byte := BootTable.selectEntries (mask.setWidth 8)

def step (o : CopyBootSlotsExperiment) : Pc → Option ℕ → Turn CopyBootSlotsExperiment Pc
  | .start, _ => ⟨o, .started .success, none⟩
  | .iteration, _ => ⟨o, .goto (.erase 0), some (.sources (toSlotNumbers o.sourceEntries))⟩
  | .erase i, r =>
    if i < BootTable.entriesCount then
      ⟨o, if o.targetEntries.getLsbD i && r.isNone then .iterated .failure else .goto (.erase (i + 1)),
        some (.targets o.targetEntries)⟩
    else ⟨o, .goto (.program 0 0), none⟩
  | .program offset i, _ =>
    if offset < ProgramEntry.size then
      if i < BootTable.entriesCount then
        ⟨o, .goto (.program offset (i + 1)), some (.targets o.targetEntries)⟩
      else ⟨o, .goto (.program (offset + 1024) 0), none⟩
    else ⟨o, .iterated .finished, none⟩

end CopyBootSlotsExperiment

end PWSat2OBC
