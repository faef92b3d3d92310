import PWSat2OBC.Lib.Runs
import PWSat2OBC.Spec.Experiments

/-!
# Runs of the sensor experiments (`libs/experiments/suns`, `libs/experiments/radfet`)

What the sun sensor and the RadFET experiment switch, measure and store, from run to run of the
same object. The readings of the clock and the answers of the devices are the arguments of an
event. Sleeping only lets time pass and is not modelled.

The parameters are set up between runs. The experiment controller calls `Start`, after a
success `Iteration` until it returns `Finished` or `Failure` or the run is aborted, and then
`Stop`.
-/

namespace PWSat2OBC

/-- Where an experiment is in the hands of the controller. -/
inductive ExperimentPhase
  | idle
  | running
  | ended (result : IterationResult)
deriving DecidableEq

/-- Whether the controller calls `Iteration` again. -/
def ExperimentPhase.after : IterationResult → ExperimentPhase
  | .finished => .ended .finished
  | .failure => .ended .failure
  | _ => .running

/-! ## Sun sensor -/

namespace SunSExperiment

/-- The readings of the clock in one iteration: at its beginning, and behind a session. -/
structure Readings where
  before : Option ℤ
  after : Option ℤ
deriving DecidableEq

/-- One `GatherSingleMeasurement`, and the delay in front of it in seconds. -/
structure Measurement where
  delay : Option ℕ
  gain : Byte
  itime : Byte
deriving DecidableEq

/-- A session: the iteration it was held in, the reading at its beginning, the reading behind it,
and its measurements. -/
structure Session where
  iteration : ℕ
  beginsAt : ℤ
  after : Option ℤ
  measurements : List Measurement
deriving DecidableEq

/-- The object and the two power lines. `readings` and `sessions` are those since `Start`. -/
structure Sampling where
  parameters : SunSExperimentParams
  remainingSessions : Byte
  nextSessionAt : ℤ
  sensPower : Bool
  sunSPower : Bool
  phase : ExperimentPhase
  readings : List (Option ℤ)
  sessions : List Session
deriving DecidableEq

/-- The object after its construction. -/
def Sampling.init : Sampling :=
  ⟨⟨0, 0, 0, 0, 0, 0⟩, 0, 0, false, false, .idle, [], []⟩

inductive SamplingEvent
  | setParameters (parameters : SunSExperimentParams)
  /-- `Start`, with the results of opening the two files. -/
  | start (openPrimary openSecondary : Bool)
  | iteration (readings : Readings)
  | stop
deriving DecidableEq

/-- The loop over the samples. -/
def samples (parameters : SunSExperimentParams) : List Measurement :=
  (List.range parameters.samplesCount.toNat).map fun i =>
    ⟨if 0 < i then some parameters.shortDelay else none, parameters.gain, parameters.itime⟩

/-- `SunSExperiment::Start`. -/
def start (s : Sampling) (openPrimary openSecondary : Bool) : StartResult × Sampling :=
  let s := { s with remainingSessions := s.parameters.samplingSessionsCount }
  if ¬ openPrimary then (.failure, s)
  else if ¬ openSecondary then (.failure, s)
  else (.success, s)

/-- `SunSExperiment::Iteration`. A missing time counts as `0` behind a session. -/
def iteration (s : Sampling) (r : Readings) : IterationResult × Sampling :=
  match r.before with
  | none => (.waitForNextCycle, s)
  | some currentTime =>
    if currentTime < s.nextSessionAt then (.waitForNextCycle, s)
    else
      let s := { s with remainingSessions := s.remainingSessions - 1 }
      let s := { s with sensPower := true, sunSPower := true }
      let session : Session := ⟨s.readings.length, currentTime, r.after, samples s.parameters⟩
      let s := { s with sessions := s.sessions ++ [session] }
      let s := { s with sensPower := false, sunSPower := false }
      if s.remainingSessions = 0 then (.finished, s)
      else
        (.waitForNextCycle,
          { s with nextSessionAt := r.after.getD 0 + s.parameters.longDelay * 60000 })

/-- One event. -/
def samplingStep (s : Sampling) : SamplingEvent → Option Sampling
  | .setParameters parameters =>
    if s.phase = .idle then some { s with parameters := parameters } else none
  | .start openPrimary openSecondary =>
    if s.phase = .idle then
      let (result, s) := start { s with readings := [], sessions := [] } openPrimary openSecondary
      some { s with phase := if result = .success then .running else .idle }
    else none
  | .iteration r =>
    if s.phase = .running then
      let (result, t) := iteration s r
      some { t with phase := .after result, readings := s.readings ++ [r.before] }
    else none
  | .stop => if s.phase = .idle then none else some { s with phase := .idle }

end SunSExperiment

/-! ## RadFET -/

namespace RadFETExperiment

/-- The answer to a command that switches something: what it reports, and whether the command was
carried out. -/
structure Switched where
  reported : Bool
  done : Bool
deriving DecidableEq

/-- The state of a switch after a command. -/
def Switched.state (a : Switched) (commanded before : Bool) : Bool := if a.done then commanded else before

/-- A packet of the data set. -/
inductive Packet
  | timestamp (time : ℤ)
  | payloadRadFet (telemetry : List Byte)
  | supplySADSTemperature (supply sads : BitVec 16)
deriving DecidableEq

/-- The object, the devices and the data set. `asked` is the number of samples that the last run
was started for, and `finished` says whether that run has ended with `Finished`. -/
structure Recording where
  object : RadFETExperiment
  radFET : Bool
  sens : Bool
  dataSet : List Packet
  phase : ExperimentPhase
  asked : Byte
  finished : Bool

/-- The object after its construction, with everything switched off. -/
def Recording.init : Recording :=
  ⟨⟨0, 0, [47, 114, 97, 100, 102, 101, 116], 0⟩, false, false, [], .idle, 0, false⟩

/-- The answers during `Start`. `writes` are the results of the writes to the file. -/
structure StartAnswers where
  opened : Bool
  sensOn : Switched
  radFETOn : Switched
  telemetry : List Byte
  currentTime : Option ℤ
  writes : ℕ → Bool
  radFETOff : Switched
  sensOff : Switched

/-- The answers during an iteration. -/
structure IterationAnswers where
  currentTime : Option ℤ
  measureRadFET : Option (List Byte)
  measureTemperatures : Option (BitVec 16 × BitVec 16)
  writes : ℕ → Bool

/-- The answers during `Stop`. -/
structure StopAnswers where
  radFETOff : Switched
  telemetry : List Byte
  sensOff : Switched
  currentTime : Option ℤ
  writes : ℕ → Bool

inductive RecordingEvent
  | setup (delay : ℕ) (samplesCount : Byte) (outputFileName : FileName)
  | start (answers : StartAnswers)
  | iteration (answers : IterationAnswers)
  | stop (answers : StopAnswers)

/-- The packets are written one after the other, until a write fails. -/
def save (writes : ℕ → Bool) (dataSet : List Packet) : List Packet → Bool × List Packet
  | [] => (true, dataSet)
  | packet :: packets =>
    if writes 0 then save (fun n => writes (n + 1)) (dataSet ++ [packet]) packets else (false, dataSet)

/-- `SaveRadFETTelemetry`. -/
def saveRadFETTelemetry (writes : ℕ → Bool) (dataSet : List Packet) (telemetry : List Byte)
    (timestamp : ℤ) : Bool × List Packet :=
  save writes dataSet [.timestamp timestamp, .payloadRadFet telemetry]

/-- `SaveLoopTelemetry`. -/
def saveLoopTelemetry (writes : ℕ → Bool) (dataSet : List Packet) (telemetry : List Byte)
    (temperatures : BitVec 16 × BitVec 16) (timestamp : ℤ) : Bool × List Packet :=
  save writes dataSet [.timestamp timestamp, .payloadRadFet telemetry,
    .supplySADSTemperature temperatures.1 temperatures.2]

/-- `RadFETExperiment::Start`. -/
def start (s : Recording) (a : StartAnswers) : StartResult × Recording :=
  if ¬ a.opened then (.failure, s)
  else
    let s := { s with dataSet := [], sens := a.sensOn.state true s.sens }
    if ¬ a.sensOn.reported then (.failure, s)
    else
      let s := { s with radFET := a.radFETOn.state true s.radFET }
      if ¬ a.radFETOn.reported then (.failure, { s with sens := a.sensOff.state false s.sens })
      else
        let off := { s with
          radFET := a.radFETOff.state false s.radFET
          sens := a.sensOff.state false s.sens }
        match a.currentTime with
        | none => (.failure, off)
        | some currentTime =>
          let (saved, dataSet) := saveRadFETTelemetry a.writes s.dataSet a.telemetry currentTime
          if ¬ saved then (.failure, { off with dataSet := dataSet })
          else (.success,
            { s with dataSet := dataSet, object := { s.object with samplesCollected := 0 } })

/-- `RadFETExperiment::Iteration`. -/
def iteration (s : Recording) (a : IterationAnswers) : IterationResult × Recording :=
  let s := { s with object := { s.object with samplesCollected := s.object.samplesCollected + 1 } }
  match a.currentTime with
  | none => (.waitForNextCycle, s)
  | some currentTime =>
    match a.measureRadFET with
    | none => (.failure, s)
    | some telemetry =>
      match a.measureTemperatures with
      | none => (.failure, s)
      | some temperatures =>
        let (saved, dataSet) := saveLoopTelemetry a.writes s.dataSet telemetry temperatures currentTime
        let s := { s with dataSet := dataSet }
        if ¬ saved then (.failure, s)
        else (if s.object.samplesCollected < s.object.samplesCount then .waitForNextCycle else .finished, s)

/-- `RadFETExperiment::Stop`. A missing time counts as `0`. -/
def stop (s : Recording) (a : StopAnswers) : Recording :=
  { s with
    radFET := a.radFETOff.state false s.radFET
    sens := a.sensOff.state false s.sens
    dataSet := (saveRadFETTelemetry a.writes s.dataSet a.telemetry (a.currentTime.getD 0)).2 }

/-- `RadFETExperiment::Setup`. -/
def setup (s : Recording) (delay : ℕ) (samplesCount : Byte) (outputFileName : FileName) : Recording :=
  { s with object := { s.object with
      delay := delay
      samplesCount := samplesCount
      outputFileName := strsafecpy 40 outputFileName } }

/-- One event. -/
def recordingStep (s : Recording) : RecordingEvent → Option Recording
  | .setup delay samplesCount outputFileName =>
    if s.phase = .idle then some (setup s delay samplesCount outputFileName) else none
  | .start a =>
    if s.phase = .idle then
      let (result, t) := start { s with asked := s.object.samplesCount, finished := false } a
      some { t with phase := if result = .success then .running else .idle }
    else none
  | .iteration a =>
    if s.phase = .running then
      let (result, t) := iteration s a
      some { t with phase := .after result, finished := result = .finished }
    else none
  | .stop a => if s.phase = .idle then none else some { stop s a with phase := .idle }

end RadFETExperiment

end PWSat2OBC
