import PWSat2OBC.Spec.Experiments
import PWSat2OBC.Spec.Reader

/-!
# Telecommands that perform experiments (`libs/obc/communication/telecommands/experiments.cpp`)

A handler reads its parameters, stores them in the experiment object and then requests
the experiment from the controller, which may refuse. The handlers run one after another
in the communication task, while the mission loop and the background task go on: here
the handler in progress, the controller with its tasks and the run of the experiment at
hand take steps in any order.

`carried` keeps the parameters of every request that passed the check of the controller,
`uses` the parameters used in the runs, both by the number of the request. The program
does not read them.
-/

namespace PWSat2OBC

inductive ExperimentKind
  | detumbling
  | sunS
  | radFET
  | payloadCommissioning
  | cameraCommissioning
  | copyBootSlots
deriving DecidableEq

namespace ExperimentKind

/-- The `Code` of the experiment. -/
def code : ExperimentKind → ExperimentCode
  | detumbling => 1
  | sunS => 3
  | radFET => 5
  | payloadCommissioning => 9
  | cameraCommissioning => 10
  | copyBootSlots => 11

/-- The other experiments (flash erase, LEOP, SADS, sail) take none of these parameters. -/
def ofCode (code : ExperimentCode) : Option ExperimentKind :=
  if code = 1 then some detumbling
  else if code = 3 then some sunS
  else if code = 5 then some radFET
  else if code = 9 then some payloadCommissioning
  else if code = 10 then some cameraCommissioning
  else if code = 11 then some copyBootSlots
  else none

end ExperimentKind

/-- The parameters in a telecommand. -/
inductive ExperimentParams
  | detumbling (duration samplingInterval : ℕ)
  | sunS (params : SunSExperimentParams) (outputFile : FileName)
  | radFET (delay : ℕ) (samplesCount : Byte) (path : FileName)
  | payloadCommissioning (outputFile : FileName)
  | cameraCommissioning (outputFile : FileName)
  | copyBootSlots (sourceBitMask targetBitMask : Byte)
deriving DecidableEq

def ExperimentParams.kind : ExperimentParams → ExperimentKind
  | detumbling .. => .detumbling
  | sunS .. => .sunS
  | radFET .. => .radFET
  | payloadCommissioning .. => .payloadCommissioning
  | cameraCommissioning .. => .cameraCommissioning
  | copyBootSlots .. => .copyBootSlots

/-! ## Reading the parameters

Each function returns the correlation id and the parameters, if the frame is well formed. -/

def PerformDetumblingExperiment.read (parameters : List Byte) : Byte × Option ExperimentParams :=
  let (correlationId, r) := (Reader.init parameters).readByte
  let (duration, r) := r.readDoubleWordLE
  let (samplingInterval, r) := r.readByte
  (correlationId, if r.status then some (.detumbling duration.toNat samplingInterval.toNat) else none)

def PerformSunSExperiment.read (parameters : List Byte) : Byte × Option ExperimentParams :=
  let (correlationId, r) := (Reader.init parameters).readByte
  let (gain, r) := r.readByte
  let (itime, r) := r.readByte
  let (samplesCount, r) := r.readByte
  let (shortDelay, r) := r.readByte
  let (sessionsCount, r) := r.readByte
  let (longDelay, r) := r.readByte
  let (outputFile, r) := r.readString 30
  (correlationId,
    if !r.status || outputFile.isEmpty then none
    else some (.sunS ⟨gain, itime, samplesCount, shortDelay.toNat, sessionsCount, longDelay.toNat⟩
      outputFile))

def PerformRadFETExperiment.read (parameters : List Byte) : Byte × Option ExperimentParams :=
  let (correlationId, r) := (Reader.init parameters).readByte
  let (delay, r) := r.readByte
  let (samplesCount, r) := r.readByte
  let (path, r) := r.readString 30
  (correlationId,
    if !r.status || path.isEmpty then none else some (.radFET (delay.toNat * 10) samplesCount path))

/-- The payload and camera handlers: a file name only. -/
def readOutputFile (params : FileName → ExperimentParams) (parameters : List Byte) :
    Byte × Option ExperimentParams :=
  let (correlationId, r) := (Reader.init parameters).readByte
  let (outputFile, r) := r.readString 30
  (correlationId, if !r.status || outputFile.isEmpty then none else some (params outputFile))

def PerformPayloadCommisioningExperiment.read : List Byte → Byte × Option ExperimentParams :=
  readOutputFile .payloadCommissioning

def PerformCameraCommisioningExperiment.read : List Byte → Byte × Option ExperimentParams :=
  readOutputFile .cameraCommissioning

def PerformCopyBootSlotsExperiment.read (parameters : List Byte) : Byte × Option ExperimentParams :=
  let (correlationId, r) := (Reader.init parameters).readByte
  let (sourceBitMask, r) := r.readByte
  let (targetBitMask, r) := r.readByte
  let sourceCount := popcount sourceBitMask
  let targetCount := popcount targetBitMask
  let areOverlapping := sourceBitMask &&& targetBitMask &&& 0b111111 ≠ 0
  (correlationId,
    if !r.status || areOverlapping || sourceCount ≠ 3 || targetCount ≤ 0 || 3 < targetCount then none
    else some (.copyBootSlots sourceBitMask targetBitMask))

def ExperimentKind.read : ExperimentKind → List Byte → Byte × Option ExperimentParams
  | detumbling => PerformDetumblingExperiment.read
  | sunS => PerformSunSExperiment.read
  | radFET => PerformRadFETExperiment.read
  | payloadCommissioning => PerformPayloadCommisioningExperiment.read
  | cameraCommissioning => PerformCameraCommisioningExperiment.read
  | copyBootSlots => PerformCopyBootSlotsExperiment.read

/-! ## Answers -/

inductive DownlinkAPID
  | operation
  | experiment
deriving DecidableEq

/-- `DownlinkGenericResponse`; the copy handler writes the same numbers itself. -/
inductive DownlinkGenericResponse
  | success
  | malformedRequest
  | experimentError
deriving DecidableEq

/-- The frame sent back. -/
structure ExperimentResponse where
  apid : DownlinkAPID
  correlationId : Byte
  response : DownlinkGenericResponse
deriving DecidableEq

def ExperimentKind.respond (kind : ExperimentKind) (correlationId : Byte)
    (response : DownlinkGenericResponse) : ExperimentResponse :=
  ⟨if kind = copyBootSlots then .operation else .experiment, correlationId, response⟩

/-! ## Experiment objects -/

structure ExperimentObjects where
  detumbling : DetumblingExperiment
  sunS : SunSExperiment
  radFET : RadFETExperiment
  payload : CommissioningExperiment
  camera : CommissioningExperiment
  copyBootSlots : CopyBootSlotsExperiment

namespace ExperimentObjects

/-- The first setter a handler calls. -/
def setup (o : ExperimentObjects) : ExperimentParams → ExperimentObjects
  | .detumbling duration _ => { o with detumbling.duration := duration }
  | .sunS params _ => { o with sunS.parameters := params }
  | .radFET delay samplesCount path =>
    { o with
      radFET.delay := delay
      radFET.samplesCount := samplesCount
      radFET.outputFileName := strsafecpy 40 path }
  | .payloadCommissioning outputFile => { o with payload.fileName := strsafecpy 30 outputFile }
  | .cameraCommissioning outputFile => { o with camera.fileName := strsafecpy 30 outputFile }
  | .copyBootSlots source target =>
    { o with copyBootSlots := ⟨source.setWidth 6, target.setWidth 6⟩ }

/-- The second one, where there is one: `SampleRate` and `SetOutputFiles`. -/
def setupRest (o : ExperimentObjects) : ExperimentParams → ExperimentObjects
  | .detumbling _ samplingInterval => { o with detumbling.sampleRate := samplingInterval }
  | .sunS _ outputFile =>
    { o with
      sunS.primaryFileName := strsafecpy 30 outputFile
      sunS.secondaryFileName := strsafecpy 30 outputFile ++ SunSExperiment.secondarySuffix }
  | _ => o

end ExperimentObjects

/-! ## The system -/

/-- The telecommand in the communication task. -/
inductive HandlerPc
  | idle
  | setup (correlationId : Byte) (params : ExperimentParams)
  | setupRest (correlationId : Byte) (params : ExperimentParams)
  /-- `RequestExperiment` is about to look at `InProgress`. -/
  | request (correlationId : Byte) (params : ExperimentParams)
  /-- It is about to take the lock. -/
  | store (correlationId : Byte) (params : ExperimentParams) (request : Request)
deriving DecidableEq

/-- The background task inside `Start` or `Iteration`. -/
inductive RunPc
  | outside
  /-- In an experiment without parameters. -/
  | other
  | detumbling (pc : DetumblingExperiment.Pc)
  | sunS (pc : SunSExperiment.Pc)
  | radFET (pc : RadFETExperiment.Pc)
  | payload (pc : CommissioningExperiment.Pc)
  | camera (pc : CommissioningExperiment.Pc)
  | copyBootSlots (pc : CopyBootSlotsExperiment.Pc)
  | started (result : StartResult)
  | iterated (result : IterationResult)
deriving DecidableEq

structure ExperimentSystem where
  controller : ExperimentController
  objects : ExperimentObjects
  handler : HandlerPc
  run : RunPc
  answers : List ExperimentResponse
  carried : List (ℕ × ExperimentParams)
  uses : List (ℕ × Use)

inductive SystemEvent
  /-- A telecommand arrives. -/
  | frame (kind : ExperimentKind) (parameters : List Byte)
  | setup
  | setupRest
  | requestExperiment
  | storeRequest
  /-- An operation of `Start` or `Iteration`, with its answer. -/
  | run (answer : Option ℕ)
  /-- A step of the controller, the mission loop or the background task, an abort, or a
  request for an experiment without parameters. -/
  | controller (event : ControllerEvent)
deriving DecidableEq

/-- The first position in `Start`. -/
def ExperimentKind.start : ExperimentKind → RunPc
  | detumbling => .detumbling .start
  | sunS => .sunS .start
  | radFET => .radFET .start
  | payloadCommissioning => .payload .start
  | cameraCommissioning => .camera .start
  | copyBootSlots => .copyBootSlots .start

/-- The first position in `Iteration`. -/
def ExperimentKind.iteration : ExperimentKind → RunPc
  | detumbling => .detumbling .iteration
  | sunS => .sunS .iteration
  | radFET => .radFET .iteration
  | payloadCommissioning => .payload .iteration
  | cameraCommissioning => .camera .iteration
  | copyBootSlots => .copyBootSlots .iteration

/-- The position of the run after a step. -/
def Next.toRunPc {Pc : Type} (inject : Pc → RunPc) : Next Pc → RunPc
  | .goto pc => inject pc
  | .started result => .started result
  | .iterated result => .iterated result

namespace ExperimentSystem

variable (registered : ExperimentCode → Bool) (s : ExperimentSystem)

/-- The experiment that is running, if it has parameters. -/
def runningKind : Option ExperimentKind :=
  s.controller.taken.bind fun r => ExperimentKind.ofCode r.code

/-- The state after the turn `t` of an experiment. -/
def turn {Object Pc : Type} (request : ℕ) (t : Turn Object Pc)
    (store : Object → ExperimentObjects) (inject : Pc → RunPc) : ExperimentSystem :=
  { s with
    objects := store t.object
    run := t.next.toRunPc inject
    uses := s.uses ++ (t.use.map fun u => (request, u)).toList }

/-- An operation of `Start` or `Iteration` in the run of `request`. -/
def runStep (request : ℕ) (answer : Option ℕ) : Option ExperimentSystem :=
  let o := s.objects
  match s.run with
  | .detumbling pc =>
    some (s.turn request (o.detumbling.step pc answer) (fun d => { o with detumbling := d }) .detumbling)
  | .sunS pc =>
    some (s.turn request (o.sunS.step request pc answer) (fun x => { o with sunS := x }) .sunS)
  | .radFET pc =>
    some (s.turn request (o.radFET.step pc answer) (fun x => { o with radFET := x }) .radFET)
  | .payload pc =>
    some (s.turn request (o.payload.step PayloadCommissioningExperiment.dispatch pc answer)
      (fun x => { o with payload := x }) .payload)
  | .camera pc =>
    some (s.turn request (o.camera.step CameraCommissioningExperiment.dispatch pc answer)
      (fun x => { o with camera := x }) .camera)
  | .copyBootSlots pc =>
    some (s.turn request (o.copyBootSlots.step pc answer) (fun x => { o with copyBootSlots := x })
      .copyBootSlots)
  | _ => none

/-- The steps of the controller that may be taken now: `Start` and `Iteration` return
what their run returned, and requests for the experiments with parameters come from the
handlers only. -/
def enabled : ControllerEvent → Bool
  | .request code => (ExperimentKind.ofCode code).isNone
  | .store r => (ExperimentKind.ofCode r.code).isNone
  | .startReturns result => s.run = .started result || s.run = .other
  | .iterationReturns result => s.run = .iterated result || s.run = .other
  | _ => true

/-- The position of the run after a step of the controller. -/
def runAfter : ControllerEvent → RunPc
  | .background .setCurrent => s.runningKind.elim .other ExperimentKind.start
  | .background .iterate => s.runningKind.elim .other ExperimentKind.iteration
  | .startReturns _ | .iterationReturns _ => .outside
  | _ => s.run

def step : SystemEvent → Option ExperimentSystem
  | .frame kind parameters =>
    if s.handler = .idle then
      let (correlationId, read) := kind.read parameters
      match read with
      | none => some { s with answers := s.answers ++ [kind.respond correlationId .malformedRequest] }
      | some params => some { s with handler := .setup correlationId params }
    else none
  | .setup =>
    match s.handler with
    | .setup id params =>
      some { s with objects := s.objects.setup params, handler := .setupRest id params }
    | _ => none
  | .setupRest =>
    match s.handler with
    | .setupRest id params =>
      some { s with objects := s.objects.setupRest params, handler := .request id params }
    | _ => none
  | .requestExperiment =>
    match s.handler with
    | .request id params =>
      (s.controller.step registered (.request params.kind.code)).map fun c =>
        if s.controller.inProgress then
          { s with
            controller := c
            handler := .idle
            answers := s.answers ++ [params.kind.respond id .experimentError] }
        else
          { s with
            controller := c
            handler := .store id params ⟨s.controller.nextId, params.kind.code⟩
            carried := s.carried ++ [(s.controller.nextId, params)] }
    | _ => none
  | .storeRequest =>
    match s.handler with
    | .store id params r =>
      (s.controller.step registered (.store r)).map fun c =>
        { s with
          controller := c
          handler := .idle
          answers := s.answers ++ [params.kind.respond id .success] }
    | _ => none
  | .run answer =>
    match s.controller.taken with
    | some r => s.runStep r.id answer
    | none => none
  | .controller e =>
    if s.enabled e then
      (s.controller.step registered e).map fun c => { s with controller := c, run := s.runAfter e }
    else none

/-- After start-up, with the objects as constructed. The parameters that have no initial
value in the code may be anything. -/
def init (objects : ExperimentObjects) : ExperimentSystem where
  controller := ExperimentController.init
  objects := objects
  handler := .idle
  run := .outside
  answers := []
  carried := []
  uses := []

end ExperimentSystem

end PWSat2OBC
