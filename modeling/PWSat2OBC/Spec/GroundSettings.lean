import PWSat2OBC.Spec.Fdir
import PWSat2OBC.Spec.Uplink
import PWSat2OBC.Spec.UploadSoftware

/-!
# Settings from the ground (`integration_tests/telecommand`, `integration_tests/devices/comm.py`,
`integration_tests/response_frames`, `libs/obc/communication/telecommands/fdir.cpp`)

The telecommands as the ground packs them, the frames it puts them in, what it makes of a response,
and the link between the ground and the handlers of `Spec/Telecommands`: a frame or its response may be
lost, and frames of others arrive in between.

Left out: the telecommands that set nothing of what is modelled here.
-/

namespace PWSat2OBC

open State

/-! ## Telecommands -/

/-- A `timedelta`, normalised. -/
structure Timedelta where
  days : ℤ
  seconds : ℕ
  microseconds : ℕ
  seconds_lt : seconds < 86400
  microseconds_lt : microseconds < 1000000

/-- The time it stands for, in whole seconds. -/
def Timedelta.totalSeconds (t : Timedelta) : ℤ := t.days * 86400 + t.seconds

/-- The telecommands that set something, with the arguments of their constructors. -/
inductive GroundTelecommand
  | setTimeCorrectionConfig (correlationId : Byte) (missionTimeWeight externalTimeWeight : BitVec 16)
  | setTime (correlationId : Byte) (newTime : Timedelta)
  | setErrorCounterConfig (correlationId : Byte) (configs : List SetErrorCounterConfig.Entry)
  | setBootSlots (correlationId primary failsafe : Byte)
  | setPeriodicMessage (correlationId intervalMinutes repeatCount : Byte) (message : List Byte)
  | stopSailDeployment (correlationId : Byte)

namespace GroundTelecommand

/-- `correlation_id`. -/
def correlationId : GroundTelecommand → Byte
  | setTimeCorrectionConfig correlationId _ _ => correlationId
  | setTime correlationId _ => correlationId
  | setErrorCounterConfig correlationId _ => correlationId
  | setBootSlots correlationId _ _ => correlationId
  | setPeriodicMessage correlationId _ _ _ => correlationId
  | stopSailDeployment correlationId => correlationId

/-- `apid`. -/
def apid : GroundTelecommand → Byte
  | setTimeCorrectionConfig .. => 0x90
  | setTime .. => 0x91
  | setErrorCounterConfig .. => 0x02
  | setBootSlots .. => 0x03
  | setPeriodicMessage .. => 0x05
  | stopSailDeployment .. => 0x2D

/-- `ErrorCounterConfiguration.pack`. -/
def pack (c : SetErrorCounterConfig.Entry) : List Byte := [c.device, c.limit, c.increment, c.decrement]

/-- `payload`. `SetTime` packs the seconds of the `timedelta` without its days. -/
def payload : GroundTelecommand → List Byte
  | setTimeCorrectionConfig correlationId missionTimeWeight externalTimeWeight =>
    [correlationId, missionTimeWeight.extractLsb' 0 8, missionTimeWeight.extractLsb' 8 8,
      externalTimeWeight.extractLsb' 0 8, externalTimeWeight.extractLsb' 8 8]
  | setTime correlationId newTime =>
    correlationId :: Redundancy.storeWord (BitVec.ofNat 32 newTime.seconds)
  | setErrorCounterConfig correlationId configs => correlationId :: configs.flatMap pack
  | setBootSlots correlationId primary failsafe => [correlationId, primary, failsafe]
  | setPeriodicMessage correlationId intervalMinutes repeatCount message =>
    correlationId :: intervalMinutes :: repeatCount :: message
  | stopSailDeployment correlationId => [correlationId]

/-- `UplinkFrame(apid, content, security_code).build()`. -/
def build (securityCode : BitVec 32) (tc : GroundTelecommand) : List Byte :=
  (Redundancy.storeWord securityCode).reverse ++ tc.apid :: tc.payload

/-- The APID of its responses, as in `DownlinkApid`. -/
def responseApid : GroundTelecommand → ℕ
  | setTimeCorrectionConfig .. => 0x15
  | setTime .. => 0x16
  | setErrorCounterConfig .. => 0x11
  | setBootSlots .. => 0x07
  | setPeriodicMessage .. => 0x1B
  | stopSailDeployment .. => 0x20

end GroundTelecommand

/-! ## Responses -/

/-- The frames of a handler: `transmitter.SendFrame`. -/
def responseFrame (apid : Byte) (payload : List Byte) : List Byte :=
  (payload.foldl DownlinkFrame.writeByte (DownlinkFrame.init apid 0)).frame

/-- A success or error frame. -/
inductive SettingResponse
  | success (correlationId : Byte) (response : List Byte)
  | error (correlationId errorCode : Byte) (response : List Byte)
deriving DecidableEq

/-- `DownlinkFrameFactory.decode_frame` for the frames of `GroundTelecommand.responseApid`. The bytes are
numbers from 0 on in the ground software, also where `TimeSetErrorFrame` asks for one below. -/
def SettingResponse.decode (f : ReceivedFrame) : Option SettingResponse :=
  match f.payload with
  | correlationId :: status :: response =>
    let isSuccess : Bool := if f.apid = 0x16 then decide ((0 : ℤ) ≤ status.toNat) else status == 0
    if isSuccess then some (.success correlationId response) else some (.error correlationId status response)
  | _ => none

/-- The ground takes the response for the success of its telecommand. -/
def GroundTelecommand.accepts (tc : GroundTelecommand) (bytes : List Byte) : Bool :=
  let f := ReceivedFrame.parse bytes
  f.apid == tc.responseApid &&
    match SettingResponse.decode f with
    | some (.success correlationId _) => correlationId == tc.correlationId
    | _ => false

/-! ## The link -/

/-- The handlers, as `Telecommand<..>` with the state they work on. -/
def settingTelecommands : List (HandleTelecommand (Surroundings → OnboardState → Handled × OnboardState)) :=
  let handler (commandCode : Byte) (tc : SettingTelecommand) :
      HandleTelecommand (Surroundings → OnboardState → Handled × OnboardState) :=
    ⟨commandCode, fun parameters surroundings s => tc.handle surroundings s parameters⟩
  [handler 0x90 .setTimeCorrectionConfig, handler 0x91 .setTime, handler 0x02 .setErrorCounterConfig,
    handler 0x03 .setBootSlots, handler 0x05 .setPeriodicMessage, handler 0x2D .stopSailDeployment]

/-- The satellite, what the ground has sent and what it takes for successful. -/
structure GroundLink where
  onboard : OnboardState
  sent : List GroundTelecommand
  acknowledged : List GroundTelecommand

inductive GroundLinkEvent
  /-- A telecommand: whether its frame arrives, and whether the response does. -/
  | send (tc : GroundTelecommand) (surroundings : Surroundings) (arrives heard : Bool)
  /-- A frame that is not from the ground. -/
  | other (content : List Byte) (surroundings : Surroundings)

namespace GroundLink

variable (securityCode : BitVec 32)

/-- What `HandleFrame` does with the content of a frame. -/
def receive (content : List Byte) (surroundings : Surroundings) (s : OnboardState) :
    Option (Handled × OnboardState) :=
  match UplinkProtocol.decode securityCode content with
  | some (.success commandCode parameters) =>
    (IncomingTelecommandHandler.dispatchCommandHandler settingTelecommands commandCode parameters).map
      fun handle => handle surroundings s
  | _ => none

/-- A telecommand or a frame of others. A handler that ends the program has no successor. -/
def step (s : GroundLink) : GroundLinkEvent → Option GroundLink
  | .send tc surroundings arrives heard =>
    if arrives then
      match receive securityCode (tc.build securityCode) surroundings s.onboard with
      | none => some { s with sent := s.sent ++ [tc] }
      | some (.frame apid payload, onboard) =>
        some { onboard, sent := s.sent ++ [tc],
               acknowledged := s.acknowledged ++
                if heard && tc.accepts (responseFrame apid payload) then [tc] else [] }
      | some _ => none
    else some { s with sent := s.sent ++ [tc] }
  | .other content surroundings =>
    match receive securityCode content surroundings s.onboard with
    | none => some s
    | some (.frame _ _, onboard) => some { s with onboard }
    | some _ => none

end GroundLink

/-! ## What is meant -/

/-- The settings, as an operator thinks of them. -/
structure Settings where
  /-- In milliseconds. -/
  missionTime : ℕ
  timeCorrection : BitVec 16 × BitVec 16
  errorCounters : Fin maxDevices → Fdir.Rates
  bootSlots : Byte
  failsafeBootSlots : Byte
  /-- Minutes, count and text, with zeros up to the end. -/
  periodicMessage : ℕ × Byte × List Byte
  sailState : Byte

/-- The settings that are in force. -/
def OnboardState.settings (s : OnboardState) : Settings where
  missionTime := s.missionTime.toNat
  timeCorrection :=
    (s.persistentState.state.parts.timeCorrectionConfiguration.missionTimeFactor,
      s.persistentState.state.parts.timeCorrectionConfiguration.externalTimeFactor)
  errorCounters := Fdir.ratesOf s.errorCounters
  bootSlots := s.bootSettings.bootSlots
  failsafeBootSlots := s.bootSettings.failsafeBootSlots
  periodicMessage :=
    (s.persistentState.state.parts.messageState.interval.toNat, s.persistentState.state.parts.messageState.repeatCount,
      s.persistentState.state.parts.messageState.message)
  sailState := s.persistentState.state.parts.sailState.currentState

/-- What a telecommand is meant to do. -/
def Settings.after (s : Settings) : GroundTelecommand → Settings
  | .setTimeCorrectionConfig _ missionTimeWeight externalTimeWeight =>
    { s with timeCorrection := (missionTimeWeight, externalTimeWeight) }
  | .setTime _ newTime => { s with missionTime := (newTime.totalSeconds * 1000).toNat }
  | .setErrorCounterConfig _ configs =>
    { s with errorCounters := configs.foldl (fun rates c d =>
        if d.val = c.device.toNat then ⟨c.limit, c.increment, c.decrement⟩ else rates d) s.errorCounters }
  | .setBootSlots _ primary failsafe => { s with bootSlots := primary, failsafeBootSlots := failsafe }
  | .setPeriodicMessage _ intervalMinutes repeatCount message =>
    { s with periodicMessage := (intervalMinutes.toNat, repeatCount,
        message ++ List.replicate (messageLength - message.length) 0) }
  | .stopSailDeployment _ => { s with sailState := 2 }

/-- The arguments are ones the telecommand is made for. -/
def GroundTelecommand.Fits : GroundTelecommand → Prop
  | .setTime _ newTime => newTime.days = 0
  | .setErrorCounterConfig _ configs => ∀ c ∈ configs, c.device.toNat < maxDevices
  | _ => True

/-- The operations whose failure the ground does not see succeed. -/
def GroundTelecommand.Obtains (surroundings : Surroundings) : GroundTelecommand → Prop
  | .setTime .. => surroundings.timeSynchronization = true ∧ surroundings.timerLock = true ∧
      surroundings.setLock = true ∧ (surroundings.rtcTime.isSome = true ∨ surroundings.getLock = true)
  | .setPeriodicMessage .. => surroundings.setLock = true
  | _ => True

/-- The frame begins with the security code and has a command code. -/
def Authenticated (securityCode : BitVec 32) (content : List Byte) : Prop :=
  5 ≤ content.length ∧ content.take 4 = (Redundancy.storeWord securityCode).reverse

end PWSat2OBC
