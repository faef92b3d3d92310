import PWSat2OBC.Spec.Boot
import PWSat2OBC.Spec.PersistentState
import PWSat2OBC.Spec.ProgramUpload

/-!
# Telecommands that change settings (`libs/obc/communication/telecommands`)

The handlers for mission time, time correction, error counters, the periodic message and the
sail, over the state they share with the handlers for boot slots and program upload. A handler
answers with one frame. Locks and devices may fail (`Surroundings`).
-/

namespace PWSat2OBC

open State

/-- How a handler ends. -/
inductive Handled
  /-- A frame is sent: its APID and the payload, which begins with the correlation id. -/
  | frame (apid : Byte) (payload : List Byte)
  /-- A violated contract of a span ends the program. -/
  | stopped
  /-- Something is written behind an array. -/
  | outOfBounds
deriving DecidableEq, Repr

/-- What the handlers work on. -/
structure OnboardState where
  /-- `TimeProvider::currentTime` in milliseconds. -/
  missionTime : BitVec 64
  persistentState : LockablePersistentState
  /-- `FDIR::_configuration`. -/
  errorCounters : Vector (BitVec 32) maxDevices
  bootSettings : BootSettings
  programFlash : FlashDriver

/-- What a handler meets: whether it obtains the lock of the time synchronisation, of the
clock, and of the persistent state for reading and for writing; the time of the RTC in
milliseconds, if it can be read; and the answers of the program flash. -/
structure Surroundings where
  timeSynchronization : Bool
  timerLock : Bool
  getLock : Bool
  setLock : Bool
  rtcTime : Option (BitVec 64)
  flash : FlashAnswers

variable (surroundings : Surroundings) (s : OnboardState) (parameters : List Byte)

/-- `persistentState.Set`. -/
def OnboardState.setPart (update : Parts → Parts) : Bool × OnboardState :=
  let (set, persistentState) := s.persistentState.set surroundings.setLock update
  (set, { s with persistentState })

/-! ## Time -/

namespace SetTimeTelecommand

/-- `DownlinkAPID::TimeSet`. -/
def apid : Byte := 0x16

/-- The external time: from the RTC, else the last one known. The status tells which. -/
def externalTime : Option (Byte × BitVec 64) :=
  match surroundings.rtcTime with
  | some time => some (0, time)
  | none =>
    (s.persistentState.get surroundings.getLock (·.timeState.lastExternalTime)).map fun time => (1, time)

/-- `SetTimeTelecommand::Handle`. -/
def handle : Handled × OnboardState :=
  let r := Reader.init parameters
  let (correlationId, r) := r.readByte
  let (seconds, _) := r.readDoubleWordLE
  let targetTime := seconds.setWidth 64 * 1000
  if !surroundings.timeSynchronization then (.frame apid [correlationId, -4], s)
  else
    match externalTime surroundings s with
    | none => (.frame apid [correlationId, -5], s)
    | some (status, externalTime) =>
      if !surroundings.timerLock then (.frame apid [correlationId, -2], s)
      else
        let s := { s with missionTime := targetTime }
        let (set, s) := s.setPart surroundings fun p =>
          { p with timeState := ⟨targetTime, externalTime⟩ }
        if !set then (.frame apid [correlationId, -3], s)
        else (.frame apid [correlationId, status], s)

end SetTimeTelecommand

namespace SetTimeCorrectionConfigTelecommand

/-- `DownlinkAPID::TimeCorrection`. -/
def apid : Byte := 0x15

/-- `SetTimeCorrectionConfigTelecommand::Handle`. -/
def handle : Handled × OnboardState :=
  let r := Reader.init parameters
  let (correlationId, r) := r.readByte
  let (missionTimeWeight, r) := r.readWordLE
  let (externalTimeWeight, _) := r.readWordLE
  if missionTimeWeight = 0 ∧ externalTimeWeight = 0 then (.frame apid [correlationId, -1], s)
  else
    let (set, s) := s.setPart surroundings fun p =>
      { p with timeCorrectionConfiguration := ⟨missionTimeWeight, externalTimeWeight⟩ }
    if !set then (.frame apid [correlationId, -2], s)
    else (.frame apid [correlationId, 0], s)

end SetTimeCorrectionConfigTelecommand

/-! ## Error counters -/

namespace SetErrorCounterConfig

/-- `DownlinkAPID::ErrorCounterConfiguration`. -/
def apid : Byte := 0x11

/-- `Config`. -/
def config (limit increment decrement : Byte) : BitVec 32 :=
  limit.setWidth 32 ||| increment.setWidth 32 <<< 8 ||| decrement.setWidth 32 <<< 16

/-- The loop of `Handle`, with the devices written to the response so far. The bound on the
device lets `MaxDevices` through, one behind the array. Each turn reads four bytes, so
`fuel` turns are enough for as many bytes. -/
def setAll : (fuel : ℕ) → Reader → List Byte → Vector (BitVec 32) maxDevices →
    Option (List Byte × Vector (BitVec 32) maxDevices)
  | 0, _, response, configuration => some (response, configuration)
  | fuel + 1, r, response, configuration =>
    let (device, r) := r.readByte
    let (limit, r) := r.readByte
    let (increment, r) := r.readByte
    let (decrement, r) := r.readByte
    if !r.status then some (response, configuration)
    else if maxDevices < device.toNat then some (response, configuration)
    else if h : device.toNat < maxDevices then
      setAll fuel r (response ++ [device])
        (configuration.set device.toNat (config limit increment decrement) h)
    else none

/-- `SetErrorCounterConfig::Handle`. -/
def handle : Handled × OnboardState :=
  let r := Reader.init parameters
  let (correlationId, r) := r.readByte
  if !r.status then (.frame apid [correlationId, 1], s)
  else
    match setAll parameters.length r [correlationId, 0] s.errorCounters with
    | some (payload, errorCounters) => (.frame apid payload, { s with errorCounters })
    | none => (.outOfBounds, s)

end SetErrorCounterConfig

/-! ## Periodic message -/

namespace SetPeriodicMessageTelecommand

/-- `DownlinkAPID::PeriodicSet`. -/
def apid : Byte := 0x1B

/-- `MessageState(interval, repeatCount, message)`; `none`: the message is longer than the
array. -/
def messageState (interval repeatCount : Byte) (message : List Byte) : Option MessageState :=
  if h : message.length ≤ messageLength then
    some {
      interval := interval.setWidth 64
      repeatCount := repeatCount
      message := MessageState.copy message (List.replicate messageLength 0)
      length_message := by rw [MessageState.length_copy (by rwa [List.length_replicate]), List.length_replicate] }
  else none

/-- `SetPeriodicMessageTelecommand::Handle`. The result of `Set` is not looked at. -/
def handle : Handled × OnboardState :=
  let r := Reader.init parameters
  let (correlationId, r) := r.readByte
  let (interval, r) := r.readByte
  let (repeatCount, r) := r.readByte
  match r.readToEnd with
  | none => (.stopped, s)
  | some (msg, r) =>
    if !r.status ∨ msg.length = 0 then (.frame apid [correlationId, 1], s)
    else
      match messageState interval repeatCount msg with
      | none => (.outOfBounds, s)
      | some newSettings =>
        (.frame apid [correlationId, 0],
          (s.setPart surroundings fun p => { p with messageState := newSettings }).2)

end SetPeriodicMessageTelecommand

/-! ## Sail -/

namespace StopSailDeployment

/-- `DownlinkAPID::DisableSailDeployment`. -/
def apid : Byte := 0x20

/-- `StopSailDeployment::Handle`. The new state is `SailOpeningState::OpeningStopped`. -/
def handle : Handled × OnboardState :=
  let r := Reader.init parameters
  let (correlationId, r) := r.readByte
  if !r.status then (.frame apid [correlationId, -1], s)
  else
    let (set, s) := s.setPart surroundings fun p => { p with sailState := ⟨2⟩ }
    if !set then (.frame apid [correlationId, -2], s)
    else (.frame apid [correlationId, 0], s)

end StopSailDeployment

/-! ## All of them -/

/-- The telecommands that change settings. -/
inductive SettingTelecommand
  | setTime
  | setTimeCorrectionConfig
  | setBootSlots
  | setErrorCounterConfig
  | setPeriodicMessage
  | stopSailDeployment
  | writeProgramPart
deriving DecidableEq, Repr

namespace SettingTelecommand

/-- The number of bytes of the fields that are always read. `SetErrorCounterConfig` reads
records of four bytes after the first byte. -/
def fixedFields : SettingTelecommand → ℕ
  | setTime => 5
  | setTimeCorrectionConfig => 5
  | setBootSlots => 3
  | setErrorCounterConfig => 5
  | setPeriodicMessage => 3
  | stopSailDeployment => 1
  | writeProgramPart => 5

/-- `Handle` of the telecommand. -/
def handle : SettingTelecommand → Handled × OnboardState
  | setTime => SetTimeTelecommand.handle surroundings s parameters
  | setTimeCorrectionConfig => SetTimeCorrectionConfigTelecommand.handle surroundings s parameters
  | setBootSlots =>
    let (frame, bootSettings) := SetBootSlotsTelecommand.handle s.bootSettings parameters
    (.frame 0x7 (frame.correlationId :: frame.payload), { s with bootSettings })
  | setErrorCounterConfig => SetErrorCounterConfig.handle s parameters
  | setPeriodicMessage => SetPeriodicMessageTelecommand.handle surroundings s parameters
  | stopSailDeployment => StopSailDeployment.handle surroundings s parameters
  | writeProgramPart =>
    let (ending, programFlash) := WriteProgramPart.handle parameters surroundings.flash s.programFlash
    (match ending with
      | .responded response => .frame 0x4 response.payload
      | .stopped => .stopped
      | .outOfBounds => .outOfBounds, { s with programFlash })

end SettingTelecommand

end PWSat2OBC
