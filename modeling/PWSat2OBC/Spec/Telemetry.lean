import PWSat2OBC.Spec.BitWriter

/-!
# Managed telemetry (`libs/telemetry`, `libs/drivers`)

Each element of the beacon and the calls its `Write` makes on the bit writer. A `BitValue`
of `n` bits is a `BitVec n`, a signed field the `BitVec` of its type, a duration an integer
in the unit of its type.
-/

namespace PWSat2OBC

namespace Telemetry

/-- `BitWriter::Write` of a `BitValue` over at most 16 bits. -/
def writeBitValue {n : ℕ} (value : BitVec n) : BitWrite :=
  .writeWord (value.setWidth 16) (BitVec.ofNat 8 n)

/-- `BitWriter::Write` of a `BitValue` over 32 bits. -/
def writeBitValue32 {n : ℕ} (value : BitVec n) : BitWrite :=
  .writeDoubleWord (value.setWidth 32) (BitVec.ofNat 8 n)

/-- `BitWriter::Write` of an array. -/
def writeArray {α : Type} {n : ℕ} (write : α → BitWrite) (list : Fin n → α) : List BitWrite :=
  (List.finRange n).map fun i => write (list i)

/-- `BitWriter::Write` of a bitset. -/
def writeBitset {n : ℕ} (value : BitVec n) : List BitWrite :=
  (List.finRange n).map fun i => .writeBool (value.getLsbD i)

/-- `SystemStartup`. -/
structure SystemStartup where
  bootCounter : BitVec 32
  bootReason : BitVec 16
  bootIndex : BitVec 8

def SystemStartup.write (t : SystemStartup) : List BitWrite :=
  [.write32 t.bootCounter, .write8 t.bootIndex, .write16 t.bootReason]

/-- `InternalTimeTelemetry`, in milliseconds. -/
structure InternalTimeTelemetry where
  time : ℤ

def InternalTimeTelemetry.write (t : InternalTimeTelemetry) : List BitWrite :=
  [.write64 (BitVec.ofInt 64 t.time)]

/-- `ExternalTimeTelemetry`, in seconds. -/
structure ExternalTimeTelemetry where
  time : ℤ

def ExternalTimeTelemetry.write (t : ExternalTimeTelemetry) : List BitWrite :=
  [.write32 (BitVec.ofInt 32 t.time)]

/-- `ErrorCountingTelemetry`. -/
structure ErrorCountingTelemetry where
  array : Fin 14 → BitVec 8

def ErrorCountingTelemetry.write (t : ErrorCountingTelemetry) : List BitWrite := writeArray .write8 t.array

/-- `ActivationCounts`. -/
structure ActivationCounts where
  counts : Fin 4 → BitVec 8

def ActivationCounts.write (t : ActivationCounts) : List BitWrite :=
  (List.finRange 4).map fun i => .writeWord (BitVec.ofNat 16 (min (t.counts i).toNat 0b111)) 3

/-- `ActivationTimes`, in seconds. -/
structure ActivationTimes where
  times : Fin 4 → ℤ

/-- The half of the seconds is converted to 16 bits, then compared with 255. -/
def ActivationTimes.write (t : ActivationTimes) : List BitWrite :=
  (List.finRange 4).map fun i =>
    .writeWord (BitVec.ofNat 16 (min 255 (BitVec.ofInt 16 ((t.times i).tdiv 2)).toNat)) 8

/-- `ChannelStatus`. -/
def ChannelStatus.independentBurn : BitVec 32 := 1
def ChannelStatus.ignoringSwitches : BitVec 32 := 2
def ChannelStatus.armed : BitVec 32 := 4

/-- `has_flag`. -/
def hasFlag (value flag : BitVec 32) : Bool := value &&& flag == flag

/-- `AntennaTelemetry`. Index 0 is the primary channel, 1 the backup channel. -/
structure AntennaTelemetry where
  activationCounts : Fin 2 → ActivationCounts
  activationTimes : Fin 2 → ActivationTimes
  burnStatus : BitVec 8
  deployedStatus : BitVec 8
  timeReached : BitVec 8
  channelStatuses : Fin 2 → BitVec 32

def AntennaTelemetry.write (t : AntennaTelemetry) : List BitWrite :=
  writeBitset t.deployedStatus ++ writeBitset t.timeReached ++ writeBitset t.burnStatus ++
    [.writeBool (hasFlag (t.channelStatuses 0) ChannelStatus.independentBurn),
      .writeBool (hasFlag (t.channelStatuses 1) ChannelStatus.independentBurn),
      .writeBool (hasFlag (t.channelStatuses 0) ChannelStatus.ignoringSwitches),
      .writeBool (hasFlag (t.channelStatuses 1) ChannelStatus.ignoringSwitches),
      .writeBool (hasFlag (t.channelStatuses 0) ChannelStatus.armed),
      .writeBool (hasFlag (t.channelStatuses 1) ChannelStatus.armed)] ++
    (t.activationCounts 0).write ++ (t.activationCounts 1).write ++
    (t.activationTimes 0).write ++ (t.activationTimes 1).write

/-- `ExperimentTelemetry`. -/
structure ExperimentTelemetry where
  currentExperiment : BitVec 4
  experimentStartResult : BitVec 8
  experimentIterationResult : BitVec 8

def ExperimentTelemetry.write (t : ExperimentTelemetry) : List BitWrite :=
  [writeBitValue t.currentExperiment, .write8 t.experimentStartResult, .write8 t.experimentIterationResult]

/-- `GyroscopeTelemetry`. -/
structure GyroscopeTelemetry where
  x : BitVec 16
  y : BitVec 16
  z : BitVec 16
  temperature : BitVec 16

def GyroscopeTelemetry.write (t : GyroscopeTelemetry) : List BitWrite :=
  [.write16 t.x, .write16 t.y, .write16 t.z, .write16 t.temperature]

/-- `Bitrate`. -/
inductive Bitrate
  | comm1200bps
  | comm2400bps
  | comm4800bps
  | comm9600bps
deriving DecidableEq, Repr

/-- `IdleState`. -/
inductive IdleState
  | off
  | on
deriving DecidableEq, Repr

/-- `TransmitterTelemetry`. -/
structure TransmitterTelemetry where
  uptime : ℤ
  transmitterBitRate : Bitrate
  lastTransmittedRFReflectedPower : BitVec 12
  lastTransmittedAmplifierTemperature : BitVec 12
  lastTransmittedRFForwardPower : BitVec 12
  lastTransmittedTransmitterCurrentConsumption : BitVec 12
  nowRFForwardPower : BitVec 12
  nowTransmitterCurrentConsumption : BitVec 12
  stateWhenIdle : IdleState
  beaconState : Bool

/-- The code of a bit rate. The source has a default, 0, for values that are none of these. -/
def Bitrate.code : Bitrate → BitVec 16
  | .comm1200bps => 0b00
  | .comm2400bps => 0b01
  | .comm4800bps => 0b10
  | .comm9600bps => 0b11

/-- `BitWriter::WriteWord(value, 12)`. -/
def writeUint12 (value : BitVec 12) : BitWrite := .writeWord (value.setWidth 16) 12

def TransmitterTelemetry.write (t : TransmitterTelemetry) : List BitWrite :=
  [.writeQuadWord (BitVec.ofInt 64 t.uptime) 17,
    .writeWord t.transmitterBitRate.code 2,
    writeUint12 t.lastTransmittedRFReflectedPower,
    writeUint12 t.lastTransmittedAmplifierTemperature,
    writeUint12 t.lastTransmittedRFForwardPower,
    writeUint12 t.lastTransmittedTransmitterCurrentConsumption,
    writeUint12 t.nowRFForwardPower,
    writeUint12 t.nowTransmitterCurrentConsumption,
    .writeBool (decide (t.stateWhenIdle = .on)),
    .writeBool t.beaconState]

/-- `ReceiverTelemetry`. -/
structure ReceiverTelemetry where
  uptime : ℤ
  lastReceivedDopplerOffset : BitVec 12
  lastReceivedRSSI : BitVec 12
  nowDopplerOffset : BitVec 12
  nowReceiverCurrentConsumption : BitVec 12
  nowVoltage : BitVec 12
  nowOscilatorTemperature : BitVec 12
  nowAmplifierTemperature : BitVec 12
  nowRSSI : BitVec 12

def ReceiverTelemetry.write (t : ReceiverTelemetry) : List BitWrite :=
  [.writeQuadWord (BitVec.ofInt 64 t.uptime) 17,
    writeUint12 t.lastReceivedDopplerOffset,
    writeUint12 t.lastReceivedRSSI,
    writeUint12 t.nowDopplerOffset,
    writeUint12 t.nowReceiverCurrentConsumption,
    writeUint12 t.nowVoltage,
    writeUint12 t.nowOscilatorTemperature,
    writeUint12 t.nowAmplifierTemperature,
    writeUint12 t.nowRSSI]

/-- `CommTelemetry`. -/
structure CommTelemetry where
  transmitter : TransmitterTelemetry
  receiver : ReceiverTelemetry

def CommTelemetry.write (t : CommTelemetry) : List BitWrite := t.transmitter.write ++ t.receiver.write

/-- `MPPT_HK`. -/
structure MpptHk where
  solVolt : BitVec 12
  solCurr : BitVec 12
  solOutVolt : BitVec 12
  temperature : BitVec 12
  mpptState : BitVec 8

def MpptHk.write (t : MpptHk) : List BitWrite :=
  [writeBitValue t.solVolt, writeBitValue t.solCurr, writeBitValue t.solOutVolt,
    writeBitValue t.temperature, .writeWord (t.mpptState.setWidth 16) 3]

/-- `DISTR_HK`. -/
structure DistrHk where
  volt3V3 : BitVec 10
  curr3V3 : BitVec 10
  volt5V : BitVec 10
  curr5V : BitVec 10
  voltVbat : BitVec 10
  currVbat : BitVec 10
  lclState : BitVec 8
  lclFlagb : BitVec 8

def DistrHk.write (t : DistrHk) : List BitWrite :=
  [writeBitValue t.volt3V3, writeBitValue t.curr3V3, writeBitValue t.volt5V, writeBitValue t.curr5V,
    writeBitValue t.voltVbat, writeBitValue t.currVbat, .writeWord (t.lclState.setWidth 16) 7,
    .writeWord (t.lclFlagb.setWidth 16) 6]

/-- `BATCPrimaryState`. -/
structure BatcPrimaryState where
  voltA : BitVec 10
  chargeCurrent : BitVec 10
  dischargeCurrent : BitVec 10
  temperature : BitVec 10
  state : BitVec 8

def BatcPrimaryState.write (t : BatcPrimaryState) : List BitWrite :=
  [writeBitValue t.voltA, writeBitValue t.chargeCurrent, writeBitValue t.dischargeCurrent,
    writeBitValue t.temperature, .writeWord (t.state.setWidth 16) 3]

/-- `BatteryPackPrimaryState`. -/
structure BatteryPackPrimaryState where
  temperatureA : BitVec 13
  temperatureB : BitVec 13

def BatteryPackPrimaryState.write (t : BatteryPackPrimaryState) : List BitWrite :=
  [writeBitValue t.temperatureA, writeBitValue t.temperatureB]

/-- `OtherControllerState`. -/
structure OtherControllerState where
  volt3V3d : BitVec 10

def OtherControllerState.write (t : OtherControllerState) : List BitWrite := [writeBitValue t.volt3V3d]

/-- `ThisControllerState`. -/
structure ThisControllerState where
  powerCycleCount : BitVec 16
  temperature : BitVec 10
  suppTemp : BitVec 10
  uptime : BitVec 32
  safetyCounter : BitVec 8

def ThisControllerState.write (t : ThisControllerState) : List BitWrite :=
  [.write8 t.safetyCounter, .write16 t.powerCycleCount, .write32 t.uptime, writeBitValue t.temperature,
    writeBitValue t.suppTemp]

/-- `DCDC_HK`. -/
structure DcdcHk where
  temperature : BitVec 10

def DcdcHk.write (t : DcdcHk) : List BitWrite := [writeBitValue t.temperature]

/-- `ControllerATelemetry`. -/
structure ControllerATelemetry where
  mpptX : MpptHk
  mpptYPlus : MpptHk
  mpptYMinus : MpptHk
  distr : DistrHk
  batc : BatcPrimaryState
  bp : BatteryPackPrimaryState
  other : OtherControllerState
  current : ThisControllerState
  dcdc3V3 : DcdcHk
  dcdc5V : DcdcHk

def ControllerATelemetry.write (t : ControllerATelemetry) : List BitWrite :=
  t.mpptX.write ++ t.mpptYPlus.write ++ t.mpptYMinus.write ++ t.distr.write ++ t.batc.write ++
    t.bp.write ++ t.current.write ++ t.other.write ++ t.dcdc3V3.write ++ t.dcdc5V.write

/-- `BatteryPackSecondaryState`. -/
structure BatteryPackSecondaryState where
  temperatureC : BitVec 10

def BatteryPackSecondaryState.write (t : BatteryPackSecondaryState) : List BitWrite :=
  [writeBitValue t.temperatureC]

/-- `BATCSecondaryState`. -/
structure BatcSecondaryState where
  voltB : BitVec 10

def BatcSecondaryState.write (t : BatcSecondaryState) : List BitWrite := [writeBitValue t.voltB]

/-- `ControllerBTelemetry`. -/
structure ControllerBTelemetry where
  bp : BatteryPackSecondaryState
  batc : BatcSecondaryState
  other : OtherControllerState
  current : ThisControllerState

def ControllerBTelemetry.write (t : ControllerBTelemetry) : List BitWrite :=
  t.bp.write ++ t.batc.write ++ t.current.write ++ t.other.write

/-- `ImtqHousekeeping`. -/
structure ImtqHousekeeping where
  digitalVoltage : BitVec 16
  analogVoltage : BitVec 16
  digitalCurrent : BitVec 16
  analogCurrent : BitVec 16
  mcuTemperature : BitVec 16

def ImtqHousekeeping.write (t : ImtqHousekeeping) : List BitWrite :=
  [.write16 t.digitalVoltage, .write16 t.analogVoltage, .write16 t.digitalCurrent,
    .write16 t.analogCurrent, .write16 t.mcuTemperature]

/-- `ImtqState`, the uptime in seconds. -/
structure ImtqState where
  mode : BitVec 8
  errorCode : BitVec 8
  configurationUpdated : Bool
  uptime : ℤ

def ImtqState.write (t : ImtqState) : List BitWrite :=
  [.writeWord (t.mode.setWidth 16) 2, .write8 t.errorCode, .writeBool t.configurationUpdated,
    .write32 (BitVec.ofInt 32 t.uptime)]

/-- `ManagedTelemetry`, an instance of `Telemetry` with these elements. -/
structure ManagedTelemetry where
  systemStartup : SystemStartup
  programState : BitVec 16
  internalTime : InternalTimeTelemetry
  externalTime : ExternalTimeTelemetry
  errorCounting : ErrorCountingTelemetry
  flashPrimarySlotsScrubbing : BitVec 3
  flashSecondarySlotsScrubbing : BitVec 3
  ramScrubbing : BitVec 32
  osState : BitVec 22
  fileSystem : BitVec 32
  antenna : AntennaTelemetry
  experiment : ExperimentTelemetry
  gyroscope : GyroscopeTelemetry
  comm : CommTelemetry
  gpioState : Bool
  mcuTemperature : BitVec 12
  controllerA : ControllerATelemetry
  controllerB : ControllerBTelemetry
  imtqMagnetometerMeasurements : Fin 3 → BitVec 32
  imtqCoilsActive : Bool
  imtqDipoles : Fin 3 → BitVec 16
  imtqBDot : Fin 3 → BitVec 32
  imtqHousekeeping : ImtqHousekeeping
  imtqCoilCurrent : Fin 3 → BitVec 16
  imtqCoilTemperature : Fin 3 → BitVec 16
  imtqStatus : BitVec 8
  imtqState : ImtqState
  imtqSelfTest : Fin 8 → BitVec 8

/-- `Telemetry::WriteInternal`: the elements in the order of the type list. -/
def ManagedTelemetry.write (t : ManagedTelemetry) : List BitWrite :=
  List.flatten
    [t.systemStartup.write,
      [.write16 t.programState],
      t.internalTime.write,
      t.externalTime.write,
      t.errorCounting.write,
      [writeBitValue t.flashPrimarySlotsScrubbing],
      [writeBitValue t.flashSecondarySlotsScrubbing],
      [.write32 t.ramScrubbing],
      [writeBitValue32 t.osState],
      [.write32 t.fileSystem],
      t.antenna.write,
      t.experiment.write,
      t.gyroscope.write,
      t.comm.write,
      [.writeBool t.gpioState],
      [writeBitValue t.mcuTemperature],
      t.controllerA.write,
      t.controllerB.write,
      writeArray .write32 t.imtqMagnetometerMeasurements,
      [.writeBool t.imtqCoilsActive],
      writeArray .write16 t.imtqDipoles,
      writeArray .write32 t.imtqBDot,
      t.imtqHousekeeping.write,
      writeArray .write16 t.imtqCoilCurrent,
      writeArray .write16 t.imtqCoilTemperature,
      [.write8 t.imtqStatus],
      t.imtqState.write,
      writeArray .write8 t.imtqSelfTest]

end Telemetry

end PWSat2OBC
