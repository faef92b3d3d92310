import PWSat2OBC.Lib.Bits

/-!
# Beacon parser (`integration_tests/emulator/beacon_parser`)

The ground reads the beacon field by field. A field is a call of `CategoryParser.append` with
its name, its length, whether it is signed, and the type its value is converted to. The
conversions to physical units keep the number in `raw`; they are kept here where they change
that number or can raise.
-/

namespace PWSat2OBC

open Bits

namespace BeaconParser

/-- `BitReader`. -/
structure BitReader where
  bits : List Bool
  offset : ℕ

/-- `pad_bits`. -/
def padBits (bits : List Bool) (expectedLength : ℕ) : List Bool :=
  bits ++ List.replicate (expectedLength - bits.length) false

/-- The converter of `BitReader.get_converter`: `bits_to_byte`, `bits_to_word`,
`bits_to_dword` or `bits_to_qword`, all little endian. -/
def converter (length : ℕ) (bits : List Bool) : ℕ :=
  if length ≤ 8 then value (padBits bits 8)
  else if length ≤ 16 then value (padBits bits 16)
  else if length ≤ 32 then value (padBits bits 32)
  else value (padBits bits 64)

/-- `BitReader.read`. -/
def BitReader.read (r : BitReader) (length : ℕ) : Option ℕ × BitReader :=
  let slice := (r.bits.drop r.offset).take length
  if slice.length < length then (none, r)
  else (some (converter length slice), { r with offset := r.offset + length })

/-- `decode_two_complement`. -/
def decodeTwoComplement (val bits : ℕ) : ℤ :=
  if val &&& (1 <<< (bits - 1)) ≠ 0 then (val : ℤ) - (1 <<< bits : ℕ) else val

/-- What the store keeps of a value: its number, or a text. -/
inductive Value
  | number (n : ℤ)
  | text (s : String)
deriving DecidableEq, Repr

/-- What the type of a value does to its number. -/
inductive ValueType
  /-- The number is kept. -/
  | plain
  /-- A number out of range is replaced by `max`. -/
  | clamped (max : ℤ)
  /-- A `timedelta` of so many milliseconds: more than 999999999 days raise. -/
  | milliseconds
  /-- `MappedValue`. -/
  | mapped (map : List (ℤ × ℤ))
deriving DecidableEq, Repr

/-- The conversion, which is `none` where Python raises. -/
def ValueType.convert : ValueType → ℤ → Option Value
  | .plain, raw => some (.number raw)
  | .clamped max, raw => some (.number (if max < raw ∨ raw < 0 then max else raw))
  | .milliseconds, raw => if raw < 86400000 * 1000000000 then some (.number raw) else none
  | .mapped map, raw =>
    match map.lookup raw with
    | some n => some (.number n)
    | none => some (.text "None")

/-- `TimeFromMilliseconds`. -/
def timeFromMilliseconds : ValueType := .milliseconds
/-- `MPPTVoltage`. -/
def mpptVoltage : ValueType := .clamped 4095
/-- `MPPTCurrent`. -/
def mpptCurrent : ValueType := .clamped 4095
/-- `MPPTTemperature`. -/
def mpptTemperature : ValueType := .clamped 4095
/-- `DistributionVoltage`. -/
def distributionVoltage : ValueType := .clamped 1023
/-- `DistributionCurrent`. -/
def distributionCurrent : ValueType := .clamped 1023
/-- `LMT87Temperature`. -/
def lmt87Temperature : ValueType := .clamped 1023
/-- `Local3V3dVoltage`. -/
def local3V3dVoltage : ValueType := .clamped 1023
/-- `BATCVoltage`. -/
def batcVoltage : ValueType := .clamped 1023
/-- `PT1000Temperature`. -/
def pt1000Temperature : ValueType := .clamped 1023
/-- The map of the transmitter bit rates. -/
def bitrates : ValueType := .mapped [(0, 1200), (1, 2400), (2, 4800), (3, 9600)]

/-- The arguments of `CategoryParser.append`. -/
structure Field where
  name : String
  length : ℕ
  twoComplement : Bool
  valueType : ValueType

/-- A field whose number is kept. -/
def field (name : String) (length : ℕ) : Field := ⟨name, length, false, .plain⟩

/-- A field with `two_complement=True`. -/
def signed (name : String) (length : ℕ) : Field := ⟨name, length, true, .plain⟩

def converted (name : String) (length : ℕ) (valueType : ValueType) : Field :=
  ⟨name, length, false, valueType⟩

/-- `CategoryParser`: its category and the fields its `parse` appends. -/
structure CategoryParser where
  category : String
  fields : List Field

/-- An entry of `BeaconStorage`; the key holds the offset where the field starts. -/
structure Entry where
  category : String
  start : ℕ
  name : String
  value : Value
deriving DecidableEq, Repr

/-- `CategoryParser.append`. It is `none` where Python raises, and also where the bits run
out: there most types raise too. -/
def append (category : String) (f : Field) (reader : BitReader) : Option (Entry × BitReader) :=
  match reader.read f.length with
  | (none, _) => none
  | (some raw, reader') =>
    let number : ℤ := if f.twoComplement then decodeTwoComplement raw f.length else raw
    (f.valueType.convert number).map fun value =>
      (⟨category, reader'.offset - f.length, f.name, value⟩, reader')

/-- The `parse` of a category: its fields in order. -/
def parseFields (category : String) : List Field → BitReader → Option (List Entry × BitReader)
  | [], reader => some ([], reader)
  | f :: fs, reader => do
    let first ← append category f reader
    let rest ← parseFields category fs first.2
    return (first.1 :: rest.1, rest.2)

/-- The loop of `BitArrayParser.parse`. -/
def parseCategories : List CategoryParser → BitReader → Option (List Entry × BitReader)
  | [], reader => some ([], reader)
  | p :: ps, reader => do
    let first ← parseFields p.category p.fields reader
    let rest ← parseCategories ps first.2
    return (first.1 ++ rest.1, rest.2)

/-- `StartupParser`. -/
def startupParser : CategoryParser where
  category := "01: Startup"
  fields :=
    [field "Boot Counter" 32, field "Boot Index" 8, field "Boot Reason" 16]

/-- `ProgramStateParser`. -/
def programStateParser : CategoryParser where
  category := "02: Program State"
  fields :=
    [field "Program CRC" 16]

/-- `TimeState`. -/
def timeState : CategoryParser where
  category := "03: Time Telemetry"
  fields :=
    [converted "Mission time" 64 timeFromMilliseconds, field "External time" 32]

/-- `ErrorCountingTelemetry`. -/
def errorCountingTelemetry : CategoryParser where
  category := "04: Error Counters"
  fields :=
    [field "Comm" 8, field "EPS" 8, field "RTC" 8, field "IMTQ" 8, field "N25Q1" 8,
      field "N25Q2" 8, field "N25Q3" 8, field "N25q TMR" 8, field "FRAM TMR" 8, field "Payload" 8,
      field "Camera" 8, field "ExpSuns" 8, field "ANT Primary" 8, field "ANT Backup" 8]

/-- `ScrubbingTelemetryParser`. -/
def scrubbingTelemetryParser : CategoryParser where
  category := "05: Scrubbing State"
  fields :=
    [field "Primary Flash Scrubbing pointer" 3, field "Secondary Flash Scrubbing pointer" 3,
      field "RAM Scrubbing pointer" 32]

/-- `SystemParser`. -/
def systemParser : CategoryParser where
  category := "06: System"
  fields :=
    [field "Uptime" 22]

/-- `FileSystemTelemetryParser`. -/
def fileSystemTelemetryParser : CategoryParser where
  category := "07: File System"
  fields :=
    [field "Free Space" 32]

/-- `AntennaTelemetryParser`. -/
def antennaTelemetryParser : CategoryParser where
  category := "08: Antenna"
  fields :=
    [field "Antenna 1 Deployment Switch Ch A" 1, field "Antenna 2 Deployment Switch Ch A" 1,
      field "Antenna 3 Deployment Switch Ch A" 1, field "Antenna 4 Deployment Switch Ch A" 1,
      field "Antenna 1 Deployment Switch Ch B" 1, field "Antenna 2 Deployment Switch Ch B" 1,
      field "Antenna 3 Deployment Switch Ch B" 1, field "Antenna 4 Deployment Switch Ch B" 1,
      field "Antenna 1 Time Limit Reached Ch A" 1, field "Antenna 2 Time Limit Reached Ch A" 1,
      field "Antenna 3 Time Limit Reached Ch A" 1, field "Antenna 4 Time Limit Reached Ch A" 1,
      field "Antenna 1 Time Limit Reached Ch B" 1, field "Antenna 2 Time Limit Reached Ch B" 1,
      field "Antenna 3 Time Limit Reached Ch B" 1, field "Antenna 4 Time Limit Reached Ch B" 1,
      field "Antenna 1 Burn Active Ch A" 1, field "Antenna 2 Burn Active Ch A" 1,
      field "Antenna 3 Burn Active Ch A" 1, field "Antenna 4 Burn Active Ch A" 1,
      field "Antenna 1 Burn Active Ch B" 1, field "Antenna 2 Burn Active Ch B" 1,
      field "Antenna 3 Burn Active Ch B" 1, field "Antenna 4 Burn Active Ch B" 1,
      field "System Independent Burn Ch A" 1, field "System Independent Burn Ch B" 1,
      field "Ignoring Switches Ch A" 1, field "Ignoring Switches Ch B" 1, field "Armed Ch A" 1,
      field "Armed Ch B" 1, field "Antenna 1 Activation Count Ch A" 3,
      field "Antenna 2 Activation Count Ch A" 3, field "Antenna 3 Activation Count Ch A" 3,
      field "Antenna 4 Activation Count Ch A" 3, field "Antenna 1 Activation Count Ch B" 3,
      field "Antenna 2 Activation Count Ch B" 3, field "Antenna 3 Activation Count Ch B" 3,
      field "Antenna 4 Activation Count Ch B" 3, field "Antenna 1 Activation Time Ch A" 8,
      field "Antenna 2 Activation Time Ch A" 8, field "Antenna 3 Activation Time Ch A" 8,
      field "Antenna 4 Activation Time Ch A" 8, field "Antenna 1 Activation Time Ch B" 8,
      field "Antenna 2 Activation Time Ch B" 8, field "Antenna 3 Activation Time Ch B" 8,
      field "Antenna 4 Activation Time Ch B" 8]

/-- `ExperimentTelemetryParser`. -/
def experimentTelemetryParser : CategoryParser where
  category := "09: Experiments"
  fields :=
    [field "Current experiment code" 4, field "Experiment Startup Result" 8,
      field "Last Experiment Iteration Status" 8]

/-- `GyroscopeTelemetryParser`. -/
def gyroscopeTelemetryParser : CategoryParser where
  category := "10: Gyroscope"
  fields :=
    [signed "X measurement" 16, signed "Y measurement" 16, signed "Z measurement" 16,
      signed "Temperature" 16]

/-- `CommTelemetryParser`. -/
def commTelemetryParser : CategoryParser where
  category := "11: Comm"
  fields :=
    [field "Transmitter Uptime" 17, converted "Transmitter Bitrate" 2 bitrates,
      field "[Last transmission] RF Reflected Power" 12,
      field "[Last transmission] Power Amplifier Temperature" 12,
      field "[Last transmission] RF Forward Power" 12,
      field "[Last transmission] Transmitter Current" 12, field "[Now] RF Forward Power" 12,
      field "[Now] Transmitter Current" 12, field "Transmitter Idle State" 1,
      field "Beacon State" 1, field "Receiver Uptime" 17,
      field "[Last received] Doppler Offset" 12, field "[Last received] RSSI" 12,
      field "[Now] Doppler Offset" 12, field "[Now] Receiver Current" 12,
      field "[Now] Power Supply Voltage" 12, field "[Now] Oscillator Temperature" 12,
      field "[Now] Power Amplifier Temperature" 12, field "[Now] RSSI" 12]

/-- `GpioStateParser`. -/
def gpioStateParser : CategoryParser where
  category := "12: GPIO"
  fields :=
    [field "Sail Deployed" 1]

/-- `McuTemperatureParser`. -/
def mcuTemperatureParser : CategoryParser where
  category := "13: MCU"
  fields :=
    [field "Temperature" 12]

/-- `EPSControllerATelemetryParser`. -/
def epsControllerATelemetryParser : CategoryParser where
  category := "14: Controller A"
  fields :=
    [converted "MPPT_X.SOL_VOLT" 12 mpptVoltage, converted "MPPT_X.SOL_CURR" 12 mpptCurrent,
      converted "MPPT_X.SOL_OUT_VOLT" 12 mpptVoltage,
      converted "MPPT_X.Temperature" 12 mpptTemperature, field "MPPT_X.State" 3,
      converted "MPPT_Y+.SOL_VOLT" 12 mpptVoltage, converted "MPPT_Y+.SOL_CURR" 12 mpptCurrent,
      converted "MPPT_Y+.SOL_OUT_VOLT" 12 mpptVoltage,
      converted "MPPT_Y+.Temperature" 12 mpptTemperature, field "MPPT_Y+.State" 3,
      converted "MPPT_Y-.SOL_VOLT" 12 mpptVoltage, converted "MPPT_Y-.SOL_CURR" 12 mpptCurrent,
      converted "MPPT_Y-.SOL_OUT_VOLT" 12 mpptVoltage,
      converted "MPPT_Y-.Temperature" 12 mpptTemperature, field "MPPT_Y-.State" 3,
      converted "DISTR.VOLT_3V3" 10 distributionVoltage,
      converted "DISTR.CURR_3V3" 10 distributionCurrent,
      converted "DISTR.VOLT_5V" 10 distributionVoltage,
      converted "DISTR.CURR_5V" 10 distributionCurrent,
      converted "DISTR.VOLT_VBAT" 10 distributionVoltage,
      converted "DISTR.CURR_VBAT" 10 distributionCurrent, field "DISTR.LCL_STATE" 7,
      field "DISTR.LCL_FLAGS" 6, converted "BATC.VOLT_A" 10 batcVoltage,
      converted "BATC.CHRG_CURR" 10 distributionCurrent,
      converted "BATC.DCHRG_CURR" 10 distributionCurrent,
      converted "BATC.Temperature" 10 lmt87Temperature, field "BATC.State" 3,
      signed "BP.Temperature A" 13, signed "BP.Temperature B" 13, field "Safety Counter" 8,
      field "Power Cycle Count" 16, field "Uptime" 32, converted "Temperature" 10 lmt87Temperature,
      converted "SUPP_TEMP" 10 lmt87Temperature, converted "ControllerB.3V3d" 10 local3V3dVoltage,
      converted "DCDC3V3.Temperature" 10 lmt87Temperature,
      converted "DCDC5V.Temperature" 10 lmt87Temperature]

/-- `EPSControllerBTelemetryParser`. -/
def epsControllerBTelemetryParser : CategoryParser where
  category := "15: Controller B"
  fields :=
    [converted "BP.Temperature" 10 pt1000Temperature, converted "BATC.VOLT_B" 10 batcVoltage,
      field "Safety Counter" 8, field "Power Cycle Count" 16, field "Uptime" 32,
      converted "Temperature" 10 lmt87Temperature, converted "SUPP_TEMP" 10 lmt87Temperature,
      converted "ControllerA.3V3d" 10 local3V3dVoltage]

/-- `ImtqMagnetometersTelemetryParser`. -/
def imtqMagnetometersTelemetryParser : CategoryParser where
  category := "16: Imtq Magnetometers"
  fields :=
    [signed "Magnetometer Measurement 1" 32, signed "Magnetometer Measurement 2" 32,
      signed "Magnetometer Measurement 3" 32]

/-- `ImtqCoilActiveTelemetryParser`. -/
def imtqCoilActiveTelemetryParser : CategoryParser where
  category := "17: Imtq Coils Active"
  fields :=
    [field "Coils active during measurement" 1]

/-- `ImtqDipoleTelemetryParser`. -/
def imtqDipoleTelemetryParser : CategoryParser where
  category := "18: Imtq Dipole"
  fields :=
    [signed "Dipole 1" 16, signed "Dipole 2" 16, signed "Dipole 3" 16]

/-- `ImtqBDotTelemetryParser`. -/
def imtqBDotTelemetryParser : CategoryParser where
  category := "19: Imtq BDot"
  fields :=
    [signed "BDot 1" 32, signed "BDot 2" 32, signed "BDot 3" 32]

/-- `ImtqHousekeepingTelemetryParser`. -/
def imtqHousekeepingTelemetryParser : CategoryParser where
  category := "20: Imtq Housekeeping"
  fields :=
    [field "Digital Voltage" 16, field "Analog Voltage" 16, field "Digital Current" 16,
      field "Analog Current" 16, signed "MCU Temperature" 16]

/-- `ImtqCoilsTelemetryParser`. -/
def imtqCoilsTelemetryParser : CategoryParser where
  category := "21: Imtq Coils"
  fields :=
    [field "Coil Current 1" 16, field "Coil Current 2" 16, field "Coil Current 3" 16]

/-- `ImtqTemperatureTelemetryParser`. -/
def imtqTemperatureTelemetryParser : CategoryParser where
  category := "22: Imtq Temperature"
  fields :=
    [signed "Coil Temperature 1" 16, signed "Coil Temperature 2" 16, signed "Coil Temperature 3" 16]

/-- `ImtqStateTelemetryParser`. -/
def imtqStateTelemetryParser : CategoryParser where
  category := "23: Imtq State"
  fields :=
    [field "Status" 8, field "Mode" 2, field "Error during previous iteration" 8,
      field "Configuration changed" 1, field "Uptime" 32]

/-- `ImtqSelfTestTelemetryParser`. -/
def imtqSelfTestTelemetryParser : CategoryParser where
  category := "24: Imtq Self Test"
  fields :=
    [field "Error 1" 8, field "Error 2" 8, field "Error 3" 8, field "Error 4" 8, field "Error 5" 8,
      field "Error 6" 8, field "Error 7" 8, field "Error 8" 8]

/-- `FullBeaconParser.GetParsers`. -/
def fullBeaconParser : List CategoryParser :=
  [startupParser,
    programStateParser,
    timeState,
    errorCountingTelemetry,
    scrubbingTelemetryParser,
    systemParser,
    fileSystemTelemetryParser,
    antennaTelemetryParser,
    experimentTelemetryParser,
    gyroscopeTelemetryParser,
    commTelemetryParser,
    gpioStateParser,
    mcuTemperatureParser,
    epsControllerATelemetryParser,
    epsControllerBTelemetryParser,
    imtqMagnetometersTelemetryParser,
    imtqCoilActiveTelemetryParser,
    imtqDipoleTelemetryParser,
    imtqBDotTelemetryParser,
    imtqHousekeepingTelemetryParser,
    imtqCoilsTelemetryParser,
    imtqTemperatureTelemetryParser,
    imtqStateTelemetryParser,
    imtqSelfTestTelemetryParser]

/-- `BitArrayParser.parse`, with the reader at the end. -/
def parse (buffer : List (BitVec 8)) : Option (List Entry × BitReader) :=
  parseCategories fullBeaconParser ⟨ofWords buffer, 0⟩

end BeaconParser

end PWSat2OBC
