import Mathlib.Tactic
import PWSat2OBC.Lib.Chunks
import PWSat2OBC.Proof.BeaconParser
import PWSat2OBC.Proof.BitWriter
import PWSat2OBC.Spec.Telemetry

/-!
# The beacon on the ground

`ManagedTelemetry.fields` is what the ground should show. `Section` puts a category of the
parser beside the calls that write it and the fields it should show. `beacon_decodes_iff`: the
ground shows the telemetry that was sent exactly when it is `Decodable`.

The parser reads the currents of the IMTQ as unsigned words, the writer converts activation
times to 16 bits before it compares them with 255, and Python has no `timedelta` of more than
999999999 days.
-/

namespace PWSat2OBC

open Bits BeaconParser

namespace Telemetry

namespace ManagedTelemetry

variable (t : ManagedTelemetry)

/-- The fields fit the widths of the format. -/
structure Fits : Prop where
  internalTime : 0 ≤ t.internalTime.time ∧ t.internalTime.time < 2 ^ 64
  externalTime : 0 ≤ t.externalTime.time ∧ t.externalTime.time < 2 ^ 32
  activationTimes : ∀ c i, 0 ≤ (t.antenna.activationTimes c).times i
  transmitterUptime : 0 ≤ t.comm.transmitter.uptime ∧ t.comm.transmitter.uptime < 2 ^ 17
  receiverUptime : 0 ≤ t.comm.receiver.uptime ∧ t.comm.receiver.uptime < 2 ^ 17
  mpptX : t.controllerA.mpptX.mpptState.toNat < 2 ^ 3
  mpptYPlus : t.controllerA.mpptYPlus.mpptState.toNat < 2 ^ 3
  mpptYMinus : t.controllerA.mpptYMinus.mpptState.toNat < 2 ^ 3
  lclState : t.controllerA.distr.lclState.toNat < 2 ^ 7
  lclFlagb : t.controllerA.distr.lclFlagb.toNat < 2 ^ 6
  batcState : t.controllerA.batc.state.toNat < 2 ^ 3
  imtqMode : t.imtqState.mode.toNat < 2 ^ 2
  imtqUptime : 0 ≤ t.imtqState.uptime ∧ t.imtqState.uptime < 2 ^ 32

/-- An activation time whose half fits 16 bits, or is at least 255 in 16 bits. -/
def Unwrapped (time : ℤ) : Prop := time / 2 < 2 ^ 16 ∨ 255 ≤ time / 2 % 2 ^ 16

/-- The ground can read the telemetry: Python holds the mission time, no activation time wraps
to less than 255, and no current of the IMTQ is negative. -/
structure Decodable : Prop where
  missionTime : t.internalTime.time < 86400000 * 1000000000
  activationTimes : ∀ c i, Unwrapped ((t.antenna.activationTimes c).times i)
  digitalCurrent : 0 ≤ t.imtqHousekeeping.digitalCurrent.toInt
  analogCurrent : 0 ≤ t.imtqHousekeeping.analogCurrent.toInt
  coilCurrent : ∀ i, 0 ≤ (t.imtqCoilCurrent i).toInt

/-- An activation time in units of two seconds, saturated at 255. -/
def saturatedTime (time : ℤ) : ℤ := min 255 (time / 2)

/-- An activation count saturated at 7. -/
def saturatedCount (count : BitVec 8) : ℤ := (min count.toNat 7 : ℕ)

def bitrate : Bitrate → ℤ
  | .comm1200bps => 1200
  | .comm2400bps => 2400
  | .comm4800bps => 4800
  | .comm9600bps => 9600

/-- A flag as a number. -/
def flag (b : Bool) : ℤ := b.toNat

/-- A channel of the antenna telemetry. -/
def antennaFlags (status : BitVec 8) (label : String) : List (String × ℤ) :=
  [("Antenna 1 " ++ label ++ " Ch A", flag (status.getLsbD 0)),
    ("Antenna 2 " ++ label ++ " Ch A", flag (status.getLsbD 1)),
    ("Antenna 3 " ++ label ++ " Ch A", flag (status.getLsbD 2)),
    ("Antenna 4 " ++ label ++ " Ch A", flag (status.getLsbD 3)),
    ("Antenna 1 " ++ label ++ " Ch B", flag (status.getLsbD 4)),
    ("Antenna 2 " ++ label ++ " Ch B", flag (status.getLsbD 5)),
    ("Antenna 3 " ++ label ++ " Ch B", flag (status.getLsbD 6)),
    ("Antenna 4 " ++ label ++ " Ch B", flag (status.getLsbD 7))]

local instance twoChannels : NeZero 2 := Nat.instNeZeroSucc

def antennaFields (a : AntennaTelemetry) : List (String × ℤ) :=
  antennaFlags a.deployedStatus "Deployment Switch" ++
    antennaFlags a.timeReached "Time Limit Reached" ++
    antennaFlags a.burnStatus "Burn Active" ++
    [("System Independent Burn Ch A", flag ((a.channelStatuses 0).getLsbD 0)),
      ("System Independent Burn Ch B", flag ((a.channelStatuses 1).getLsbD 0)),
      ("Ignoring Switches Ch A", flag ((a.channelStatuses 0).getLsbD 1)),
      ("Ignoring Switches Ch B", flag ((a.channelStatuses 1).getLsbD 1)),
      ("Armed Ch A", flag ((a.channelStatuses 0).getLsbD 2)),
      ("Armed Ch B", flag ((a.channelStatuses 1).getLsbD 2)),
      ("Antenna 1 Activation Count Ch A", saturatedCount ((a.activationCounts 0).counts 0)),
      ("Antenna 2 Activation Count Ch A", saturatedCount ((a.activationCounts 0).counts 1)),
      ("Antenna 3 Activation Count Ch A", saturatedCount ((a.activationCounts 0).counts 2)),
      ("Antenna 4 Activation Count Ch A", saturatedCount ((a.activationCounts 0).counts 3)),
      ("Antenna 1 Activation Count Ch B", saturatedCount ((a.activationCounts 1).counts 0)),
      ("Antenna 2 Activation Count Ch B", saturatedCount ((a.activationCounts 1).counts 1)),
      ("Antenna 3 Activation Count Ch B", saturatedCount ((a.activationCounts 1).counts 2)),
      ("Antenna 4 Activation Count Ch B", saturatedCount ((a.activationCounts 1).counts 3)),
      ("Antenna 1 Activation Time Ch A", saturatedTime ((a.activationTimes 0).times 0)),
      ("Antenna 2 Activation Time Ch A", saturatedTime ((a.activationTimes 0).times 1)),
      ("Antenna 3 Activation Time Ch A", saturatedTime ((a.activationTimes 0).times 2)),
      ("Antenna 4 Activation Time Ch A", saturatedTime ((a.activationTimes 0).times 3)),
      ("Antenna 1 Activation Time Ch B", saturatedTime ((a.activationTimes 1).times 0)),
      ("Antenna 2 Activation Time Ch B", saturatedTime ((a.activationTimes 1).times 1)),
      ("Antenna 3 Activation Time Ch B", saturatedTime ((a.activationTimes 1).times 2)),
      ("Antenna 4 Activation Time Ch B", saturatedTime ((a.activationTimes 1).times 3))]

def transmitterFields (c : TransmitterTelemetry) : List (String × ℤ) :=
  [("Transmitter Uptime", c.uptime),
    ("Transmitter Bitrate", bitrate c.transmitterBitRate),
    ("[Last transmission] RF Reflected Power", c.lastTransmittedRFReflectedPower.toNat),
    ("[Last transmission] Power Amplifier Temperature", c.lastTransmittedAmplifierTemperature.toNat),
    ("[Last transmission] RF Forward Power", c.lastTransmittedRFForwardPower.toNat),
    ("[Last transmission] Transmitter Current", c.lastTransmittedTransmitterCurrentConsumption.toNat),
    ("[Now] RF Forward Power", c.nowRFForwardPower.toNat),
    ("[Now] Transmitter Current", c.nowTransmitterCurrentConsumption.toNat),
    ("Transmitter Idle State", flag (decide (c.stateWhenIdle = .on))),
    ("Beacon State", flag c.beaconState)]

def receiverFields (c : ReceiverTelemetry) : List (String × ℤ) :=
  [("Receiver Uptime", c.uptime),
    ("[Last received] Doppler Offset", c.lastReceivedDopplerOffset.toNat),
    ("[Last received] RSSI", c.lastReceivedRSSI.toNat),
    ("[Now] Doppler Offset", c.nowDopplerOffset.toNat),
    ("[Now] Receiver Current", c.nowReceiverCurrentConsumption.toNat),
    ("[Now] Power Supply Voltage", c.nowVoltage.toNat),
    ("[Now] Oscillator Temperature", c.nowOscilatorTemperature.toNat),
    ("[Now] Power Amplifier Temperature", c.nowAmplifierTemperature.toNat),
    ("[Now] RSSI", c.nowRSSI.toNat)]

def mpptFields (label : String) (m : MpptHk) : List (String × ℤ) :=
  [(label ++ ".SOL_VOLT", m.solVolt.toNat),
    (label ++ ".SOL_CURR", m.solCurr.toNat),
    (label ++ ".SOL_OUT_VOLT", m.solOutVolt.toNat),
    (label ++ ".Temperature", m.temperature.toNat),
    (label ++ ".State", m.mpptState.toNat)]

def thisControllerFields (c : ThisControllerState) : List (String × ℤ) :=
  [("Safety Counter", c.safetyCounter.toNat),
    ("Power Cycle Count", c.powerCycleCount.toNat),
    ("Uptime", c.uptime.toNat),
    ("Temperature", c.temperature.toNat),
    ("SUPP_TEMP", c.suppTemp.toNat)]

def controllerAFields (c : ControllerATelemetry) : List (String × ℤ) :=
  List.flatten
    [mpptFields "MPPT_X" c.mpptX, mpptFields "MPPT_Y+" c.mpptYPlus, mpptFields "MPPT_Y-" c.mpptYMinus,
      [("DISTR.VOLT_3V3", c.distr.volt3V3.toNat),
        ("DISTR.CURR_3V3", c.distr.curr3V3.toNat),
        ("DISTR.VOLT_5V", c.distr.volt5V.toNat),
        ("DISTR.CURR_5V", c.distr.curr5V.toNat),
        ("DISTR.VOLT_VBAT", c.distr.voltVbat.toNat),
        ("DISTR.CURR_VBAT", c.distr.currVbat.toNat),
        ("DISTR.LCL_STATE", c.distr.lclState.toNat),
        ("DISTR.LCL_FLAGS", c.distr.lclFlagb.toNat)],
      [("BATC.VOLT_A", c.batc.voltA.toNat),
        ("BATC.CHRG_CURR", c.batc.chargeCurrent.toNat),
        ("BATC.DCHRG_CURR", c.batc.dischargeCurrent.toNat),
        ("BATC.Temperature", c.batc.temperature.toNat),
        ("BATC.State", c.batc.state.toNat)],
      [("BP.Temperature A", c.bp.temperatureA.toInt), ("BP.Temperature B", c.bp.temperatureB.toInt)],
      thisControllerFields c.current,
      [("ControllerB.3V3d", c.other.volt3V3d.toNat),
        ("DCDC3V3.Temperature", c.dcdc3V3.temperature.toNat),
        ("DCDC5V.Temperature", c.dcdc5V.temperature.toNat)]]

def controllerBFields (c : ControllerBTelemetry) : List (String × ℤ) :=
  List.flatten
    [[("BP.Temperature", c.bp.temperatureC.toNat), ("BATC.VOLT_B", c.batc.voltB.toNat)],
      thisControllerFields c.current,
      [("ControllerA.3V3d", c.other.volt3V3d.toNat)]]

def errorFields (e : ErrorCountingTelemetry) : List (String × ℤ) :=
  [("Comm", (e.array 0).toNat), ("EPS", (e.array 1).toNat), ("RTC", (e.array 2).toNat),
    ("IMTQ", (e.array 3).toNat), ("N25Q1", (e.array 4).toNat), ("N25Q2", (e.array 5).toNat),
    ("N25Q3", (e.array 6).toNat), ("N25q TMR", (e.array 7).toNat), ("FRAM TMR", (e.array 8).toNat),
    ("Payload", (e.array 9).toNat), ("Camera", (e.array 10).toNat), ("ExpSuns", (e.array 11).toNat),
    ("ANT Primary", (e.array 12).toNat), ("ANT Backup", (e.array 13).toNat)]

/-- A category of the parser, the calls that write it, and the fields it should show. -/
structure Section where
  parser : CategoryParser
  writes : List BitWrite
  category : String
  fields : List (String × ℤ)

def sections : List Section :=
  [⟨startupParser, t.systemStartup.write, "01: Startup",
      [("Boot Counter", t.systemStartup.bootCounter.toNat),
        ("Boot Index", t.systemStartup.bootIndex.toNat),
        ("Boot Reason", t.systemStartup.bootReason.toNat)]⟩,
    ⟨programStateParser, [.write16 t.programState], "02: Program State",
      [("Program CRC", t.programState.toNat)]⟩,
    ⟨timeState, t.internalTime.write ++ t.externalTime.write, "03: Time Telemetry",
      [("Mission time", t.internalTime.time), ("External time", t.externalTime.time)]⟩,
    ⟨errorCountingTelemetry, t.errorCounting.write, "04: Error Counters", errorFields t.errorCounting⟩,
    ⟨scrubbingTelemetryParser,
      [writeBitValue t.flashPrimarySlotsScrubbing, writeBitValue t.flashSecondarySlotsScrubbing,
        .write32 t.ramScrubbing], "05: Scrubbing State",
      [("Primary Flash Scrubbing pointer", t.flashPrimarySlotsScrubbing.toNat),
        ("Secondary Flash Scrubbing pointer", t.flashSecondarySlotsScrubbing.toNat),
        ("RAM Scrubbing pointer", t.ramScrubbing.toNat)]⟩,
    ⟨systemParser, [writeBitValue32 t.osState], "06: System", [("Uptime", t.osState.toNat)]⟩,
    ⟨fileSystemTelemetryParser, [.write32 t.fileSystem], "07: File System",
      [("Free Space", t.fileSystem.toNat)]⟩,
    ⟨antennaTelemetryParser, t.antenna.write, "08: Antenna", antennaFields t.antenna⟩,
    ⟨experimentTelemetryParser, t.experiment.write, "09: Experiments",
      [("Current experiment code", t.experiment.currentExperiment.toNat),
        ("Experiment Startup Result", t.experiment.experimentStartResult.toNat),
        ("Last Experiment Iteration Status", t.experiment.experimentIterationResult.toNat)]⟩,
    ⟨gyroscopeTelemetryParser, t.gyroscope.write, "10: Gyroscope",
      [("X measurement", t.gyroscope.x.toInt), ("Y measurement", t.gyroscope.y.toInt),
        ("Z measurement", t.gyroscope.z.toInt), ("Temperature", t.gyroscope.temperature.toInt)]⟩,
    ⟨commTelemetryParser, t.comm.write, "11: Comm",
      transmitterFields t.comm.transmitter ++ receiverFields t.comm.receiver⟩,
    ⟨gpioStateParser, [.writeBool t.gpioState], "12: GPIO", [("Sail Deployed", flag t.gpioState)]⟩,
    ⟨mcuTemperatureParser, [writeBitValue t.mcuTemperature], "13: MCU",
      [("Temperature", t.mcuTemperature.toNat)]⟩,
    ⟨epsControllerATelemetryParser, t.controllerA.write, "14: Controller A",
      controllerAFields t.controllerA⟩,
    ⟨epsControllerBTelemetryParser, t.controllerB.write, "15: Controller B",
      controllerBFields t.controllerB⟩,
    ⟨imtqMagnetometersTelemetryParser, writeArray .write32 t.imtqMagnetometerMeasurements,
      "16: Imtq Magnetometers",
      [("Magnetometer Measurement 1", (t.imtqMagnetometerMeasurements 0).toInt),
        ("Magnetometer Measurement 2", (t.imtqMagnetometerMeasurements 1).toInt),
        ("Magnetometer Measurement 3", (t.imtqMagnetometerMeasurements 2).toInt)]⟩,
    ⟨imtqCoilActiveTelemetryParser, [.writeBool t.imtqCoilsActive], "17: Imtq Coils Active",
      [("Coils active during measurement", flag t.imtqCoilsActive)]⟩,
    ⟨imtqDipoleTelemetryParser, writeArray .write16 t.imtqDipoles, "18: Imtq Dipole",
      [("Dipole 1", (t.imtqDipoles 0).toInt), ("Dipole 2", (t.imtqDipoles 1).toInt),
        ("Dipole 3", (t.imtqDipoles 2).toInt)]⟩,
    ⟨imtqBDotTelemetryParser, writeArray .write32 t.imtqBDot, "19: Imtq BDot",
      [("BDot 1", (t.imtqBDot 0).toInt), ("BDot 2", (t.imtqBDot 1).toInt),
        ("BDot 3", (t.imtqBDot 2).toInt)]⟩,
    ⟨imtqHousekeepingTelemetryParser, t.imtqHousekeeping.write, "20: Imtq Housekeeping",
      [("Digital Voltage", t.imtqHousekeeping.digitalVoltage.toNat),
        ("Analog Voltage", t.imtqHousekeeping.analogVoltage.toNat),
        ("Digital Current", t.imtqHousekeeping.digitalCurrent.toInt),
        ("Analog Current", t.imtqHousekeeping.analogCurrent.toInt),
        ("MCU Temperature", t.imtqHousekeeping.mcuTemperature.toInt)]⟩,
    ⟨imtqCoilsTelemetryParser, writeArray .write16 t.imtqCoilCurrent, "21: Imtq Coils",
      [("Coil Current 1", (t.imtqCoilCurrent 0).toInt), ("Coil Current 2", (t.imtqCoilCurrent 1).toInt),
        ("Coil Current 3", (t.imtqCoilCurrent 2).toInt)]⟩,
    ⟨imtqTemperatureTelemetryParser, writeArray .write16 t.imtqCoilTemperature, "22: Imtq Temperature",
      [("Coil Temperature 1", (t.imtqCoilTemperature 0).toInt),
        ("Coil Temperature 2", (t.imtqCoilTemperature 1).toInt),
        ("Coil Temperature 3", (t.imtqCoilTemperature 2).toInt)]⟩,
    ⟨imtqStateTelemetryParser, .write8 t.imtqStatus :: t.imtqState.write, "23: Imtq State",
      [("Status", t.imtqStatus.toNat), ("Mode", t.imtqState.mode.toNat),
        ("Error during previous iteration", t.imtqState.errorCode.toNat),
        ("Configuration changed", flag t.imtqState.configurationUpdated),
        ("Uptime", t.imtqState.uptime)]⟩,
    ⟨imtqSelfTestTelemetryParser, writeArray .write8 t.imtqSelfTest, "24: Imtq Self Test",
      [("Error 1", (t.imtqSelfTest 0).toNat), ("Error 2", (t.imtqSelfTest 1).toNat),
        ("Error 3", (t.imtqSelfTest 2).toNat), ("Error 4", (t.imtqSelfTest 3).toNat),
        ("Error 5", (t.imtqSelfTest 4).toNat), ("Error 6", (t.imtqSelfTest 5).toNat),
        ("Error 7", (t.imtqSelfTest 6).toNat), ("Error 8", (t.imtqSelfTest 7).toNat)]⟩]

/-- What the ground should show of the telemetry. -/
def fields : List (String × String × Value) :=
  t.sections.flatMap fun s => s.fields.map fun f => (s.category, f.1, .number f.2)

theorem map_parser_sections : t.sections.map (·.parser) = fullBeaconParser := rfl

theorem sections_writes : t.sections.flatMap (·.writes) = t.write := by
  simp [sections, ManagedTelemetry.write]

/-- The names and the lengths of the section agree. -/
structure Section.Agrees (s : Section) : Prop where
  category : s.parser.category = s.category
  names : s.parser.fields.map (·.name) = s.fields.map (·.1)
  lengths : s.writes.map (·.bits.length) = s.parser.fields.map (·.length)
  within : (s.writes.all fun op => decide (op.bits.length ≤ op.width)) = true

/-- The parser, reading these calls, shows these numbers. -/
def Shows (fs : List Field) (ops : List BitWrite) (shown : List (String × ℤ)) : Prop :=
  List.zipWith (fun f op => decoded f op.bits) fs ops = shown.map fun x => some (.number x.2)

theorem sections_agree : ∀ s ∈ t.sections, s.Agrees := by
  intro s hs
  simp only [sections, List.mem_cons, List.not_mem_nil, or_false] at hs
  rcases hs with rfl | rfl | rfl | rfl | rfl | rfl | rfl | rfl | rfl | rfl | rfl | rfl | rfl | rfl |
    rfl | rfl | rfl | rfl | rfl | rfl | rfl | rfl | rfl | rfl <;>
    exact ⟨rfl, rfl, rfl, rfl⟩

section Values

@[simp] theorem value_write8 (v : BitVec 8) : value (BitWrite.bits (.write8 v)) = v.toNat :=
  value_bits_of_lt v.isLt

@[simp] theorem value_write16 (v : BitVec 16) : value (BitWrite.bits (.write16 v)) = v.toNat :=
  value_bits_of_lt v.isLt

@[simp] theorem value_write32 (v : BitVec 32) : value (BitWrite.bits (.write32 v)) = v.toNat :=
  value_bits_of_lt v.isLt

@[simp] theorem value_write64 (v : BitVec 64) : value (BitWrite.bits (.write64 v)) = v.toNat :=
  value_bits_of_lt v.isLt

@[simp] theorem value_writeBool (b : Bool) : value (BitWrite.bits (.writeBool b)) = b.toNat := by
  simp [BitWrite.bits, value]

theorem value_writeWord {v : BitVec 16} {length : BitVec 8} (h : v.toNat < 2 ^ length.toNat) :
    value (BitWrite.bits (.writeWord v length)) = v.toNat :=
  value_bits_of_lt h

/-- The value of a word that holds a shorter number. -/
theorem value_writeBitValue {n : ℕ} (v : BitVec n) (h : n ≤ 16) :
    value (writeBitValue v).bits = v.toNat := by
  have hn : (BitVec.ofNat 8 n).toNat = n := by
    rw [BitVec.toNat_ofNat]
    omega
  have hv : (v.setWidth 16).toNat = v.toNat := by
    rw [BitVec.toNat_setWidth]
    exact Nat.mod_eq_of_lt (lt_of_lt_of_le v.isLt (Nat.pow_le_pow_right (by omega) h))
  rw [writeBitValue, value_writeWord (by rw [hn, hv]; exact v.isLt), hv]

theorem value_writeBitValue32 (v : BitVec 22) : value (writeBitValue32 v).bits = v.toNat := by
  have hv : (v.setWidth 32).toNat = v.toNat := by
    rw [BitVec.toNat_setWidth]
    exact Nat.mod_eq_of_lt (lt_trans v.isLt (by omega))
  have hlt : (v.setWidth 32).toNat < 2 ^ (BitVec.ofNat 8 22).toNat := by
    rw [hv]
    exact v.isLt
  exact (value_bits_of_lt hlt).trans hv

end Values

section Shows

variable {fs gs : List Field} {ops ps : List BitWrite} {xs ys : List (String × ℤ)}

@[simp] theorem shows_nil : Shows [] [] [] := rfl

@[simp] theorem shows_cons {f : Field} {op : BitWrite} {x : String × ℤ} :
    Shows (f :: fs) (op :: ops) (x :: xs) ↔ decoded f op.bits = some (.number x.2) ∧ Shows fs ops xs :=
  List.cons_eq_cons

theorem shows_append (h1 : fs.length = ops.length) (h2 : fs.length = xs.length) :
    Shows (fs ++ gs) (ops ++ ps) (xs ++ ys) ↔ Shows fs ops xs ∧ Shows gs ps ys := by
  unfold Shows
  rw [List.zipWith_append h1, List.map_append]
  constructor
  · intro h
    exact List.append_inj h (by simp [h1, ← h2])
  · rintro ⟨hx, hy⟩
    rw [hx, hy]

/-- A section is read in two parts. -/
theorem shows_split (k : ℕ) (h1 : fs.length = ops.length) (h2 : fs.length = xs.length) :
    Shows fs ops xs ↔
      Shows (fs.take k) (ops.take k) (xs.take k) ∧ Shows (fs.drop k) (ops.drop k) (xs.drop k) := by
  have hops : (fs.take k).length = (ops.take k).length := by simp [h1]
  have hxs : (fs.take k).length = (xs.take k).length := by simp [h2]
  conv_lhs => rw [← List.take_append_drop k fs, ← List.take_append_drop k ops, ← List.take_append_drop k xs]
  exact shows_append hops hxs

/-- A first part that is shown can be left out. -/
theorem shows_of_take (k : ℕ) (h1 : fs.length = ops.length) (h2 : fs.length = xs.length)
    (h : Shows (fs.take k) (ops.take k) (xs.take k)) :
    Shows fs ops xs ↔ Shows (fs.drop k) (ops.drop k) (xs.drop k) := by
  rw [shows_split k h1 h2, and_iff_right h]

/-- The same in the middle of a section. -/
theorem shows_drop_of_take (i k : ℕ) (h1 : fs.length = ops.length) (h2 : fs.length = xs.length)
    (h : Shows ((fs.drop i).take k) ((ops.drop i).take k) ((xs.drop i).take k)) :
    Shows (fs.drop i) (ops.drop i) (xs.drop i) ↔
      Shows (fs.drop (i + k)) (ops.drop (i + k)) (xs.drop (i + k)) := by
  rw [shows_of_take k (by simp [h1]) (by simp [h2]) h, List.drop_drop, List.drop_drop, List.drop_drop]

end Shows

section Values

variable (name : String)

/-- A `BitValue` that is kept. -/
theorem decoded_bitValue {n : ℕ} (length : ℕ) (v : BitVec n) (h : n ≤ 16) :
    decoded (field name length) (writeBitValue v).bits = some (.number v.toNat) := by
  rw [decoded_field, value_writeBitValue v h]

/-- A `BitValue` in the range of its conversion. -/
theorem decoded_bitValue_clamped {n : ℕ} (length : ℕ) {max : ℤ} (v : BitVec n) (h : n ≤ 16)
    (hmax : (2 : ℤ) ^ n ≤ max + 1) :
    decoded (converted name length (.clamped max)) (writeBitValue v).bits = some (.number v.toNat) := by
  have hv : (v.toNat : ℤ) < 2 ^ n := by exact_mod_cast v.isLt
  rw [decoded_clamped, value_writeBitValue v h]
  rw [value_writeBitValue v h]
  omega

theorem decoded_uint12 (v : BitVec 12) :
    decoded (field name 12) (writeUint12 v).bits = some (.number v.toNat) :=
  decoded_bitValue name 12 v (by omega)

/-- A state or flags that fit fewer bits than their type has. -/
theorem decoded_state (length : ℕ) {v : BitVec 8} {l : BitVec 8} (h : v.toNat < 2 ^ l.toNat) :
    decoded (field name length) (BitWrite.bits (.writeWord (v.setWidth 16) l)) =
      some (.number v.toNat) := by
  have hv : (v.setWidth 16).toNat = v.toNat := by
    rw [BitVec.toNat_setWidth]
    have := v.isLt
    omega
  rw [decoded_field, value_writeWord (by rwa [hv]), hv]

/-- A duration that fits. -/
theorem toNat_ofInt_of_fits {n : ℕ} {t : ℤ} (h : 0 ≤ t ∧ t < 2 ^ n) :
    ((BitVec.ofInt n t).toNat : ℤ) = t := by
  rw [BitVec.toNat_ofInt, Int.toNat_of_nonneg (Int.emod_nonneg _ (by positivity))]
  push_cast
  exact Int.emod_eq_of_lt h.1 h.2

/-- An uptime in 17 bits. -/
theorem decoded_uptime {t : ℤ} (h : 0 ≤ t ∧ t < 2 ^ 17) :
    decoded (field name 17) (BitWrite.bits (.writeQuadWord (BitVec.ofInt 64 t) 17)) =
      some (.number t) := by
  have ht : ((BitVec.ofInt 64 t).toNat : ℤ) = t := toNat_ofInt_of_fits ⟨h.1, by omega⟩
  have hlt : (BitVec.ofInt 64 t).toNat < 2 ^ 17 := by omega
  have hv : value (BitWrite.bits (.writeQuadWord (BitVec.ofInt 64 t) 17)) = (BitVec.ofInt 64 t).toNat :=
    value_bits_of_lt hlt
  rw [decoded_field, hv, ht]

theorem decoded_signed_word (v : BitVec 16) :
    decoded (signed name 16) (BitWrite.bits (.write16 v)) = some (.number v.toInt) := by
  rw [decoded_signed, value_write16, decodeTwoComplement_toNat]

theorem decoded_signed_double_word (v : BitVec 32) :
    decoded (signed name 32) (BitWrite.bits (.write32 v)) = some (.number v.toInt) := by
  rw [decoded_signed, value_write32, decodeTwoComplement_toNat]

/-- A temperature of the battery pack. -/
theorem decoded_signed_bitValue (v : BitVec 13) :
    decoded (signed name 13) (writeBitValue v).bits = some (.number v.toInt) := by
  rw [decoded_signed, value_writeBitValue v (by omega), decodeTwoComplement_toNat]

/-- **A signed word that is read as unsigned** shows its value only if it is not negative. -/
theorem decoded_unsigned_word_iff (v : BitVec 16) :
    decoded (field name 16) (BitWrite.bits (.write16 v)) = some (.number v.toInt) ↔ 0 ≤ v.toInt := by
  have hv := v.isLt
  rw [decoded_field, value_write16, Option.some_inj, Value.number.injEq, BitVec.toInt_eq_toNat_cond]
  split <;> omega

theorem decoded_bitrate (b : Bitrate) :
    decoded (converted name 2 bitrates) (BitWrite.bits (.writeWord b.code 2)) =
      some (.number (bitrate b)) := by
  cases b <;> rfl

theorem decoded_flag (b : Bool) :
    decoded (field name 1) (BitWrite.bits (.writeBool b)) = some (.number (flag b)) := by
  rw [decoded_field, value_writeBool, flag]

/-- One flag of a channel. -/
theorem hasFlag_twoPow (v : BitVec 32) (i : ℕ) (h : i < 32) :
    hasFlag v (BitVec.twoPow 32 i) = v.getLsbD i := by
  rw [hasFlag, BitVec.and_twoPow]
  cases hv : v.getLsbD i with
  | true => simp
  | false =>
    have hne : (0#32 == BitVec.twoPow 32 i) = false := by
      rw [beq_eq_false_iff_ne]
      intro h0
      have hbit := congrArg (BitVec.getLsbD · i) h0
      simp [h] at hbit
    simpa using hne

/-- An activation count. -/
theorem decoded_count (v : BitVec 8) :
    decoded (field name 3) (BitWrite.bits (.writeWord (BitVec.ofNat 16 (min v.toNat 0b111)) 3)) =
      some (.number (saturatedCount v)) := by
  have hv : (BitVec.ofNat 16 (min v.toNat 0b111)).toNat = min v.toNat 7 := by
    rw [BitVec.toNat_ofNat]
    omega
  have hlt : (BitVec.ofNat 16 (min v.toNat 0b111)).toNat < 2 ^ (3 : BitVec 8).toNat := by
    rw [hv]
    show min v.toNat 7 < 8
    omega
  rw [decoded_field, value_writeWord hlt, hv, saturatedCount]

/-- **An activation time**: the half of it, seen through 16 bits. -/
theorem decoded_time_iff {t : ℤ} (h : 0 ≤ t) :
    decoded (field name 8)
        (BitWrite.bits (.writeWord (BitVec.ofNat 16 (min 255 (BitVec.ofInt 16 (t.tdiv 2)).toNat)) 8)) =
      some (.number (saturatedTime t)) ↔ Unwrapped t := by
  have hhalf : ((BitVec.ofInt 16 (t.tdiv 2)).toNat : ℤ) = t / 2 % 2 ^ 16 := by
    rw [BitVec.toNat_ofInt, Int.toNat_of_nonneg (Int.emod_nonneg _ (by positivity)),
      Int.tdiv_eq_ediv_of_nonneg h]
    rfl
  set half := (BitVec.ofInt 16 (t.tdiv 2)).toNat
  have hv : (BitVec.ofNat 16 (min 255 half)).toNat = min 255 half := by
    rw [BitVec.toNat_ofNat]
    omega
  have hlt : (BitVec.ofNat 16 (min 255 half)).toNat < 2 ^ (8 : BitVec 8).toNat := by
    rw [hv]
    show min 255 half < 256
    omega
  rw [decoded_field, value_writeWord hlt, hv, Option.some_inj, Value.number.injEq, saturatedTime,
    Unwrapped, ← hhalf]
  push_cast
  omega

end Values

section Sections

theorem startup_shows (s : SystemStartup) :
    Shows startupParser.fields s.write
      [("Boot Counter", s.bootCounter.toNat), ("Boot Index", s.bootIndex.toNat),
        ("Boot Reason", s.bootReason.toNat)] := by
  simp [startupParser, SystemStartup.write]

/-- The mission time must be one Python can hold. -/
theorem time_shows_iff (i : InternalTimeTelemetry) (e : ExternalTimeTelemetry)
    (hi : 0 ≤ i.time ∧ i.time < 2 ^ 64) (he : 0 ≤ e.time ∧ e.time < 2 ^ 32) :
    Shows timeState.fields (i.write ++ e.write)
        [("Mission time", i.time), ("External time", e.time)] ↔
      i.time < 86400000 * 1000000000 := by
  have hexternal : decoded (field "External time" 32) (BitWrite.bits (.write32 (BitVec.ofInt 32 e.time))) =
      some (.number e.time) := by
    rw [decoded_field, value_write32, toNat_ofInt_of_fits he]
  simp only [timeState, InternalTimeTelemetry.write, ExternalTimeTelemetry.write, List.cons_append,
    List.nil_append, shows_cons, shows_nil, and_true, hexternal, decoded_milliseconds, value_write64,
    toNat_ofInt_of_fits hi]
  split <;> simp_all

theorem errorCounting_shows (e : ErrorCountingTelemetry) :
    Shows errorCountingTelemetry.fields e.write (errorFields e) := by
  have hwrite : e.write = [.write8 (e.array 0), .write8 (e.array 1), .write8 (e.array 2),
      .write8 (e.array 3), .write8 (e.array 4), .write8 (e.array 5), .write8 (e.array 6),
      .write8 (e.array 7), .write8 (e.array 8), .write8 (e.array 9), .write8 (e.array 10),
      .write8 (e.array 11), .write8 (e.array 12), .write8 (e.array 13)] := rfl
  simp [errorCountingTelemetry, hwrite, errorFields]

/-- Eight flags. -/
theorem flags_shows (status : BitVec 8) (label n0 n1 n2 n3 n4 n5 n6 n7 : String) :
    Shows [field n0 1, field n1 1, field n2 1, field n3 1, field n4 1, field n5 1, field n6 1, field n7 1]
      (writeBitset status) (antennaFlags status label) := by
  have hwrite : writeBitset status = [.writeBool (status.getLsbD 0), .writeBool (status.getLsbD 1),
      .writeBool (status.getLsbD 2), .writeBool (status.getLsbD 3), .writeBool (status.getLsbD 4),
      .writeBool (status.getLsbD 5), .writeBool (status.getLsbD 6), .writeBool (status.getLsbD 7)] := rfl
  simp only [hwrite, antennaFlags, shows_cons, shows_nil, decoded_flag, and_self]

theorem counts_shows (c : ActivationCounts) (n0 n1 n2 n3 m0 m1 m2 m3 : String) :
    Shows [field n0 3, field n1 3, field n2 3, field n3 3] c.write
      [(m0, saturatedCount (c.counts 0)), (m1, saturatedCount (c.counts 1)),
        (m2, saturatedCount (c.counts 2)), (m3, saturatedCount (c.counts 3))] :=
  shows_cons.2 ⟨decoded_count n0 _, shows_cons.2 ⟨decoded_count n1 _,
    shows_cons.2 ⟨decoded_count n2 _, shows_cons.2 ⟨decoded_count n3 _, shows_nil⟩⟩⟩⟩

theorem times_shows_iff (c : ActivationTimes) (n0 n1 n2 n3 m0 m1 m2 m3 : String)
    (h : ∀ i, 0 ≤ c.times i) :
    Shows [field n0 8, field n1 8, field n2 8, field n3 8] c.write
        [(m0, saturatedTime (c.times 0)), (m1, saturatedTime (c.times 1)),
          (m2, saturatedTime (c.times 2)), (m3, saturatedTime (c.times 3))] ↔
      ∀ i, Unwrapped (c.times i) := by
  have hwrite : c.write = [0, 1, 2, 3].map fun i : Fin 4 =>
      .writeWord (BitVec.ofNat 16 (min 255 (BitVec.ofInt 16 ((c.times i).tdiv 2)).toNat)) 8 := rfl
  simp only [hwrite, List.map_cons, List.map_nil, shows_cons, shows_nil, decoded_time_iff _ (h _),
    Fin.forall_fin_succ]
  simp

theorem status_shows (a : AntennaTelemetry) (n0 n1 n2 n3 n4 n5 m0 m1 m2 m3 m4 m5 : String) :
    Shows [field n0 1, field n1 1, field n2 1, field n3 1, field n4 1, field n5 1]
      [.writeBool (hasFlag (a.channelStatuses 0) ChannelStatus.independentBurn),
        .writeBool (hasFlag (a.channelStatuses 1) ChannelStatus.independentBurn),
        .writeBool (hasFlag (a.channelStatuses 0) ChannelStatus.ignoringSwitches),
        .writeBool (hasFlag (a.channelStatuses 1) ChannelStatus.ignoringSwitches),
        .writeBool (hasFlag (a.channelStatuses 0) ChannelStatus.armed),
        .writeBool (hasFlag (a.channelStatuses 1) ChannelStatus.armed)]
      [(m0, flag ((a.channelStatuses 0).getLsbD 0)), (m1, flag ((a.channelStatuses 1).getLsbD 0)),
        (m2, flag ((a.channelStatuses 0).getLsbD 1)), (m3, flag ((a.channelStatuses 1).getLsbD 1)),
        (m4, flag ((a.channelStatuses 0).getLsbD 2)), (m5, flag ((a.channelStatuses 1).getLsbD 2))] := by
  have h0 : ChannelStatus.independentBurn = BitVec.twoPow 32 0 := rfl
  have h1 : ChannelStatus.ignoringSwitches = BitVec.twoPow 32 1 := rfl
  have h2 : ChannelStatus.armed = BitVec.twoPow 32 2 := rfl
  simp only [h0, h1, h2, shows_cons, shows_nil, decoded_flag, hasFlag_twoPow _ _ (show 0 < 32 by omega),
    hasFlag_twoPow _ _ (show 1 < 32 by omega), hasFlag_twoPow _ _ (show 2 < 32 by omega), and_self]

/-- The antennas: everything but the activation times is shown. -/
theorem antenna_shows_iff (a : AntennaTelemetry) (h : ∀ c i, 0 ≤ (a.activationTimes c).times i) :
    Shows antennaTelemetryParser.fields a.write (antennaFields a) ↔
      ∀ c i, Unwrapped ((a.activationTimes c).times i) := by
  have h1 : antennaTelemetryParser.fields.length = a.write.length := rfl
  have h2 : antennaTelemetryParser.fields.length = (antennaFields a).length := rfl
  rw [shows_of_take 8 h1 h2 ?deployed, shows_drop_of_take 8 8 h1 h2 ?limit,
    shows_drop_of_take 16 8 h1 h2 ?burn, shows_drop_of_take 24 6 h1 h2 ?status,
    shows_drop_of_take 30 4 h1 h2 ?countsA, shows_drop_of_take 34 4 h1 h2 ?countsB]
  case deployed => exact flags_shows a.deployedStatus _ _ _ _ _ _ _ _ _
  case limit => exact flags_shows a.timeReached _ _ _ _ _ _ _ _ _
  case burn => exact flags_shows a.burnStatus _ _ _ _ _ _ _ _ _
  case status => exact status_shows a _ _ _ _ _ _ _ _ _ _ _ _
  case countsA => exact counts_shows (a.activationCounts 0) _ _ _ _ _ _ _ _
  case countsB => exact counts_shows (a.activationCounts 1) _ _ _ _ _ _ _ _
  rw [shows_split 4 rfl rfl, Fin.forall_fin_two]
  exact and_congr (times_shows_iff (a.activationTimes 0) _ _ _ _ _ _ _ _ (h 0))
    (times_shows_iff (a.activationTimes 1) _ _ _ _ _ _ _ _ (h 1))

theorem experiment_shows (e : ExperimentTelemetry) :
    Shows experimentTelemetryParser.fields e.write
      [("Current experiment code", e.currentExperiment.toNat),
        ("Experiment Startup Result", e.experimentStartResult.toNat),
        ("Last Experiment Iteration Status", e.experimentIterationResult.toNat)] := by
  simp [experimentTelemetryParser, ExperimentTelemetry.write, value_writeBitValue]

theorem gyroscope_shows (g : GyroscopeTelemetry) :
    Shows gyroscopeTelemetryParser.fields g.write
      [("X measurement", g.x.toInt), ("Y measurement", g.y.toInt), ("Z measurement", g.z.toInt),
        ("Temperature", g.temperature.toInt)] := by
  simp only [gyroscopeTelemetryParser, GyroscopeTelemetry.write, shows_cons, shows_nil,
    decoded_signed_word, and_self]

theorem comm_shows (c : CommTelemetry) (ht : 0 ≤ c.transmitter.uptime ∧ c.transmitter.uptime < 2 ^ 17)
    (hr : 0 ≤ c.receiver.uptime ∧ c.receiver.uptime < 2 ^ 17) :
    Shows commTelemetryParser.fields c.write
      (transmitterFields c.transmitter ++ receiverFields c.receiver) := by
  simp only [commTelemetryParser, CommTelemetry.write, TransmitterTelemetry.write,
    ReceiverTelemetry.write, transmitterFields, receiverFields, List.cons_append, List.nil_append,
    shows_cons, shows_nil, decoded_uint12, decoded_flag, decoded_bitrate, decoded_uptime _ ht,
    decoded_uptime _ hr, and_self]

theorem mppt_shows (m : MpptHk) (label n0 n1 n2 n3 n4 : String) (h : m.mpptState.toNat < 2 ^ 3) :
    Shows [converted n0 12 mpptVoltage, converted n1 12 mpptCurrent, converted n2 12 mpptVoltage,
      converted n3 12 mpptTemperature, field n4 3] m.write (mpptFields label m) := by
  simp only [MpptHk.write, mpptFields, mpptVoltage, mpptCurrent, mpptTemperature, shows_cons, shows_nil,
    decoded_bitValue_clamped _ 12 _ (show 12 ≤ 16 by omega) (show (2 : ℤ) ^ 12 ≤ 4095 + 1 by norm_num),
    decoded_state _ _ (show m.mpptState.toNat < 2 ^ (3 : BitVec 8).toNat from h), and_self]

theorem distr_shows (d : DistrHk) (hs : d.lclState.toNat < 2 ^ 7) (hf : d.lclFlagb.toNat < 2 ^ 6)
    (n0 n1 n2 n3 n4 n5 n6 n7 m0 m1 m2 m3 m4 m5 m6 m7 : String) :
    Shows [converted n0 10 distributionVoltage, converted n1 10 distributionCurrent,
        converted n2 10 distributionVoltage, converted n3 10 distributionCurrent,
        converted n4 10 distributionVoltage, converted n5 10 distributionCurrent, field n6 7, field n7 6]
      d.write
      [(m0, d.volt3V3.toNat), (m1, d.curr3V3.toNat), (m2, d.volt5V.toNat), (m3, d.curr5V.toNat),
        (m4, d.voltVbat.toNat), (m5, d.currVbat.toNat), (m6, d.lclState.toNat),
        (m7, d.lclFlagb.toNat)] := by
  simp only [DistrHk.write, distributionVoltage, distributionCurrent, shows_cons, shows_nil,
    decoded_bitValue_clamped _ 10 _ (show 10 ≤ 16 by omega) (show (2 : ℤ) ^ 10 ≤ 1023 + 1 by norm_num),
    decoded_state _ _ (show d.lclState.toNat < 2 ^ (7 : BitVec 8).toNat from hs),
    decoded_state _ _ (show d.lclFlagb.toNat < 2 ^ (6 : BitVec 8).toNat from hf), and_self]

theorem batc_shows (b : BatcPrimaryState) (h : b.state.toNat < 2 ^ 3)
    (n0 n1 n2 n3 n4 m0 m1 m2 m3 m4 : String) :
    Shows [converted n0 10 batcVoltage, converted n1 10 distributionCurrent,
        converted n2 10 distributionCurrent, converted n3 10 lmt87Temperature, field n4 3]
      b.write
      [(m0, b.voltA.toNat), (m1, b.chargeCurrent.toNat), (m2, b.dischargeCurrent.toNat),
        (m3, b.temperature.toNat), (m4, b.state.toNat)] := by
  simp only [BatcPrimaryState.write, batcVoltage, distributionCurrent, lmt87Temperature, shows_cons,
    shows_nil,
    decoded_bitValue_clamped _ 10 _ (show 10 ≤ 16 by omega) (show (2 : ℤ) ^ 10 ≤ 1023 + 1 by norm_num),
    decoded_state _ _ (show b.state.toNat < 2 ^ (3 : BitVec 8).toNat from h), and_self]

theorem thisController_shows (c : ThisControllerState) (n0 n1 n2 n3 n4 : String) :
    Shows [field n0 8, field n1 16, field n2 32, converted n3 10 lmt87Temperature,
      converted n4 10 lmt87Temperature] c.write (thisControllerFields c) := by
  simp only [ThisControllerState.write, thisControllerFields, lmt87Temperature, shows_cons, shows_nil,
    decoded_field, value_write8, value_write16, value_write32,
    decoded_bitValue_clamped _ 10 _ (show 10 ≤ 16 by omega) (show (2 : ℤ) ^ 10 ≤ 1023 + 1 by norm_num),
    and_self]

theorem controllerA_shows (c : ControllerATelemetry) (hx : c.mpptX.mpptState.toNat < 2 ^ 3)
    (hp : c.mpptYPlus.mpptState.toNat < 2 ^ 3) (hm : c.mpptYMinus.mpptState.toNat < 2 ^ 3)
    (hs : c.distr.lclState.toNat < 2 ^ 7) (hf : c.distr.lclFlagb.toNat < 2 ^ 6)
    (hb : c.batc.state.toNat < 2 ^ 3) :
    Shows epsControllerATelemetryParser.fields c.write (controllerAFields c) := by
  have h1 : epsControllerATelemetryParser.fields.length = c.write.length := rfl
  have h2 : epsControllerATelemetryParser.fields.length = (controllerAFields c).length := rfl
  rw [shows_of_take 5 h1 h2 ?x, shows_drop_of_take 5 5 h1 h2 ?yPlus, shows_drop_of_take 10 5 h1 h2 ?yMinus,
    shows_drop_of_take 15 8 h1 h2 ?distr, shows_drop_of_take 23 5 h1 h2 ?batc,
    shows_drop_of_take 28 2 h1 h2 ?bp, shows_drop_of_take 30 5 h1 h2 ?current]
  case x => exact mppt_shows c.mpptX _ _ _ _ _ _ hx
  case yPlus => exact mppt_shows c.mpptYPlus _ _ _ _ _ _ hp
  case yMinus => exact mppt_shows c.mpptYMinus _ _ _ _ _ _ hm
  case distr => exact distr_shows c.distr hs hf _ _ _ _ _ _ _ _ _ _ _ _ _ _ _ _
  case batc => exact batc_shows c.batc hb _ _ _ _ _ _ _ _ _ _
  case bp =>
    exact shows_cons.2 ⟨decoded_signed_bitValue _ c.bp.temperatureA,
      shows_cons.2 ⟨decoded_signed_bitValue _ c.bp.temperatureB, shows_nil⟩⟩
  case current => exact thisController_shows c.current _ _ _ _ _
  have hclamped : ∀ (name : String) (v : BitVec 10),
      decoded (converted name 10 (.clamped 1023)) (writeBitValue v).bits = some (.number v.toNat) :=
    fun name v => decoded_bitValue_clamped name 10 v (by omega) (by norm_num)
  exact shows_cons.2 ⟨hclamped _ c.other.volt3V3d, shows_cons.2 ⟨hclamped _ c.dcdc3V3.temperature,
    shows_cons.2 ⟨hclamped _ c.dcdc5V.temperature, shows_nil⟩⟩⟩

theorem controllerB_shows (c : ControllerBTelemetry) :
    Shows epsControllerBTelemetryParser.fields c.write (controllerBFields c) := by
  have hclamped : ∀ (name : String) (v : BitVec 10),
      decoded (converted name 10 (.clamped 1023)) (writeBitValue v).bits = some (.number v.toNat) :=
    fun name v => decoded_bitValue_clamped name 10 v (by omega) (by norm_num)
  rw [shows_of_take 2 rfl rfl ?bp, shows_of_take 5 rfl rfl ?current]
  case bp =>
    exact shows_cons.2 ⟨hclamped _ c.bp.temperatureC, shows_cons.2 ⟨hclamped _ c.batc.voltB, shows_nil⟩⟩
  case current => exact thisController_shows c.current _ _ _ _ _
  exact shows_cons.2 ⟨hclamped _ c.other.volt3V3d, shows_nil⟩

/-- The currents of the housekeeping must not be negative. -/
theorem imtqHousekeeping_shows_iff (k : ImtqHousekeeping) :
    Shows imtqHousekeepingTelemetryParser.fields k.write
        [("Digital Voltage", k.digitalVoltage.toNat), ("Analog Voltage", k.analogVoltage.toNat),
          ("Digital Current", k.digitalCurrent.toInt), ("Analog Current", k.analogCurrent.toInt),
          ("MCU Temperature", k.mcuTemperature.toInt)] ↔
      0 ≤ k.digitalCurrent.toInt ∧ 0 ≤ k.analogCurrent.toInt := by
  have hvoltage : ∀ (name : String) (v : BitVec 16),
      decoded (field name 16) (BitWrite.bits (.write16 v)) = some (.number v.toNat) := by
    intro name v
    rw [decoded_field, value_write16]
  simp only [imtqHousekeepingTelemetryParser, ImtqHousekeeping.write, shows_cons, shows_nil,
    hvoltage _ k.digitalVoltage, hvoltage _ k.analogVoltage, decoded_unsigned_word_iff,
    decoded_signed_word, and_true, true_and]

/-- So must the currents of the coils. -/
theorem imtqCoils_shows_iff (a : Fin 3 → BitVec 16) :
    Shows imtqCoilsTelemetryParser.fields (writeArray .write16 a)
        [("Coil Current 1", (a 0).toInt), ("Coil Current 2", (a 1).toInt),
          ("Coil Current 3", (a 2).toInt)] ↔
      ∀ i, 0 ≤ (a i).toInt := by
  have hwrite : writeArray .write16 a = [.write16 (a 0), .write16 (a 1), .write16 (a 2)] := rfl
  have hall : (∀ i, 0 ≤ (a i).toInt) ↔ 0 ≤ (a 0).toInt ∧ 0 ≤ (a 1).toInt ∧ 0 ≤ (a 2).toInt := by
    simp [Fin.forall_fin_succ]
  rw [hwrite, hall]
  simp only [imtqCoilsTelemetryParser, shows_cons, shows_nil, decoded_unsigned_word_iff, and_true]

/-- Three signed words. -/
theorem signedWords_shows (a : Fin 3 → BitVec 16) (n0 n1 n2 m0 m1 m2 : String) :
    Shows [signed n0 16, signed n1 16, signed n2 16] (writeArray .write16 a)
      [(m0, (a 0).toInt), (m1, (a 1).toInt), (m2, (a 2).toInt)] := by
  have hwrite : writeArray .write16 a = [.write16 (a 0), .write16 (a 1), .write16 (a 2)] := rfl
  simp only [hwrite, shows_cons, shows_nil, decoded_signed_word, and_self]

/-- Three signed double words. -/
theorem signedDoubleWords_shows (a : Fin 3 → BitVec 32) (n0 n1 n2 m0 m1 m2 : String) :
    Shows [signed n0 32, signed n1 32, signed n2 32] (writeArray .write32 a)
      [(m0, (a 0).toInt), (m1, (a 1).toInt), (m2, (a 2).toInt)] := by
  have hwrite : writeArray .write32 a = [.write32 (a 0), .write32 (a 1), .write32 (a 2)] := rfl
  simp only [hwrite, shows_cons, shows_nil, decoded_signed_double_word, and_self]

theorem imtqMagnetometers_shows (a : Fin 3 → BitVec 32) :
    Shows imtqMagnetometersTelemetryParser.fields (writeArray .write32 a)
      [("Magnetometer Measurement 1", (a 0).toInt), ("Magnetometer Measurement 2", (a 1).toInt),
        ("Magnetometer Measurement 3", (a 2).toInt)] :=
  signedDoubleWords_shows a _ _ _ _ _ _

theorem imtqBDot_shows (a : Fin 3 → BitVec 32) :
    Shows imtqBDotTelemetryParser.fields (writeArray .write32 a)
      [("BDot 1", (a 0).toInt), ("BDot 2", (a 1).toInt), ("BDot 3", (a 2).toInt)] :=
  signedDoubleWords_shows a _ _ _ _ _ _

theorem imtqDipole_shows (a : Fin 3 → BitVec 16) :
    Shows imtqDipoleTelemetryParser.fields (writeArray .write16 a)
      [("Dipole 1", (a 0).toInt), ("Dipole 2", (a 1).toInt), ("Dipole 3", (a 2).toInt)] :=
  signedWords_shows a _ _ _ _ _ _

theorem imtqTemperature_shows (a : Fin 3 → BitVec 16) :
    Shows imtqTemperatureTelemetryParser.fields (writeArray .write16 a)
      [("Coil Temperature 1", (a 0).toInt), ("Coil Temperature 2", (a 1).toInt),
        ("Coil Temperature 3", (a 2).toInt)] :=
  signedWords_shows a _ _ _ _ _ _

theorem imtqState_shows (status : BitVec 8) (i : ImtqState) (hm : i.mode.toNat < 2 ^ 2)
    (hu : 0 ≤ i.uptime ∧ i.uptime < 2 ^ 32) :
    Shows imtqStateTelemetryParser.fields (.write8 status :: i.write)
      [("Status", status.toNat), ("Mode", i.mode.toNat),
        ("Error during previous iteration", i.errorCode.toNat),
        ("Configuration changed", flag i.configurationUpdated), ("Uptime", i.uptime)] := by
  simp only [imtqStateTelemetryParser, ImtqState.write, shows_cons, shows_nil,
    decoded_state _ _ (show i.mode.toNat < 2 ^ (2 : BitVec 8).toNat from hm), decoded_field,
    value_write8, value_write32, value_writeBool, flag, toNat_ofInt_of_fits hu, and_self]

theorem imtqSelfTest_shows (a : Fin 8 → BitVec 8) :
    Shows imtqSelfTestTelemetryParser.fields (writeArray .write8 a)
      [("Error 1", (a 0).toNat), ("Error 2", (a 1).toNat), ("Error 3", (a 2).toNat),
        ("Error 4", (a 3).toNat), ("Error 5", (a 4).toNat), ("Error 6", (a 5).toNat),
        ("Error 7", (a 6).toNat), ("Error 8", (a 7).toNat)] := by
  have hwrite : writeArray .write8 a = [.write8 (a 0), .write8 (a 1), .write8 (a 2), .write8 (a 3),
      .write8 (a 4), .write8 (a 5), .write8 (a 6), .write8 (a 7)] := rfl
  simp [imtqSelfTestTelemetryParser, hwrite]

end Sections

/-- **The sections** are all shown exactly when the telemetry is decodable. -/
theorem sections_show_iff (h : t.Fits) :
    (∀ s ∈ t.sections, Shows s.parser.fields s.writes s.fields) ↔ t.Decodable := by
  have hprogram : Shows programStateParser.fields [.write16 t.programState]
      [("Program CRC", t.programState.toNat)] := by
    simp [programStateParser]
  have hscrubbing : Shows scrubbingTelemetryParser.fields
      [writeBitValue t.flashPrimarySlotsScrubbing, writeBitValue t.flashSecondarySlotsScrubbing,
        .write32 t.ramScrubbing]
      [("Primary Flash Scrubbing pointer", t.flashPrimarySlotsScrubbing.toNat),
        ("Secondary Flash Scrubbing pointer", t.flashSecondarySlotsScrubbing.toNat),
        ("RAM Scrubbing pointer", t.ramScrubbing.toNat)] := by
    simp [scrubbingTelemetryParser, value_writeBitValue]
  have hsystem : Shows systemParser.fields [writeBitValue32 t.osState] [("Uptime", t.osState.toNat)] := by
    simp [systemParser, value_writeBitValue32]
  have hfiles : Shows fileSystemTelemetryParser.fields [.write32 t.fileSystem]
      [("Free Space", t.fileSystem.toNat)] := by
    simp [fileSystemTelemetryParser]
  have hgpio : Shows gpioStateParser.fields [.writeBool t.gpioState]
      [("Sail Deployed", flag t.gpioState)] := by
    simp [gpioStateParser, flag]
  have hmcu : Shows mcuTemperatureParser.fields [writeBitValue t.mcuTemperature]
      [("Temperature", t.mcuTemperature.toNat)] := by
    simp [mcuTemperatureParser, value_writeBitValue]
  have hactive : Shows imtqCoilActiveTelemetryParser.fields [.writeBool t.imtqCoilsActive]
      [("Coils active during measurement", flag t.imtqCoilsActive)] := by
    simp [imtqCoilActiveTelemetryParser, flag]
  simp only [sections, List.forall_mem_cons, List.not_mem_nil, false_imp_iff, implies_true, and_true,
    startup_shows, hprogram, time_shows_iff _ _ h.internalTime h.externalTime, errorCounting_shows,
    hscrubbing, hsystem, hfiles, antenna_shows_iff _ h.activationTimes, experiment_shows,
    gyroscope_shows, comm_shows _ h.transmitterUptime h.receiverUptime, hgpio, hmcu,
    controllerA_shows _ h.mpptX h.mpptYPlus h.mpptYMinus h.lclState h.lclFlagb h.batcState,
    controllerB_shows, imtqMagnetometers_shows, hactive, imtqDipole_shows, imtqBDot_shows,
    imtqHousekeeping_shows_iff, imtqCoils_shows_iff, imtqTemperature_shows,
    imtqState_shows _ _ h.imtqMode h.imtqUptime, imtqSelfTest_shows, true_and]
  constructor
  · rintro ⟨hmission, htimes, ⟨hdigital, hanalog⟩, hcoils⟩
    exact ⟨hmission, htimes, hdigital, hanalog, hcoils⟩
  · intro hd
    exact ⟨hd.missionTime, hd.activationTimes, ⟨hd.digitalCurrent, hd.analogCurrent⟩, hd.coilCurrent⟩

end ManagedTelemetry

end Telemetry

end PWSat2OBC
