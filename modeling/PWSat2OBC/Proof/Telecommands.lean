import PWSat2OBC.Proof.Reader
import PWSat2OBC.Spec.Telecommands

/-!
# Telecommands with missing bytes

A reader that is asked for more than it has reads zeros and remembers it in its status
(`Reader.Consumed`). The handlers that look at the status before they act leave everything as
it was. `SetTime` and `SetTimeCorrectionConfig` do not look at it: the first one sets the
clock to zero, the second one stores a weight that has arrived with a zero for the other
(`malformed_iff`).
-/

namespace PWSat2OBC

open State

/-! ## Handlers that look at the status -/

section

variable (surroundings : Surroundings) (s : OnboardState) {parameters : List Byte}

/-- The reader after the first byte, and after the next two. -/
theorem consumed_byte : (Reader.init parameters).readByte.2.Consumed parameters 1 :=
  (Reader.Consumed.init parameters).updateState (n := 1) (by decide)

theorem consumed_bytes :
    (Reader.init parameters).readByte.2.readByte.2.readByte.2.Consumed parameters 3 :=
  (consumed_byte.updateState (n := 1) (by decide)).updateState (n := 1) (by decide)

theorem SetBootSlotsTelecommand.handle_short (settings : BootSettings) (h : parameters.length < 3) :
    (SetBootSlotsTelecommand.handle settings parameters).2 = settings := by
  have hstatus := consumed_bytes.status_eq_false h
  unfold SetBootSlotsTelecommand.handle
  dsimp only
  rw [if_pos (by rw [hstatus]; rfl)]

theorem SetErrorCounterConfig.handle_short (h : parameters.length < 5) :
    (SetErrorCounterConfig.handle s parameters).2 = s := by
  unfold SetErrorCounterConfig.handle
  dsimp only
  by_cases hempty : parameters.length < 1
  · have hstatus := consumed_byte.status_eq_false hempty
    rw [if_pos (by rw [hstatus]; rfl)]
  · have hstatus : (Reader.init parameters).readByte.2.status = true :=
      consumed_byte.valid_of_le (by omega) (by omega)
    rw [if_neg (by rw [hstatus]; decide)]
    -- the first record is not complete
    obtain ⟨fuel, hfuel⟩ : ∃ fuel, parameters.length = fuel + 1 := ⟨parameters.length - 1, by omega⟩
    have hrecord : (Reader.init parameters).readByte.2.readByte.2.readByte.2.readByte.2.readByte.2.status =
        false :=
      ((consumed_bytes.updateState (n := 1) (by decide)).updateState (n := 1)
        (by decide)).status_eq_false h
    rw [hfuel, SetErrorCounterConfig.setAll]
    dsimp only
    rw [if_pos (by rw [hrecord]; rfl)]

theorem SetPeriodicMessageTelecommand.handle_short (h : parameters.length < 3) :
    (SetPeriodicMessageTelecommand.handle surroundings s parameters).2 = s := by
  have hstatus := consumed_bytes.status_eq_false h
  unfold SetPeriodicMessageTelecommand.handle
  dsimp only
  rw [Reader.readToEnd_of_not_valid hstatus]
  dsimp only
  exact congrArg Prod.snd (if_pos (Or.inr rfl))

theorem StopSailDeployment.handle_short (h : parameters.length < 1) :
    (StopSailDeployment.handle surroundings s parameters).2 = s := by
  have hstatus := consumed_byte.status_eq_false h
  unfold StopSailDeployment.handle
  dsimp only
  rw [if_pos (by rw [hstatus]; rfl)]

theorem WriteProgramPart.handle_short (answers : FlashAnswers) (driver : FlashDriver)
    (h : parameters.length < 5) : (WriteProgramPart.handle parameters answers driver).2 = driver := by
  have hstatus : (Reader.init parameters).readByte.2.readDoubleWordLE.2.status = false :=
    (consumed_byte.updateState (n := 4) (by decide)).status_eq_false h
  have hread : ∃ p, WriteProgramPart.read parameters = some p ∧ p.status = false := by
    unfold WriteProgramPart.read
    dsimp only
    rw [Reader.readToEnd_of_not_valid hstatus]
    exact ⟨_, rfl, hstatus⟩
  obtain ⟨p, hp, hp'⟩ := hread
  unfold WriteProgramPart.handle
  rw [hp]
  dsimp only
  rw [if_pos (by rw [hp']; rfl)]

end

/-! ## Handlers that do not -/

section

variable {surroundings : Surroundings} {s : OnboardState} {parameters : List Byte}

/-- The mission time weight is missing or zero. -/
def NoMissionTimeWeight (parameters : List Byte) : Prop :=
  parameters.length < 3 ∨ parameters.getD 1 0 = 0 ∧ parameters.getD 2 0 = 0

theorem append_eq_zero_iff (a b : Byte) : a ++ b = (0 : BitVec 16) ↔ a = 0 ∧ b = 0 := by
  constructor
  · intro h
    have ha : (a ++ b).extractLsb' 8 8 = a := BitVec.extractLsb'_append_eq_left
    have hb : (a ++ b).extractLsb' 0 8 = b := BitVec.extractLsb'_append_eq_right
    rw [h] at ha hb
    exact ⟨ha.symm, hb.symm⟩
  · rintro ⟨rfl, rfl⟩
    rfl

theorem missionTimeWeight_eq_zero_iff :
    (Reader.init parameters).readByte.2.readWordLE.1 = 0 ↔ NoMissionTimeWeight parameters := by
  rw [consumed_byte.readWordLE (by decide)]
  unfold NoMissionTimeWeight
  by_cases h : 1 + 2 ≤ parameters.length
  · rw [if_pos h, append_eq_zero_iff]
    exact ⟨fun hw => Or.inr hw.symm, fun hw => (hw.resolve_left (by omega)).symm⟩
  · rw [if_neg h]
    exact ⟨fun _ => Or.inl (by omega), fun _ => rfl⟩

/-- With the second weight missing, the first one decides. -/
theorem SetTimeCorrectionConfigTelecommand.handle_eq (h : parameters.length < 5) :
    (SetTimeCorrectionConfigTelecommand.handle surroundings s parameters).2 =
      if (Reader.init parameters).readByte.2.readWordLE.1 = 0 then s
      else (s.setPart surroundings fun p => { p with
        timeCorrectionConfiguration := ⟨(Reader.init parameters).readByte.2.readWordLE.1, 0⟩ }).2 := by
  have hexternal : (Reader.init parameters).readByte.2.readWordLE.2.readWordLE.1 = 0 := by
    have hread : (Reader.init parameters).readByte.2.readWordLE.2.Consumed parameters 3 :=
      consumed_byte.updateState (n := 2) (by decide)
    rw [hread.readWordLE (by decide), if_neg (by omega)]
  unfold SetTimeCorrectionConfigTelecommand.handle
  dsimp only
  rw [hexternal]
  by_cases hweight : (Reader.init parameters).readByte.2.readWordLE.1 = 0
  · rw [if_pos ⟨hweight, rfl⟩, if_pos hweight]
  · rw [if_neg (fun hboth => hweight hboth.1), if_neg hweight]
    split <;> rfl

/-- With the time missing, the clock is set to zero. -/
theorem SetTimeTelecommand.handle_missionTime (h : parameters.length < 5)
    (hsynchronization : surroundings.timeSynchronization = true)
    (htimer : surroundings.timerLock = true) {time : BitVec 64} (hrtc : surroundings.rtcTime = some time) :
    (SetTimeTelecommand.handle surroundings s parameters).2.missionTime = 0 := by
  have hseconds : (Reader.init parameters).readByte.2.readDoubleWordLE.1 = 0 := by
    rw [consumed_byte.readDoubleWordLE (by decide), if_neg (not_le.2 h)]
  unfold SetTimeTelecommand.handle
  simp only [hsynchronization, htimer, SetTimeTelecommand.externalTime, hrtc, hseconds, Bool.not_true,
    Bool.false_eq_true, if_false, OnboardState.setPart]
  split <;> rfl

end

/-! ## All telecommands -/

/-- A running clock and default settings. -/
def sampleState : OnboardState where
  missionTime := 1
  persistentState := ⟨.init⟩
  errorCounters := Vector.replicate maxDevices 0
  bootSettings := ⟨⟨⟨0, rfl⟩, 4, ⟨8, rfl⟩, ⟨12, rfl⟩⟩, ⟨fun _ => 0, fun _ => 0, fun _ => 0⟩⟩
  programFlash := ⟨fun _ => 0xFF, []⟩

/-- Surroundings in which everything succeeds. -/
def sampleSurroundings : Surroundings :=
  ⟨true, true, true, true, some 0, fun _ => ⟨.notBusy, fun _ => 0xFF⟩⟩

/-- The telecommands that look at the status of the reader. -/
theorem SettingTelecommand.handle_short {tc : SettingTelecommand} {parameters : List Byte}
    (h : parameters.length < tc.fixedFields) (htime : tc ≠ .setTime)
    (hcorrection : tc ≠ .setTimeCorrectionConfig) (surroundings : Surroundings) (s : OnboardState) :
    (tc.handle surroundings s parameters).2 = s := by
  cases tc with
  | setTime => exact absurd rfl htime
  | setTimeCorrectionConfig => exact absurd rfl hcorrection
  | setBootSlots =>
    have hsame := SetBootSlotsTelecommand.handle_short s.bootSettings h
    change { s with bootSettings := (SetBootSlotsTelecommand.handle s.bootSettings parameters).2 } = s
    rw [hsame]
  | setErrorCounterConfig => exact SetErrorCounterConfig.handle_short s h
  | setPeriodicMessage => exact SetPeriodicMessageTelecommand.handle_short surroundings s h
  | stopSailDeployment => exact StopSailDeployment.handle_short surroundings s h
  | writeProgramPart =>
    have hsame := WriteProgramPart.handle_short surroundings.flash s.programFlash h
    change { s with programFlash := (WriteProgramPart.handle parameters surroundings.flash s.programFlash).2 } = s
    rw [hsame]

/-- **Which telecommands with missing bytes change nothing**: all but `SetTime`, and
`SetTimeCorrectionConfig` unless its first weight is missing or zero. -/
theorem malformed_iff (tc : SettingTelecommand) (parameters : List Byte)
    (h : parameters.length < tc.fixedFields) :
    (∀ surroundings s, (tc.handle surroundings s parameters).2 = s) ↔
      tc ≠ .setTime ∧ (tc = .setTimeCorrectionConfig → NoMissionTimeWeight parameters) := by
  by_cases htime : tc = .setTime
  · subst htime
    refine ⟨fun hall => ?_, fun hne => absurd rfl hne.1⟩
    -- the clock of the sample runs, and is set to zero
    have hzero := @SetTimeTelecommand.handle_missionTime sampleSurroundings sampleState parameters h
      rfl rfl 0 rfl
    have hsame := congrArg OnboardState.missionTime (hall sampleSurroundings sampleState)
    exact absurd (hzero.symm.trans hsame) (by decide)
  by_cases hcorrection : tc = .setTimeCorrectionConfig
  · subst hcorrection
    refine ⟨fun hall => ⟨by decide, fun _ => ?_⟩, fun hcond surroundings s => ?_⟩
    · -- a weight that has arrived is stored, with an external one of zero instead of one
      rw [← missionTimeWeight_eq_zero_iff]
      by_contra hweight
      have hset := @SetTimeCorrectionConfigTelecommand.handle_eq sampleSurroundings sampleState
        parameters h
      rw [if_neg hweight] at hset
      have hsame := hset.symm.trans (hall sampleSurroundings sampleState)
      have hfactor : (0 : BitVec 16) = 1 := congrArg
        (fun s => s.persistentState.state.parts.timeCorrectionConfiguration.externalTimeFactor) hsame
      exact absurd hfactor (by decide)
    · have hweight := missionTimeWeight_eq_zero_iff.2 (hcond.2 rfl)
      exact (SetTimeCorrectionConfigTelecommand.handle_eq h).trans (if_pos hweight)
  · exact iff_of_true (SettingTelecommand.handle_short h htime hcorrection)
      ⟨htime, fun hc => absurd hc hcorrection⟩

/-- A periodic message without its repeat count. -/
theorem malformed_iff_message :
    (SettingTelecommand.setPeriodicMessage.handle sampleSurroundings sampleState [1, 10]).2 = sampleState :=
  (malformed_iff .setPeriodicMessage [1, 10] (by decide)).2 ⟨by decide, fun h => absurd h (by decide)⟩
    sampleSurroundings sampleState

/-- **A time that does not arrive**: the correlation id alone sets the clock to zero. -/
theorem clock_set_to_zero :
    [1].length < SettingTelecommand.setTime.fixedFields ∧
      (SettingTelecommand.setTime.handle sampleSurroundings sampleState [1]).2.missionTime = 0 ∧
      (SettingTelecommand.setTime.handle sampleSurroundings sampleState [1]).2 ≠ sampleState := by
  have hzero : (SettingTelecommand.setTime.handle sampleSurroundings sampleState [1]).2.missionTime = 0 := by
    decide
  refine ⟨by decide, hzero, ?_⟩
  intro hsame
  rw [hsame] at hzero
  exact absurd hzero (by decide)

end PWSat2OBC
