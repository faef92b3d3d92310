import PWSat2OBC.Proof.MissionTime
import PWSat2OBC.Proof.Telecommands

/-!
# The weights of time correction

The telecommand rejects two weights of zero, and stores the words of any other pair as signed
weights: the sum is zero when one word is the negative of the other (`total_eq_zero_iff`). For
weights that are not negative and not both zero the corrected time is a mean of the two clocks
(`betweenClocks`).
-/

namespace PWSat2OBC

open State

/-! ## What the telecommand stores -/

/-- The weights as `PerformTimeCorrection` takes them. -/
def State.TimeCorrectionConfiguration.weights (c : State.TimeCorrectionConfiguration) :
    PWSat2OBC.TimeCorrectionConfiguration := ⟨c.missionTimeFactor.toInt, c.externalTimeFactor.toInt⟩

/-- **Opposite words have the sum zero**, but for the lowest one, which is its own negative. -/
theorem total_eq_zero_iff (c : State.TimeCorrectionConfiguration) :
    c.weights.total = 0 ↔ c.externalTimeFactor = -c.missionTimeFactor ∧ c.missionTimeFactor ≠ 0x8000 := by
  unfold State.TimeCorrectionConfiguration.weights PWSat2OBC.TimeCorrectionConfiguration.total
  dsimp only
  have h1 := c.missionTimeFactor.isLt
  have h2 := c.externalTimeFactor.isLt
  rw [← BitVec.toNat_inj, ne_eq, ← BitVec.toNat_inj, BitVec.toNat_neg, BitVec.toInt_eq_toNat_cond,
    BitVec.toInt_eq_toNat_cond]
  change _ ↔ _ ∧ ¬ c.missionTimeFactor.toNat = 32768
  constructor
  · intro h
    split at h <;> split at h <;> omega
  · rintro ⟨hneg, hlow⟩
    split <;> split <;> omega

namespace SetTimeCorrectionConfigTelecommand

/-- The words in the parameters. -/
def requested (parameters : List Byte) : State.TimeCorrectionConfiguration :=
  let r := (Reader.init parameters).readByte.2
  ⟨r.readWordLE.1, r.readWordLE.2.readWordLE.1⟩

/-- The answer to a configuration that is stored. -/
def accepted (parameters : List Byte) : Handled := .frame apid [(Reader.init parameters).readByte.1, 0]

variable (surroundings : Surroundings) (s : OnboardState) (parameters : List Byte)

/-- An accepted configuration has a total other than zero. -/
def AcceptsNonZeroTotal : Prop :=
  (handle surroundings s parameters).1 = accepted parameters →
    (handle surroundings s parameters).2.persistentState.state.parts.timeCorrectionConfiguration.weights.total
      ≠ 0

/-- The words are not the negatives of each other, or the first one is zero or the lowest one. -/
def SafeWords (c : State.TimeCorrectionConfiguration) : Prop :=
  c.missionTimeFactor = 0 ∨ c.missionTimeFactor = 0x8000 ∨ c.externalTimeFactor ≠ -c.missionTimeFactor

instance (c : State.TimeCorrectionConfiguration) : Decidable (SafeWords c) :=
  inferInstanceAs (Decidable (_ ∨ _ ∨ _))

/-- **The handler**: two zeros are rejected, any other pair is stored if the lock is obtained. -/
theorem handle_cases (surroundings : Surroundings) (s : OnboardState) (parameters : List Byte) :
    ((requested parameters).missionTimeFactor = 0 ∧ (requested parameters).externalTimeFactor = 0 ∨
      surroundings.setLock = false) ∧
      (handle surroundings s parameters).1 ≠ accepted parameters ∨
    ¬ ((requested parameters).missionTimeFactor = 0 ∧ (requested parameters).externalTimeFactor = 0) ∧
      surroundings.setLock = true ∧ (handle surroundings s parameters).1 = accepted parameters ∧
      (handle surroundings s parameters).2.persistentState.state.parts.timeCorrectionConfiguration =
        requested parameters := by
  unfold handle requested accepted
  dsimp only
  generalize (Reader.init parameters).readByte.2.readWordLE.1 = missionTimeWeight
  generalize (Reader.init parameters).readByte.2.readWordLE.2.readWordLE.1 = externalTimeWeight
  have hcode : ∀ code : Byte, code ≠ 0 → Handled.frame apid [(Reader.init parameters).readByte.1, code] ≠
      Handled.frame apid [(Reader.init parameters).readByte.1, 0] := by
    intro code hne h
    injection h with _ h
    injection h with _ h
    injection h with h
    exact hne h
  by_cases hzero : missionTimeWeight = 0 ∧ externalTimeWeight = 0
  · rw [if_pos hzero]
    exact .inl ⟨.inl hzero, hcode _ (by decide)⟩
  · rw [if_neg hzero]
    unfold OnboardState.setPart LockablePersistentState.set
    cases surroundings.setLock with
    | false => exact .inl ⟨.inr rfl, hcode _ (by decide)⟩
    | true => exact .inr ⟨hzero, rfl, rfl, rfl⟩

theorem acceptsNonZeroTotal_iff (parameters : List Byte) :
    (∀ surroundings s, AcceptsNonZeroTotal surroundings s parameters) ↔ SafeWords (requested parameters) := by
  constructor
  · intro h
    have hsample := h sampleSurroundings sampleState
    obtain ⟨hzero | hlock, -⟩ | ⟨hnonzero, -, haccepted, hstored⟩ :=
      handle_cases sampleSurroundings sampleState parameters
    · exact .inl hzero.1
    · contradiction
    · have htotal := hsample haccepted
      rw [hstored, ne_eq, total_eq_zero_iff, not_and_or, not_not] at htotal
      exact .inr htotal.symm
  · intro h surroundings s haccepted
    obtain ⟨-, hnot⟩ | ⟨hnonzero, -, -, hstored⟩ :=
      handle_cases surroundings s parameters
    · exact absurd haccepted hnot
    · rw [hstored, ne_eq, total_eq_zero_iff]
      rintro ⟨hneg, hlow⟩
      obtain hzero | hlowest | hne := h
      · -- then the other word is zero as well
        rw [hzero] at hneg
        exact hnonzero ⟨hzero, hneg⟩
      · exact hlow hlowest
      · exact hne hneg

end SetTimeCorrectionConfigTelecommand

/-! ## Between the clocks -/

namespace TimeTask

/-- **A weighted mean**, with the quotient cut off, lies between the two values. -/
theorem mean_bounds {a b v w : ℤ} (ha : 0 ≤ a) (hb : 0 ≤ b) (hv : 0 ≤ v) (hw : 0 ≤ w) (hpos : 0 < v + w) :
    min a b ≤ (a * v + b * w).tdiv (v + w) ∧ (a * v + b * w).tdiv (v + w) ≤ max a b := by
  have hsum : 0 ≤ a * v + b * w := add_nonneg (mul_nonneg ha hv) (mul_nonneg hb hw)
  have hlow : min a b * (v + w) ≤ a * v + b * w := by
    calc min a b * (v + w) = min a b * v + min a b * w := mul_add _ _ _
      _ ≤ a * v + b * w := add_le_add (mul_le_mul_of_nonneg_right (min_le_left a b) hv)
        (mul_le_mul_of_nonneg_right (min_le_right a b) hw)
  have hhigh : a * v + b * w ≤ max a b * (v + w) := by
    calc a * v + b * w ≤ max a b * v + max a b * w :=
          add_le_add (mul_le_mul_of_nonneg_right (le_max_left a b) hv)
            (mul_le_mul_of_nonneg_right (le_max_right a b) hw)
      _ = max a b * (v + w) := (mul_add _ _ _).symm
  rw [Int.tdiv_eq_ediv_of_nonneg hsum]
  exact ⟨Int.le_ediv_of_mul_le hpos hlow, Int.ediv_le_of_le_mul hpos hhigh⟩

/-- The time of a clock since the last synchronisation, at least zero. -/
def elapsed (now last : ℤ) : ℤ := max 0 (now - last)

/-- What the correction is to be: the time stays, or moves by less than the maximum to a time
between the two clocks. -/
def BetweenClocks (missionTime externalTime : ℤ) (state : TimeState) (corrected : ℤ) : Prop :=
  corrected = missionTime ∨
    |corrected - missionTime| < maximumTimeCorrection ∧
      state.lastMissionTime + min (elapsed missionTime state.lastMissionTime)
        (elapsed externalTime state.lastExternalTime) ≤ corrected ∧
      corrected ≤ state.lastMissionTime + max (elapsed missionTime state.lastMissionTime)
        (elapsed externalTime state.lastExternalTime)

theorem betweenClocks {configuration : PWSat2OBC.TimeCorrectionConfiguration} (missionTime externalTime : ℤ)
    (state : TimeState) (hmission : 0 ≤ configuration.missionTimeFactor)
    (hexternal : 0 ≤ configuration.externalTimeFactor) (htotal : 0 < configuration.total) :
    BetweenClocks missionTime externalTime state
      (performTimeCorrection missionTime externalTime state configuration) := by
  unfold BetweenClocks
  rcases le_or_gt externalTime state.lastExternalTime with h | h
  · exact .inl (performTimeCorrection_of_le _ _ _ _ h)
  · rw [performTimeCorrection_of_lt _ _ _ _ h]
    split_ifs with hclose
    · refine .inr ⟨hclose, ?_⟩
      have hrtc : elapsed externalTime state.lastExternalTime = externalTime - state.lastExternalTime :=
        max_eq_right (by omega)
      have hmean := mean_bounds (le_max_left 0 (missionTime - state.lastMissionTime))
        (show 0 ≤ externalTime - state.lastExternalTime by omega) hmission hexternal htotal
      rw [hrtc]
      unfold weightedTime elapsed
      exact ⟨Int.add_le_add_left hmean.1 _, Int.add_le_add_left hmean.2 _⟩
    · exact .inl rfl

/-- The sum of the products fits 64 bits. -/
theorem products_lt {a b v w : ℤ} (ha : 0 ≤ a ∧ a ≤ 2 ^ 46) (hb : 0 ≤ b ∧ b ≤ 2 ^ 46)
    (hv : 0 ≤ v ∧ v < 2 ^ 15) (hw : 0 ≤ w ∧ w < 2 ^ 15) : 0 ≤ a * v + b * w ∧ a * v + b * w < 2 ^ 63 := by
  have hav : a * v ≤ 2 ^ 46 * 2 ^ 15 := mul_le_mul ha.2 hv.2.le hv.1 (by positivity)
  have hbw : b * w ≤ 2 ^ 46 * 2 ^ 15 := mul_le_mul hb.2 hw.2.le hw.1 (by positivity)
  refine ⟨add_nonneg (mul_nonneg ha.1 hv.1) (mul_nonneg hb.1 hw.1), ?_⟩
  omega

end TimeTask

/-! ## Both -/

/-- A time of at most 2^46 milliseconds. -/
def TimeInRange (time : ℤ) : Prop := 0 ≤ time ∧ time ≤ 2 ^ 46

instance (time : ℤ) : Decidable (TimeInRange time) := inferInstanceAs (Decidable (_ ∧ _))

/-- **Time correction**: the accepted configurations have a total other than zero exactly for
safe words; and with weights that are not negative and not both zero the corrected time stays
or lies between the clocks, without an overflow on the way. -/
theorem timeCorrection_iff (parameters : List Byte) (c : State.TimeCorrectionConfiguration)
    (missionTime externalTime : ℤ) (state : TimeState) :
    ((∀ surroundings s, SetTimeCorrectionConfigTelecommand.AcceptsNonZeroTotal surroundings s parameters) ↔
      SetTimeCorrectionConfigTelecommand.SafeWords
        (SetTimeCorrectionConfigTelecommand.requested parameters)) ∧
    (0 ≤ c.weights.missionTimeFactor → 0 ≤ c.weights.externalTimeFactor → 0 < c.weights.total →
      TimeInRange missionTime → TimeInRange externalTime → TimeInRange state.lastMissionTime →
      TimeInRange state.lastExternalTime →
      TimeTask.BetweenClocks missionTime externalTime state
        (TimeTask.performTimeCorrection missionTime externalTime state c.weights) ∧
      TimeTask.elapsed missionTime state.lastMissionTime * c.weights.missionTimeFactor +
        TimeTask.elapsed externalTime state.lastExternalTime * c.weights.externalTimeFactor < 2 ^ 63) := by
  refine ⟨SetTimeCorrectionConfigTelecommand.acceptsNonZeroTotal_iff parameters, ?_⟩
  intro hmission hexternal htotal h1 h2 h3 h4
  refine ⟨TimeTask.betweenClocks missionTime externalTime state hmission hexternal htotal, ?_⟩
  have helapsed : ∀ {now last : ℤ}, TimeInRange now → TimeInRange last →
      0 ≤ TimeTask.elapsed now last ∧ TimeTask.elapsed now last ≤ 2 ^ 46 := by
    intro now last hnow hlast
    unfold TimeInRange at hnow hlast
    unfold TimeTask.elapsed
    omega
  have hv := BitVec.toInt_lt (x := c.missionTimeFactor)
  have hw := BitVec.toInt_lt (x := c.externalTimeFactor)
  exact (TimeTask.products_lt (helapsed h1 h3) (helapsed h2 h4) ⟨hmission, hv⟩ ⟨hexternal, hw⟩).2

/-- The RTC has gone a minute ahead of a clock that stood still; both weights are 1. -/
theorem timeCorrection_iff_minute :
    TimeTask.BetweenClocks 0 60000 ⟨0, 0⟩
      (TimeTask.performTimeCorrection 0 60000 ⟨0, 0⟩ TimeCorrectionConfiguration.init.weights) :=
  ((timeCorrection_iff [] TimeCorrectionConfiguration.init 0 60000 ⟨0, 0⟩).2 (by decide) (by decide) (by decide)
    ⟨le_rfl, by norm_num⟩ ⟨by norm_num, by norm_num⟩ ⟨le_rfl, by norm_num⟩ ⟨le_rfl, by norm_num⟩).1

/-- The weights 1 and 0xFFFF are accepted. -/
theorem oppositeWeights_total_zero :
    ¬ ∀ surroundings s, SetTimeCorrectionConfigTelecommand.AcceptsNonZeroTotal surroundings s
      [0x11, 1, 0, 0xFF, 0xFF] := by
  rw [SetTimeCorrectionConfigTelecommand.acceptsNonZeroTotal_iff]
  decide

end PWSat2OBC
