import PWSat2OBC.Proof.BootPlan
import PWSat2OBC.Proof.BootSettings
import PWSat2OBC.Proof.ProgramFlash

/-!
# What is booted

* `proceedWithBooting_refines`: on settings with a valid magic number a boot is
  `BootPlan.boot`.
* `every_load_safe`: in every run of telecommands, confirmations and boots, a boot loads
  three distinct valid slots or none at all. The stored masks at the start must not have
  one of the two special bits among exactly three set bits: the boot counts all eight
  bits of a mask, the slot decoder reads six.
* `unconfirmed_boots_settle`: without confirmations the boots end in safe mode.
-/

namespace PWSat2OBC

open BootSettings

namespace BootSettings

/-- The settings as plain values. -/
def plan (s : BootSettings) : BootPlan :=
  ⟨s.content.slots, s.content.failsafe, s.content.counter, s.content.last⟩

end BootSettings

namespace Boot

variable (flash : Flash) (s : BootSettings)

/-! ## Refinement -/

theorem plan_setBootSlots (slots : Byte) : (s.setBootSlots slots).2.plan = { s.plan with slots } := by
  rw [plan, content_setBootSlots]; rfl

theorem content_countBootAttempts :
    (countBootAttempts s).content = { s.content with counter := s.bootCounter + 1 } :=
  content_setBootCounter s _

theorem plan_countBootAttempts :
    (countBootAttempts s).plan = { s.plan with counter := s.bootCounter + 1 } := by
  rw [plan, content_countBootAttempts]; rfl

/-- A mask valid for a boot is not special. -/
theorem not_special_of_valid (m : Byte) (h : isBootSlotsValid flash m = true) :
    ¬ BootPlan.Special m := by
  have hp : popcount m = 3 := by
    by_contra hne
    rw [isBootSlotsValid, if_pos hne] at h
    exact Bool.noConfusion h
  rintro (rfl | rfl) <;> exact absurd hp (by decide)

theorem resolveFailedBoot_content (h : s.content.magic = magicNumber) (reason : BootReason) :
    (resolveFailedBoot s reason).1.content = { s.content with slots := s.plan.primary } := by
  have hb : s.bootSlots = s.plan.slots := by rw [bootSlots_eq, if_pos h]; rfl
  have hf : s.failsafeBootSlots = s.plan.failsafe := by rw [failsafeBootSlots_eq, if_pos h]; rfl
  have hc : s.bootCounter = s.plan.counter := by rw [bootCounter_eq, if_pos h]; rfl
  have hl : s.lastConfirmedBootCounter = s.plan.last := rfl
  have hd : (s.plan.counter - s.plan.last).toNat = s.plan.unconfirmed := rfl
  simp only [resolveFailedBoot, hb, hf, hc, hl, hd]
  by_cases hs : BootPlan.Special s.plan.slots
  · have hp : s.plan.primary = s.plan.slots := by simp [BootPlan.primary, hs]
    rw [hp]
    rcases hs with hs | hs <;> simp only [hs, if_true, ite_self] <;> rw [← hs] <;> rfl
  have hs1 : s.plan.slots ≠ safeModeBootSlot := fun h => hs (Or.inl h)
  have hs2 : s.plan.slots ≠ upperBootSlot := fun h => hs (Or.inr h)
  rw [if_neg hs1, if_neg hs2]
  rcases s.plan.primary_cases hs with ⟨hd, hp⟩ | ⟨hd, hne, hp⟩ | ⟨hd, heq, hp⟩
  · rw [if_neg (by omega), hp]; rfl
  · rw [if_pos hd, if_pos (Ne.symm hne), content_setBootSlots, hp]
  · rw [if_pos hd, if_neg (not_not.2 heq.symm), content_setBootSlots, hp]

theorem application_eq : (proceedWithBooting flash s).application =
    loadApplication (proceedWithBooting flash s).slotsMask := by
  rw [proceedWithBooting]

/-- **The boot refines the plan**: it selects the same mask and leaves the same values. -/
theorem proceedWithBooting_refines (h : s.content.magic = magicNumber) :
    let r := proceedWithBooting flash s
    let p := s.plan.boot (isBootSlotsValid flash)
    r.slotsMask = p.1 ∧ r.settings.content.magic = magicNumber ∧ r.settings.plan = p.2 := by
  have hmagic : s.checkMagicNumber = true := by rw [checkMagicNumber_eq, h]; rfl
  -- resolving a failed boot changes no value that the selection reads
  have hc := resolveFailedBoot_content s h .primaryBootSlots
  simp only [proceedWithBooting, selectSlots, hmagic, if_true, BootPlan.boot]
  generalize resolveFailedBoot s .primaryBootSlots = res at hc
  obtain ⟨s', reason⟩ := res
  simp only at hc
  have hm' : s'.content.magic = magicNumber := by rw [hc]; exact h
  have hb : s'.bootSlots = s.plan.primary := by rw [bootSlots_eq, if_pos hm', hc]
  have hf : s'.failsafeBootSlots = s.plan.failsafe := by
    rw [failsafeBootSlots_eq, if_pos hm', hc]; rfl
  have hcnt : s'.bootCounter = s.plan.counter := by rw [bootCounter_eq, if_pos hm', hc]; rfl
  simp only [hb, hf, hcnt]
  have hplan : s'.plan = { s.plan with slots := s.plan.primary } := by rw [plan, hc]; rfl
  by_cases h1 : s.plan.primary = safeModeBootSlot
  · simp only [h1, if_true]
    exact ⟨trivial, hm', by rw [hplan, h1]⟩
  by_cases h2 : s.plan.primary = upperBootSlot
  · simp only [h2, show upperBootSlot ≠ safeModeBootSlot by decide, if_false, if_true]
    exact ⟨trivial, by rw [content_countBootAttempts]; exact hm',
      by rw [plan_countBootAttempts, hplan, hcnt, h2]⟩
  simp only [h1, h2, if_false]
  by_cases h3 : isBootSlotsValid flash s.plan.primary = true
  · simp only [h3, Bool.not_true, Bool.false_eq_true, if_false, if_true]
    by_cases h4 : bootCounterTop ≤ s.plan.counter
    · simp only [h4, if_true]
      exact ⟨trivial, by rw [content_setBootSlots]; exact hm', by rw [plan_setBootSlots, hplan]⟩
    · simp only [h4, if_false]
      exact ⟨trivial, by rw [content_countBootAttempts]; exact hm',
        by rw [plan_countBootAttempts, hplan, hcnt]⟩
  · -- no two of the slots are valid: the failsafe ones are tried, and then safe mode
    simp only [h3, Bool.not_false, Bool.false_eq_true, if_true, if_false]
    split_ifs
    · exact ⟨rfl, by rw [content_setBootSlots]; exact hm', by rw [plan_setBootSlots, hplan]⟩
    · exact ⟨rfl, by rw [content_setBootSlots]; exact hm', by rw [plan_setBootSlots, hplan]⟩

/-! ## Every load is safe -/

/-- Three distinct slots of the table, exactly those of the mask, two of them valid. -/
structure SlotsSafe (slotsMask : Byte) (slots : List Byte) : Prop where
  three : slots.length = 3
  distinct : slots.Nodup
  below : ∀ i ∈ slots, i.toNat < 6
  exact : ∀ i < 8, BitVec.ofNat 8 i ∈ slots ↔ slotsMask.getLsbD i = true
  valid : 2 ≤ slots.countP fun i => ProgramEntry.isValid flash i

/-- A boot goes to safe mode, to the upper slot as it is, or to three safe slots. -/
def LoadSafe (r : BootResult) : Prop :=
  match r.application with
  | .safeMode => True
  | .upper => True
  | .tmr slots => SlotsSafe flash r.slotsMask slots

/-- No special bit among exactly three set bits. -/
def MaskOK (mask : Byte) : Prop := popcount mask = 3 → mask.toNat < 64

instance (mask : Byte) : Decidable (MaskOK mask) := inferInstanceAs (Decidable (_ → _))

/-- Both stored masks are in order, if the settings are valid. -/
def SettingsOK : Prop :=
  s.checkMagicNumber = true → MaskOK s.bootSlots ∧ MaskOK s.failsafeBootSlots

instance : Decidable (SettingsOK s) := inferInstanceAs (Decidable (_ → _))

theorem countP_of_correctBool {p : Byte → Bool} {l : List Byte} (hl : l.length = 3)
    (h : correctBool (p (l.getD 0 0)) (p (l.getD 1 0)) (p (l.getD 2 0)) = true) :
    2 ≤ l.countP p := by
  match l, hl with
  | [a, b, c], _ =>
    simp only [List.getD_cons_zero, List.getD_cons_succ, correctBool] at h
    simp only [List.countP_cons, List.countP_nil]
    cases ha : p a <;> cases hb : p b <;> cases hc : p c <;> simp_all

theorem low_six_of_lt : ∀ mask : Byte, mask.toNat < 64 → mask &&& 0b00111111 = mask := by
  decide +kernel

theorem slotsSafe_of_valid {mask : Byte} (hv : isBootSlotsValid flash mask = true) (hok : MaskOK mask) :
    SlotsSafe flash mask (toSlotNumbers mask) := by
  have hp : popcount mask = 3 := by
    by_contra hne
    rw [isBootSlotsValid, if_pos hne] at hv
    exact Bool.noConfusion hv
  -- the special bits are clear, so the six bits decoded are all there is
  have hlow : mask &&& 0b00111111 = mask := low_six_of_lt mask (hok hp)
  have hp' : popcount (mask &&& 0b00111111) = 3 := by rw [hlow, hp]
  have heq : toSlotNumbers mask = BootTable.entriesOf mask := by
    rw [toSlotNumbers, BootTable.selectEntries_eq mask hp', hlow]
  have h3 : (toSlotNumbers mask).length = 3 := by rw [heq, BootTable.length_entriesOf, hp]
  rw [isBootSlotsValid, if_neg (not_not.2 hp)] at hv
  exact
    { three := h3
      distinct := by rw [heq]; exact BootTable.nodup_entriesOf mask
      below := fun _ ht => BootTable.lt_of_mem_selectEntries hp' ht
      exact := fun _ hi => by rw [heq]; exact BootTable.mem_entriesOf hi
      valid := countP_of_correctBool h3 hv }

theorem settingsOK_iff :
    SettingsOK s ↔ s.content.magic = magicNumber →
      MaskOK s.plan.slots ∧ MaskOK s.plan.failsafe := by
  rw [SettingsOK, checkMagicNumber_eq, beq_iff_eq]
  refine imp_congr_right fun h => ?_
  rw [bootSlots_eq, failsafeBootSlots_eq, if_pos h, if_pos h]
  rfl

theorem proceedWithBooting_invalid (h : s.content.magic ≠ magicNumber) :
    (proceedWithBooting flash s).slotsMask = safeModeBootSlot ∧
      (proceedWithBooting flash s).settings = s := by
  have hmagic : s.checkMagicNumber = false := by rw [checkMagicNumber_eq, beq_eq_false_iff_ne]; exact h
  simp [proceedWithBooting, selectSlots, hmagic]

theorem loadSafe_of_mask {r : BootResult} (happ : r.application = loadApplication r.slotsMask)
    (h : ¬ BootPlan.Special r.slotsMask → isBootSlotsValid flash r.slotsMask = true ∧ MaskOK r.slotsMask) :
    LoadSafe flash r := by
  unfold LoadSafe
  rw [happ, loadApplication]
  by_cases h1 : r.slotsMask = safeModeBootSlot
  · rw [if_pos h1]; trivial
  by_cases h2 : r.slotsMask = upperBootSlot
  · rw [if_neg h1, if_neg (not_not.2 h2)]; trivial
  rw [if_neg h1, if_pos h2]
  obtain ⟨hv, hok⟩ := h fun hs => hs.elim h1 h2
  exact slotsSafe_of_valid flash hv hok

/-- **A boot of settings in order is safe.** -/
theorem loadSafe_of_settingsOK (h : SettingsOK s) : LoadSafe flash (proceedWithBooting flash s) := by
  refine loadSafe_of_mask flash (application_eq flash s) fun hns => ?_
  by_cases hm : s.content.magic = magicNumber
  · obtain ⟨hmask, -, -⟩ := proceedWithBooting_refines flash s hm
    obtain ⟨hslots, hfail⟩ := (settingsOK_iff s).1 h hm
    rw [hmask] at hns ⊢
    obtain ⟨hv, hsel⟩ := BootPlan.boot_selected _ s.plan hns
    refine ⟨hv, ?_⟩
    rcases hsel with hsel | hsel <;> rw [hsel] <;> assumption
  · exact absurd (Or.inl (proceedWithBooting_invalid flash s hm).1) hns

/-- What the telecommand accepts is in order. -/
theorem maskOK_of_isValidBootSlot : ∀ mask : Byte, isValidBootSlot mask = true → MaskOK mask := by
  decide +kernel

/-! ## Runs -/

theorem settingsOK_reboot (h : SettingsOK s) : SettingsOK (proceedWithBooting flash s).settings := by
  by_cases hm : s.content.magic = magicNumber
  · obtain ⟨hslots, hfail⟩ := (settingsOK_iff s).1 h hm
    obtain ⟨-, -, hplan⟩ := proceedWithBooting_refines flash s hm
    rw [settingsOK_iff, hplan, BootPlan.slots_boot, BootPlan.failsafe_boot]
    refine fun _ => ⟨?_, hfail⟩
    rcases BootPlan.boot_mask (isBootSlotsValid flash) s.plan with h | h | h <;> rw [h]
    · exact hslots
    · exact hfail
    · decide
  · rwa [(proceedWithBooting_invalid flash s hm).2]

theorem settingsOK_confirmBoot (h : SettingsOK s) : SettingsOK s.confirmBoot.2 := by
  rw [settingsOK_iff] at h ⊢
  simpa only [plan, content_confirmBoot] using h

theorem settingsOK_handle (h : SettingsOK s) (parameters : List Byte) :
    SettingsOK (SetBootSlotsTelecommand.handle s parameters).2 := by
  simp only [SetBootSlotsTelecommand.handle]
  split_ifs with h1 h2 h3
  · exact h
  · exact h
  · exact h
  · rw [settingsOK_iff]
    simp only [plan, content_markAsValid, content_setFailsafeBootSlots, content_setBootSlots]
    exact fun _ => ⟨maskOK_of_isValidBootSlot _ (by simpa using h2),
      maskOK_of_isValidBootSlot _ (by simpa using h3)⟩

theorem settingsOK_step {s t : BootSettings} (e : BootEvent) (h : SettingsOK s)
    (hstep : BootEvent.step s e = some t) : SettingsOK t := by
  cases e with
  | handle parameters => cases hstep; exact settingsOK_handle s h parameters
  | confirmBoot => cases hstep; exact settingsOK_confirmBoot s h
  | reboot flash => cases hstep; exact settingsOK_reboot flash s h

/-- **Every load is safe**, in every run from settings in order. -/
theorem every_load_safe {s₀ s : BootSettings} {es : List BootEvent} (h0 : SettingsOK s₀)
    (h : Runs.Run BootEvent.step Runs.always s₀ es s) (flash : Flash) :
    LoadSafe flash (proceedWithBooting flash s) :=
  loadSafe_of_settingsOK flash s (h.inv h0 fun _ e _ hs _ hstep => settingsOK_step e hs hstep)

/-- Settings read from three chips with the same contents. -/
def sampleSettings (bytes : List Byte) : BootSettings :=
  let chip : Fm25w := fun a => bytes.getD a.toNat 0xFF
  ⟨⟨⟨4096, rfl⟩, 5120, ⟨6144, rfl⟩, ⟨7168, rfl⟩⟩, ⟨chip, chip, chip⟩⟩

/-- Erased settings, set by a telecommand, confirmed and booted. -/
theorem every_load_safe_erased :
    ∃ s, Runs.Run BootEvent.step Runs.always (sampleSettings [])
        [.handle [1, 0b111, 0b111000], .confirmBoot, .reboot fun _ => 0xAA] s ∧
      LoadSafe (fun _ => 0xAA) (proceedWithBooting (fun _ => 0xAA) s) := by
  have h : Runs.Run BootEvent.step Runs.always (sampleSettings [])
      [.handle [1, 0b111, 0b111000], .confirmBoot, .reboot fun _ => 0xAA] _ :=
    .snoc (.snoc (.snoc .nil trivial rfl) trivial rfl) trivial rfl
  exact ⟨_, h, every_load_safe (by decide) h _⟩

/-- Stored slots `0b11000001` pass as three slots and are decoded as slot 0 three times. -/
theorem special_bits_load_one_slot :
    let s := sampleSettings [0xD5, 0xC5, 0x53, 0x7D, 0b11000001, 0b111000, 0, 0, 0, 0, 0, 0, 0, 0]
    let r := proceedWithBooting (fun _ => 0xAA) s
    r.application = .tmr [0, 0, 0] ∧ ¬ LoadSafe (fun _ => 0xAA) r := by
  have happ : (proceedWithBooting (fun _ => 0xAA) (sampleSettings
      [0xD5, 0xC5, 0x53, 0x7D, 0b11000001, 0b111000, 0, 0, 0, 0, 0, 0, 0, 0])).application =
        .tmr [0, 0, 0] := by decide
  refine ⟨happ, fun h => ?_⟩
  unfold LoadSafe at h
  rw [happ] at h
  exact absurd h.distinct (by decide)

/-! ## Boots without confirmation -/

theorem loadApplication_upper : loadApplication upperBootSlot = .upper := by decide

variable {s} in
theorem afterBoots_refines (h : s.content.magic = magicNumber) (n : ℕ) :
    (afterBoots flash s n).content.magic = magicNumber ∧
      (afterBoots flash s n).plan = s.plan.boots (isBootSlotsValid flash) n := by
  induction n with
  | zero => exact ⟨h, rfl⟩
  | succ n ih =>
    obtain ⟨-, hm, hp⟩ := proceedWithBooting_refines flash (afterBoots flash s n) ih.1
    rw [BootPlan.boots_succ', ← ih.2]
    exact ⟨hm, hp⟩

/-- The boot of `s` comes after ten unconfirmed boots, with program slots stored, and loads
program slots. -/
def LoadsLate : Prop :=
  10 ≤ (s.bootCounter - s.lastConfirmedBootCounter).toNat ∧
    s.bootSlots ≠ safeModeBootSlot ∧ s.bootSlots ≠ upperBootSlot ∧
      ∃ slots, (proceedWithBooting flash s).application = .tmr slots

variable {s} in
theorem late_of_loadsLate (hm : s.content.magic = magicNumber) (h : LoadsLate flash s) :
    s.plan.Late (isBootSlotsValid flash) := by
  obtain ⟨hd, h1, h2, slots, happ⟩ := h
  obtain ⟨hmask, -, -⟩ := proceedWithBooting_refines flash s hm
  rw [bootCounter_eq, if_pos hm] at hd
  rw [bootSlots_eq, if_pos hm] at h1 h2
  refine ⟨hd, fun hs => hs.elim h1 h2, ?_⟩
  rw [← hmask]
  have happ' := (application_eq flash s).symm.trans happ
  rintro (h | h) <;> rw [h] at happ'
  · exact Application.noConfusion happ'
  · rw [loadApplication_upper] at happ'
    exact Application.noConfusion happ'

/-- **Without confirmations every sequence of boots settles**: on the upper slot, or on safe
mode by the twelfth boot. Among the boots that come after ten unconfirmed ones at most one
loads program slots, and these are the failsafe ones. -/
theorem unconfirmed_boots_settle (h : s.checkMagicNumber = true) :
    ((∃ n, ∀ m, n ≤ m → (proceedWithBooting flash (afterBoots flash s m)).application = .upper) ∨
      ∃ n ≤ 11, ∀ m, n ≤ m →
        (proceedWithBooting flash (afterBoots flash s m)).application = .safeMode) ∧
    (∀ m n, LoadsLate flash (afterBoots flash s m) → LoadsLate flash (afterBoots flash s n) → m = n) ∧
    ∀ n, LoadsLate flash (afterBoots flash s n) →
      (proceedWithBooting flash (afterBoots flash s n)).application =
        .tmr (toSlotNumbers s.failsafeBootSlots) := by
  have hm : s.content.magic = magicNumber := by rwa [checkMagicNumber_eq, beq_iff_eq] at h
  -- what is booted is read off the plan
  have href := afterBoots_refines flash hm
  have hmask : ∀ n, (proceedWithBooting flash (afterBoots flash s n)).slotsMask =
      ((s.plan.boots (isBootSlotsValid flash) n).boot (isBootSlotsValid flash)).1 := by
    intro n
    rw [← (href n).2]
    exact (proceedWithBooting_refines flash _ (href n).1).1
  have hlate : ∀ n, LoadsLate flash (afterBoots flash s n) →
      (s.plan.boots (isBootSlotsValid flash) n).Late (isBootSlotsValid flash) := by
    intro n hn
    rw [← (href n).2]
    exact late_of_loadsLate flash (href n).1 hn
  refine ⟨?_, fun m n hm hn => BootPlan.late_unique _ _ (hlate m hm) (hlate n hn), ?_⟩
  · rcases BootPlan.settles _ s.plan (not_special_of_valid flash) with ⟨n, hall⟩ | ⟨n, hn, hall⟩
    · exact Or.inl ⟨n, fun m hnm => by rw [application_eq, hmask, hall m hnm, loadApplication_upper]⟩
    · exact Or.inr ⟨n, hn, fun m hnm => by rw [application_eq, hmask, hall m hnm]; rfl⟩
  · intro n hn
    obtain ⟨hsel, -⟩ := BootPlan.late_failsafe _ _ (hlate n hn)
    have hns := (hlate n hn).2.2
    rw [application_eq, hmask, failsafeBootSlots_eq, if_pos hm]
    rw [hsel, BootPlan.failsafe_boots] at hns ⊢
    have h1 : s.plan.failsafe ≠ safeModeBootSlot := fun h => hns (Or.inl h)
    have h2 : s.plan.failsafe ≠ upperBootSlot := fun h => hns (Or.inr h)
    rw [loadApplication, if_neg h1, if_pos h2]
    rfl

/-- Counters one apart the wrong way: the first boot wraps their difference to zero. -/
theorem unconfirmed_boots_settle_wrapped :
    let s := sampleSettings [0xD5, 0xC5, 0x53, 0x7D, 0b111, 0b111000, 0, 0, 0, 0, 1, 0, 0, 0]
    ((∃ n, ∀ m, n ≤ m →
        (proceedWithBooting (fun _ => 0xAA) (afterBoots (fun _ => 0xAA) s m)).application = .upper) ∨
      ∃ n ≤ 11, ∀ m, n ≤ m →
        (proceedWithBooting (fun _ => 0xAA) (afterBoots (fun _ => 0xAA) s m)).application = .safeMode) :=
  (unconfirmed_boots_settle _ _ (by decide)).1

end Boot

end PWSat2OBC
