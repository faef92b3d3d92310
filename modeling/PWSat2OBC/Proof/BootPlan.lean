import PWSat2OBC.Spec.Boot

/-!
# The boot policy on plain values

Once the magic number is valid, a boot is a function of four values. `BootPlan.boot`
states it without the FRAM: which mask it selects and what becomes of the values, where
`valid` says which masks name three slots to boot from.

* `boot_cases`: the three outcomes of a boot from program slots. It settles on safe mode
  or on the upper slot for good, or it selects program slots again and uses up one of
  the `patience` boots left.
* `settles`: after at most 11 such boots the plan has settled.
* `late_unique`, `late_failsafe`: of the boots that come after ten unconfirmed ones at
  most one selects program slots, and these are the failsafe slots.
-/

namespace PWSat2OBC

open BootSettings

/-- The boot settings behind a valid magic number. -/
structure BootPlan where
  slots : Byte
  failsafe : Byte
  counter : BitVec 32
  last : BitVec 32
deriving DecidableEq

namespace BootPlan

variable (valid : Byte → Bool) (v : BootPlan)

/-- A mask that stands for no program slots. -/
def Special (mask : Byte) : Prop := mask = safeModeBootSlot ∨ mask = upperBootSlot

instance (mask : Byte) : Decidable (Special mask) := inferInstanceAs (Decidable (_ ∨ _))

/-- The boots counted since the last confirmed one. -/
def unconfirmed : ℕ := (v.counter - v.last).toNat

/-- The mask a boot tries first. -/
def primary : Byte :=
  if Special v.slots ∨ v.unconfirmed < 10 then v.slots
  else if v.failsafe ≠ v.slots then v.failsafe
  else safeModeBootSlot

/-- A boot: the mask selected and the values afterwards. -/
def boot : Byte × BootPlan :=
  if v.primary = safeModeBootSlot then (safeModeBootSlot, { v with slots := safeModeBootSlot })
  else if v.primary = upperBootSlot then
    (upperBootSlot, { v with slots := upperBootSlot, counter := v.counter + 1 })
  else if valid v.primary then
    if bootCounterTop ≤ v.counter then (safeModeBootSlot, { v with slots := safeModeBootSlot })
    else (v.primary, { v with slots := v.primary, counter := v.counter + 1 })
  else if valid v.failsafe then (v.failsafe, { v with slots := v.failsafe })
  else (safeModeBootSlot, { v with slots := safeModeBootSlot })

/-- The number of boots from program slots that may still come. A plan that is not on
its failsafe slots has one more; at the difference `2^32 - 1` that one wraps the
difference to zero. -/
def patience : ℕ :=
  if Special v.slots then 0
  else if v.slots = v.failsafe then 10 - v.unconfirmed
  else if v.unconfirmed = 2 ^ 32 - 1 then 11
  else 10 - v.unconfirmed + 1

theorem patience_le : v.patience ≤ 11 := by
  unfold patience
  split_ifs <;> omega

@[simp] theorem failsafe_boot : (v.boot valid).2.failsafe = v.failsafe := by
  unfold boot; split_ifs <;> rfl

@[simp] theorem last_boot : (v.boot valid).2.last = v.last := by
  unfold boot; split_ifs <;> rfl

/-- A boot leaves the mask it selected. -/
theorem slots_boot : (v.boot valid).2.slots = (v.boot valid).1 := by
  unfold boot; split_ifs <;> rfl

/-- The mask selected is a stored one or safe mode. -/
theorem boot_mask :
    (v.boot valid).1 = v.slots ∨ (v.boot valid).1 = v.failsafe ∨
      (v.boot valid).1 = safeModeBootSlot := by
  unfold boot primary
  split_ifs <;> simp_all

/-- Program slots that are selected are stored and valid. -/
theorem boot_selected (h : ¬ Special (v.boot valid).1) :
    valid (v.boot valid).1 = true ∧
      ((v.boot valid).1 = v.slots ∨ (v.boot valid).1 = v.failsafe) := by
  refine ⟨?_, ?_⟩
  · revert h
    unfold boot
    split_ifs <;> simp_all [Special]
  · rcases v.boot_mask valid with hm | hm | hm
    · exact Or.inl hm
    · exact Or.inr hm
    · exact absurd (Or.inl hm) h

theorem boot_safeMode (h : v.slots = safeModeBootSlot) :
    (v.boot valid).1 = safeModeBootSlot := by
  simp [boot, primary, Special, h]

theorem boot_upper (h : v.slots = upperBootSlot) : (v.boot valid).1 = upperBootSlot := by
  simp [boot, primary, Special, h, upperBootSlot, safeModeBootSlot]

/-- The difference of the counters after one more boot. -/
theorem unconfirmed_succ (slots : Byte) :
    unconfirmed { v with slots, counter := v.counter + 1 } =
      if v.unconfirmed = 2 ^ 32 - 1 then 0 else v.unconfirmed + 1 := by
  have hlt : v.unconfirmed < 2 ^ 32 := (v.counter - v.last).isLt
  have h : unconfirmed { v with slots, counter := v.counter + 1 } = (v.unconfirmed + 1) % 2 ^ 32 := by
    show (v.counter + 1 - v.last).toNat = ((v.counter - v.last).toNat + 1) % 2 ^ 32
    rw [show v.counter + 1 - v.last = v.counter - v.last + 1 by bv_omega, BitVec.toNat_add]
    rfl
  rw [h]
  split_ifs with hd
  · rw [hd]; rfl
  · exact Nat.mod_eq_of_lt (by omega)

/-- The three ways to the mask tried first. -/
theorem primary_cases (h : ¬ Special v.slots) :
    v.unconfirmed < 10 ∧ v.primary = v.slots ∨
      10 ≤ v.unconfirmed ∧ v.slots ≠ v.failsafe ∧ v.primary = v.failsafe ∨
      10 ≤ v.unconfirmed ∧ v.slots = v.failsafe ∧ v.primary = safeModeBootSlot := by
  unfold primary
  by_cases hd : v.unconfirmed < 10
  · exact Or.inl ⟨hd, by simp [hd]⟩
  by_cases hf : v.failsafe = v.slots
  · exact Or.inr (Or.inr ⟨by omega, hf.symm, by simp [h, hd, hf]⟩)
  · exact Or.inr (Or.inl ⟨by omega, fun he => hf he.symm, by simp [h, hd, hf]⟩)

/-- **A boot from program slots** settles on safe mode or on the upper slot, or selects
program slots and uses up some patience. -/
theorem boot_cases (hv : ∀ m, valid m = true → ¬ Special m) (h : ¬ Special v.slots) :
    (v.boot valid).1 = safeModeBootSlot ∨ (v.boot valid).1 = upperBootSlot ∨
      (¬ Special (v.boot valid).1 ∧ (v.boot valid).2.patience + 1 ≤ v.patience) := by
  by_cases hs : v.primary = safeModeBootSlot
  · exact Or.inl (by simp [boot, hs])
  by_cases hu : v.primary = upperBootSlot
  · exact Or.inr (Or.inl (by simp [boot, hu, upperBootSlot, safeModeBootSlot]))
  have hp : ¬ Special v.primary := by rintro (h | h) <;> contradiction
  by_cases hval : valid v.primary = true
  · by_cases htop : bootCounterTop ≤ v.counter
    · exact Or.inl (by simp [boot, hs, hu, hval, htop])
    -- the mask tried first is loaded, and the attempt counted
    have hb : v.boot valid = (v.primary, { v with slots := v.primary, counter := v.counter + 1 }) := by
      simp [boot, hs, hu, hval, htop]
    rw [hb]
    refine Or.inr (Or.inr ⟨hp, ?_⟩)
    simp only [patience, if_neg h, if_neg hp, unconfirmed_succ]
    rcases v.primary_cases h with ⟨hd, heq⟩ | ⟨hd, hne, heq⟩ | ⟨_, _, heq⟩
    · rw [heq]
      split_ifs <;> omega
    · rw [heq, if_pos rfl, if_neg hne]
      split_ifs <;> omega
    · exact absurd heq hs
  · by_cases hf : valid v.failsafe = true
    · -- the failsafe mask is loaded, and the attempt is not counted
      have hb : v.boot valid = (v.failsafe, { v with slots := v.failsafe }) := by
        simp [boot, hs, hu, hval, hf]
      rw [hb]
      refine Or.inr (Or.inr ⟨hv _ hf, ?_⟩)
      have hd' : unconfirmed { v with slots := v.failsafe } = v.unconfirmed := rfl
      simp only [patience, if_neg h, if_neg (hv _ hf), hd', if_true]
      rcases v.primary_cases h with ⟨hd, heq⟩ | ⟨_, _, heq⟩ | ⟨_, _, heq⟩
      · have hne : v.slots ≠ v.failsafe := by
          intro he; rw [heq, he] at hval; exact hval hf
        rw [if_neg hne]
        split_ifs <;> omega
      · rw [heq] at hval; exact absurd hf hval
      · exact absurd heq hs
    · exact Or.inl (by simp [boot, hs, hu, hval, hf])

/-! ## Runs of boots -/

/-- The values after `n` boots. -/
def boots (n : ℕ) : BootPlan := (fun v => (boot valid v).2)^[n] v

theorem boots_succ (n : ℕ) : v.boots valid (n + 1) = (v.boot valid).2.boots valid n := rfl

theorem boots_succ' (n : ℕ) : v.boots valid (n + 1) = ((v.boots valid n).boot valid).2 :=
  Function.iterate_succ_apply' _ n v

@[simp] theorem failsafe_boots (n : ℕ) : (v.boots valid n).failsafe = v.failsafe := by
  induction n with
  | zero => rfl
  | succ n ih => rw [boots_succ', failsafe_boot, ih]

/-- A special mask once selected is selected ever after. -/
theorem boot_special_forever {mask : Byte} (hm : Special mask) (h : (v.boot valid).1 = mask) (n : ℕ) :
    ((v.boots valid n).boot valid).1 = mask := by
  induction n with
  | zero => exact h
  | succ n ih =>
    have hs : (v.boots valid (n + 1)).slots = mask := by rw [boots_succ', slots_boot, ih]
    rcases hm with rfl | rfl
    · exact boot_safeMode valid _ hs
    · exact boot_upper valid _ hs

/-- **Every plan settles** within its patience. -/
theorem settles_within (hv : ∀ m, valid m = true → ¬ Special m) (k : ℕ) (hk : v.patience ≤ k) :
    ∃ mask, Special mask ∧ ∃ n ≤ k, ∀ m, n ≤ m → ((v.boots valid m).boot valid).1 = mask := by
  induction k generalizing v with
  | zero =>
    have hs : Special (v.boot valid).1 := by
      by_cases hs : Special v.slots
      · rcases hs with hs | hs
        · exact Or.inl (boot_safeMode valid v hs)
        · exact Or.inr (boot_upper valid v hs)
      · rcases boot_cases valid v hv hs with h | h | ⟨_, h⟩
        · exact Or.inl h
        · exact Or.inr h
        · omega
    exact ⟨_, hs, 0, le_rfl, fun m _ => boot_special_forever valid v hs rfl m⟩
  | succ k ih =>
    by_cases hs : Special (v.boot valid).1
    · exact ⟨_, hs, 0, by omega, fun m _ => boot_special_forever valid v hs rfl m⟩
    have hslots : ¬ Special v.slots := by
      rintro (h | h)
      · exact hs (Or.inl (boot_safeMode valid v h))
      · exact hs (Or.inr (boot_upper valid v h))
    -- neither safe mode nor the upper slot yet, so the patience has shrunk
    have hp : (v.boot valid).2.patience ≤ k := by
      rcases boot_cases valid v hv hslots with h | h | ⟨_, h⟩
      · exact absurd (Or.inl h) hs
      · exact absurd (Or.inr h) hs
      · omega
    obtain ⟨mask, hm, n, hn, hall⟩ := ih (v.boot valid).2 hp
    refine ⟨mask, hm, n + 1, by omega, fun m hnm => ?_⟩
    -- the boots after the first one are those of the plan it leaves
    obtain ⟨m, rfl⟩ : ∃ m', m = m' + 1 := ⟨m - 1, by omega⟩
    rw [boots_succ]
    exact hall m (by omega)

/-- **Safe mode by the twelfth boot**, or the upper slot for good. -/
theorem settles (hv : ∀ m, valid m = true → ¬ Special m) :
    (∃ n, ∀ m, n ≤ m → ((v.boots valid m).boot valid).1 = upperBootSlot) ∨
      ∃ n ≤ 11, ∀ m, n ≤ m → ((v.boots valid m).boot valid).1 = safeModeBootSlot := by
  obtain ⟨mask, hm | hm, n, hn, hall⟩ := settles_within valid v hv 11 v.patience_le
  · exact Or.inr ⟨n, hn, fun m h => (hall m h).trans hm⟩
  · exact Or.inl ⟨n, fun m h => (hall m h).trans hm⟩

/-- The boot comes after ten unconfirmed ones, has program slots stored, and selects
program slots. -/
def Late : Prop := 10 ≤ v.unconfirmed ∧ ¬ Special v.slots ∧ ¬ Special (v.boot valid).1

/-- A late boot switches to the failsafe slots. -/
theorem late_failsafe (h : Late valid v) : (v.boot valid).1 = v.failsafe ∧ v.slots ≠ v.failsafe := by
  obtain ⟨hd, hs, hb⟩ := h
  rcases v.primary_cases hs with ⟨h, _⟩ | ⟨_, hne, heq⟩ | ⟨_, _, heq⟩
  · omega
  · refine ⟨?_, hne⟩
    revert hb
    unfold boot
    rw [heq]
    split_ifs <;> simp_all [Special]
  · exact absurd (Or.inl (by simp [boot, heq])) hb

/-- The plan is on its failsafe slots, or has settled. -/
def Spent : Prop := v.slots = v.failsafe ∨ Special v.slots

/-- A plan that is spent stays spent. -/
theorem Spent.boot {v : BootPlan} (h : Spent v) : Spent (v.boot valid).2 := by
  unfold Spent
  rw [slots_boot, failsafe_boot]
  by_cases hs : Special v.slots
  · rcases hs with hs | hs
    · exact Or.inr (Or.inl (boot_safeMode valid v hs))
    · exact Or.inr (Or.inr (boot_upper valid v hs))
  have hf : v.slots = v.failsafe := h.resolve_right hs
  have hp : v.primary = v.failsafe ∨ v.primary = safeModeBootSlot := by
    rcases v.primary_cases hs with ⟨_, heq⟩ | ⟨_, _, heq⟩ | ⟨_, _, heq⟩
    · exact Or.inl (heq.trans hf)
    · exact Or.inl heq
    · exact Or.inr heq
  unfold BootPlan.boot
  rcases hp with hp | hp <;> rw [hp] <;> split_ifs <;> simp [Special]

theorem Spent.boots {v : BootPlan} (h : Spent v) (n : ℕ) : Spent (v.boots valid n) := by
  induction n with
  | zero => exact h
  | succ n ih => rw [boots_succ']; exact ih.boot valid

/-- A boot of a spent plan is not late. -/
theorem Spent.not_late {v : BootPlan} (h : Spent v) : ¬ Late valid v := by
  intro hl
  exact h.elim (late_failsafe valid v hl).2 hl.2.1

/-- **At most one late boot** in a run. -/
theorem late_unique {m n : ℕ} (hm : Late valid (v.boots valid m)) (hn : Late valid (v.boots valid n)) :
    m = n := by
  have key : ∀ i j, Late valid (v.boots valid i) → Late valid (v.boots valid j) → ¬ i < j := by
    intro i j hi hj hij
    have hspent : Spent (v.boots valid (i + 1)) := by
      rw [boots_succ']
      exact Or.inl (by rw [slots_boot, failsafe_boot]; exact (late_failsafe valid _ hi).1)
    obtain ⟨k, rfl⟩ : ∃ k, j = i + 1 + k := ⟨j - (i + 1), by omega⟩
    have heq : v.boots valid (i + 1 + k) = (v.boots valid (i + 1)).boots valid k := by
      unfold boots; rw [← Function.iterate_add_apply, Nat.add_comm]
    rw [heq] at hj
    exact (hspent.boots valid k).not_late valid hj
  have h1 := key m n hm hn
  have h2 := key n m hn hm
  omega

end BootPlan

end PWSat2OBC
