import Mathlib.Data.List.GetD
import Mathlib.Tactic
import PWSat2OBC.Proof.BootTable
import PWSat2OBC.Proof.ProgramFlash
import PWSat2OBC.Spec.CopyBootSlots

/-!
# When a copy of boot slots that is reported is true

`programmed` is what a target ends with: in each part the vote or, where programming failed,
what the device left (`Copied`, followed over both loops). Two things can make the report
wrong. The handler counts the bits of the source mask in eight bits, but the experiment keeps
six of them, so the mask may select fewer than three slots. And a part that could not be
programmed is reported, but the experiment goes on and reports success at its end.
-/

namespace PWSat2OBC.CopyBootSlotsExperiment

open Voting ProgramEntry

/-! ## Slots -/

/-- The mask selects three different slots, the ones of `toSlotNumbers`. -/
def SelectsThree (source : BitVec 6) : Prop :=
  (toSlotNumbers source).length = 3 ∧ (toSlotNumbers source).Nodup ∧
    (∀ slot ∈ toSlotNumbers source, slot.toNat < 6 ∧ source.getLsbD slot.toNat = true) ∧
      ∀ i < 6, source.getLsbD i = true → BitVec.ofNat 8 i ∈ toSlotNumbers source

instance (source : BitVec 6) : Decidable (SelectsThree source) := by
  unfold SelectsThree; infer_instance

/-- The six lower bits of a mask. -/
theorem setWidth_setWidth (mask : Byte) : (mask.setWidth 6).setWidth 8 = mask &&& 0b00111111 := by
  have hlow : ∀ i < 8, (0b00111111 : Byte).getLsbD i = decide (i < 6) := by decide
  apply BitVec.eq_of_getLsbD_eq
  intro i hi
  rw [BitVec.getLsbD_setWidth, BitVec.getLsbD_setWidth, BitVec.getLsbD_and, hlow i hi, decide_eq_true hi,
    Bool.true_and, Bool.and_comm]

theorem popcount_low_iff : ∀ mask : Byte, popcount mask = 3 →
    (3 ≤ popcount (mask &&& 0b00111111) ↔ mask &&& 0b11000000 = 0) ∧
      (mask &&& 0b11000000 = 0 → popcount (mask &&& 0b00111111) = 3) := by
  decide +kernel

theorem getLsbD_low {mask : Byte} {i : ℕ} (hi : i < 6) :
    (mask &&& 0b00111111).getLsbD i = (mask.setWidth 6).getLsbD i := by
  rw [← setWidth_setWidth, BitVec.getLsbD_setWidth, decide_eq_true (by omega), Bool.true_and]

/-- Three bits of eight select three slots unless one of the upper two is set. -/
theorem selectsThree_iff {mask : Byte} (h : popcount mask = 3) :
    SelectsThree (mask.setWidth 6) ↔ mask &&& 0b11000000 = 0 := by
  have hslots : toSlotNumbers (mask.setWidth 6) = BootTable.selectEntries (mask &&& 0b00111111) :=
    congrArg BootTable.selectEntries (setWidth_setWidth mask)
  constructor
  · -- three different slots with their bits set are among the lower bits
    rintro ⟨hthree, hnodup, hset, -⟩
    have hsubset : toSlotNumbers (mask.setWidth 6) ⊆ BootTable.entriesOf (mask &&& 0b00111111) := by
      intro slot hslot
      obtain ⟨hlt, hbit⟩ := hset slot hslot
      rw [← getLsbD_low hlt, ← BootTable.mem_entriesOf (by omega), BitVec.ofNat_toNat, BitVec.setWidth_eq] at hbit
      exact hbit
    have hle := (hnodup.subperm hsubset).length_le
    rw [hthree, BootTable.length_entriesOf] at hle
    exact (popcount_low_iff mask h).1.1 hle
  · intro hupper
    have hlow := (popcount_low_iff mask h).2 hupper
    have hself : mask &&& 0b00111111 &&& 0b00111111 = mask &&& 0b00111111 := by
      rw [BitVec.and_assoc, BitVec.and_self]
    have hentries : toSlotNumbers (mask.setWidth 6) = BootTable.entriesOf (mask &&& 0b00111111) := by
      rw [hslots, BootTable.selectEntries_eq _ (by rwa [hself]), hself]
    refine ⟨?_, ?_, ?_, ?_⟩
    · rw [hentries, BootTable.length_entriesOf, hlow]
    · rw [hentries]
      exact BootTable.nodup_entriesOf _
    · intro slot hslot
      have hlt : slot.toNat < 6 := by
        rw [hslots] at hslot
        exact BootTable.lt_of_mem_selectEntries (by rwa [hself]) hslot
      rw [hentries, ← BitVec.setWidth_eq slot, ← BitVec.ofNat_toNat, BootTable.mem_entriesOf (by omega),
        getLsbD_low hlt] at hslot
      exact ⟨hlt, hslot⟩
    · intro i hi hbit
      rw [hentries, BootTable.mem_entriesOf (by omega), getLsbD_low hi]
      exact hbit

theorem inFlashOffset_ofNat {i : ℕ} (hi : i < 6) : inFlashOffset (BitVec.ofNat 8 i) = i * size := by
  rw [inFlashOffset, BitVec.toNat_ofNat, Nat.mod_eq_of_lt (by omega)]

variable (o : CopyBootSlotsExperiment) (answers : FlashAnswers) (flash : Flash)

/-- The vote on byte `a` of the source slots. -/
def majority (a : ℕ) : Byte :=
  let slots := toSlotNumbers o.sourceEntries
  majority3 (flash (inFlashOffset (slots.getD 0 0) + a)) (flash (inFlashOffset (slots.getD 1 0) + a))
    (flash (inFlashOffset (slots.getD 2 0) + a))

/-- The vote on part `k`. -/
def majorityPart (k : ℕ) : List Byte := (List.range partSize).map fun j => majority o flash (k * partSize + j)

/-- The call that programs part `k` of the vote into slot `i`. -/
def partCall (i k : ℕ) : FlashCall := .program (i * size + k * partSize) (majorityPart o flash k)

/-- Byte `a` of target `i` in the end. -/
def programmed (i a : ℕ) : Byte :=
  let answer := answers (partCall o flash i (a / partSize))
  if answer.status = .notBusy then majority o flash a else answer.left (i * size + a)

/-- No slot is source and target. -/
def Apart : Prop := ∀ slot ∈ toSlotNumbers o.sourceEntries, o.targetEntries.getLsbD slot.toNat = false

/-- A sector of a target can not be erased. -/
def EraseFails : Prop :=
  ∃ i < 6, o.targetEntries.getLsbD i = true ∧ ∃ k < size / Flash.largeSectorSize,
    (answers (.eraseSector (i * size + k * Flash.largeSectorSize))).status ≠ .notBusy

variable {o answers flash}

@[simp] theorem length_majorityPart (k : ℕ) : (majorityPart o flash k).length = partSize := by
  rw [majorityPart, List.length_map, List.length_range]

/-! ## Erasing -/

/-- The targets below `m` are erased. -/
structure Erased (o : CopyBootSlotsExperiment) (flash : Flash) (m : ℕ) (s : Copying) : Prop where
  targets : ∀ i < m, o.targetEntries.getLsbD i = true → ∀ a < size,
    s.driver.flash (i * size + a) = 0xFF
  others : ∀ a, (∀ i < m, o.targetEntries.getLsbD i = true → ¬(i * size ≤ a ∧ a < i * size + size)) →
    s.driver.flash a = flash a

/-- A slot that is no target is left alone. -/
theorem eraseTarget_skip {s : Copying} {i : ℕ} (ht : o.targetEntries.getLsbD i = false) :
    eraseTarget o answers s i = (none, s) := by
  unfold eraseTarget
  rw [ht, if_neg Bool.false_ne_true]

theorem eraseTarget_none {s : Copying} {i : ℕ} (ht : o.targetEntries.getLsbD i = true)
    (h : (erase (BitVec.ofNat 8 i) answers s.driver).1 = none) :
    eraseTarget o answers s i =
      (none, { s with driver := (erase (BitVec.ofNat 8 i) answers s.driver).2 }) := by
  unfold eraseTarget
  rw [ht, if_pos rfl]
  rcases he : erase (BitVec.ofNat 8 i) answers s.driver with ⟨result, driver⟩
  rw [he] at h
  obtain rfl : result = none := h
  rfl

theorem eraseTarget_some {s : Copying} {i : ℕ} (ht : o.targetEntries.getLsbD i = true)
    {status : FlashStatus} {offset : ℕ}
    (h : (erase (BitVec.ofNat 8 i) answers s.driver).1 = some (status, offset)) :
    (eraseTarget o answers s i).1 = some .failure := by
  unfold eraseTarget
  rw [ht, if_pos rfl]
  rcases he : erase (BitVec.ofNat 8 i) answers s.driver with ⟨result, driver⟩
  rw [he] at h
  obtain rfl : result = some (status, offset) := h
  rfl

theorem Erased.step {m : ℕ} {s : Copying} (h : Erased o flash m s) (hm : m < 6) :
    (∃ t, eraseTarget o answers s m = (none, t) ∧ Erased o flash (m + 1) t ∧
        t.copyBuffer = s.copyBuffer ∧
        (o.targetEntries.getLsbD m = true → ∀ k < size / Flash.largeSectorSize,
          (answers (.eraseSector (m * size + k * Flash.largeSectorSize))).status = .notBusy)) ∨
      (eraseTarget o answers s m).1 = some .failure ∧ EraseFails o answers := by
  have hoffset := inFlashOffset_ofNat hm
  cases ht : o.targetEntries.getLsbD m with
  | false =>
    refine Or.inl ⟨s, eraseTarget_skip ht, ⟨?_, ?_⟩, rfl, fun h' => absurd h' (by simp)⟩
    · intro i hi hti a ha
      have hne : i ≠ m := by
        rintro rfl
        rw [ht] at hti
        exact Bool.noConfusion hti
      exact h.targets i (by omega) hti a ha
    · intro a ha
      exact h.others a fun i hi => ha i (Nat.lt_succ_of_lt hi)
  | true =>
    have hconf := @erase_confined answers (BitVec.ofNat 8 m) s.driver
    rcases @erase_cases answers (BitVec.ofNat 8 m) s.driver with
      ⟨hnone, hcalls, herased⟩ | ⟨⟨status, offset, hsome⟩, k, hk, hfails⟩
    · rw [hoffset] at hcalls
      refine Or.inl ⟨_, eraseTarget_none ht hnone, ⟨?_, ?_⟩, rfl, fun _ => hcalls⟩
      · intro i hi hti a ha
        dsimp only
        rcases Nat.eq_or_lt_of_le (Nat.le_of_lt_succ hi) with rfl | hlt
        · exact herased _ (by rw [slot, hoffset]; exact ⟨by omega, by omega⟩)
        · -- erasing slot `m` leaves the slots before it
          rw [hconf.flash _ (by rw [slot, hoffset, Set.mem_Ico]; unfold size at *; omega)]
          exact h.targets i hlt hti a ha
      · intro a ha
        dsimp only
        rw [hconf.flash a (by
          rw [slot, hoffset, Set.mem_Ico]
          exact ha m (Nat.lt_succ_self m) ht)]
        exact h.others a fun i hi => ha i (Nat.lt_succ_of_lt hi)
    · rw [hoffset] at hfails
      exact Or.inr ⟨eraseTarget_some ht hsome, m, hm, ht, k, hk, hfails⟩

/-- The loop over the first `m` slots. -/
theorem eraseTargets (s : Copying) {m : ℕ} (hm : m ≤ 6) :
    (∃ t, Loops.firstSome (eraseTarget o answers) (List.range m) s = (none, t) ∧
        Erased o s.driver.flash m t ∧ t.copyBuffer = s.copyBuffer ∧
        ∀ i < m, o.targetEntries.getLsbD i = true → ∀ k < size / Flash.largeSectorSize,
          (answers (.eraseSector (i * size + k * Flash.largeSectorSize))).status = .notBusy) ∨
      (Loops.firstSome (eraseTarget o answers) (List.range m) s).1 = some .failure ∧
        EraseFails o answers := by
  induction m with
  | zero =>
    left
    refine ⟨s, rfl, ⟨?_, fun a _ => rfl⟩, rfl, ?_⟩
    · intro i hi; exact absurd hi (Nat.not_lt_zero i)
    · intro i hi; exact absurd hi (Nat.not_lt_zero i)
  | succ m ih =>
    rw [List.range_succ]
    rcases ih (by omega) with ⟨t, ht, herased, hbuffer, hcalls⟩ | ⟨hfail, hfails⟩
    · rw [Loops.firstSome_snoc_none ht]
      rcases @Erased.step o answers s.driver.flash m t herased (by omega) with
        ⟨v, hnone, hstep, hsame, hcall⟩ | hfailed
      · refine Or.inl ⟨v, hnone, hstep, hsame.trans hbuffer, ?_⟩
        intro i hi hti
        rcases Nat.eq_or_lt_of_le (Nat.le_of_lt_succ hi) with rfl | hlt
        · exact hcall hti
        · exact hcalls i hlt hti
      · exact Or.inr hfailed
    · -- the loop ended at a slot before
      rcases hloop : Loops.firstSome (eraseTarget o answers) (List.range m) s with ⟨r, u⟩
      rw [hloop] at hfail
      obtain rfl : r = some .failure := hfail
      rw [Loops.firstSome_snoc_some hloop]
      exact Or.inr ⟨rfl, hfails⟩

/-! ## Programming -/

/-- `k` parts are in all targets, part `k` is in the targets below `m`. -/
structure Copied (o : CopyBootSlotsExperiment) (answers : FlashAnswers) (flash : Flash) (k m : ℕ)
    (s : Copying) : Prop where
  length : s.copyBuffer.length = partSize
  targets : ∀ i < 6, o.targetEntries.getLsbD i = true → ∀ a < size, s.driver.flash (i * size + a) =
    if a < (if i < m then k + 1 else k) * partSize then programmed o answers flash i a else 0xFF
  others : ∀ a, (∀ i < 6, o.targetEntries.getLsbD i = true → ¬(i * size ≤ a ∧ a < i * size + size)) →
    s.driver.flash a = flash a

variable {k m : ℕ} {s : Copying}

theorem part_le (hk : k < size / partSize) : k * partSize + partSize ≤ size := by
  unfold size partSize at *
  omega

/-- The sources are as they were. -/
theorem Copied.source (h : Copied o answers flash k m s) (hapart : Apart o) {slot : Byte}
    (hslot : slot ∈ toSlotNumbers o.sourceEntries) {a : ℕ} (ha : a < size) :
    s.driver.flash (inFlashOffset slot + a) = flash (inFlashOffset slot + a) := by
  apply h.others
  intro i _ hti hmem
  have hne : i ≠ slot.toNat := by
    rintro rfl
    rw [hapart slot hslot] at hti
    exact Bool.noConfusion hti
  unfold inFlashOffset size at hmem
  unfold size at ha
  omega

theorem subspan_wholeEntry (f : Flash) (e : Byte) (hk : k < size / partSize) :
    (wholeEntry f e).subspan (k * partSize) partSize =
      ⟨Flash.flashBase + inFlashOffset e + k * partSize,
        (List.range partSize).map fun j => f (inFlashOffset e + (k * partSize + j))⟩ := by
  simp only [wholeEntry, Flash.span, Span.subspan, Span.mk.injEq, true_and]
  apply List.ext_getElem
  · simp only [List.length_take, List.length_drop, List.length_map, List.length_range]
    unfold size partSize at *
    omega
  · intro j h1 h2
    simp

/-- The vote is on the sources as they were at the start. -/
theorem Copied.votePart (h : Copied o answers flash k m s) (hapart : Apart o)
    (hthree : SelectsThree o.sourceEntries) (hk : k < size / partSize) (bufferAddr : ℕ) :
    (votePart o bufferAddr (k * partSize) s).copyBuffer = majorityPart o flash k := by
  obtain ⟨a, b, c, hslots⟩ : ∃ a b c, toSlotNumbers o.sourceEntries = [a, b, c] :=
    List.length_eq_three.1 hthree.1
  have haligned : ∀ e : Byte, (Flash.flashBase + inFlashOffset e + k * partSize) % 4 = 0 := by
    intro e
    unfold Flash.flashBase inFlashOffset size partSize
    omega
  have hvote := Redundancy.correctBufferTo_map
    (fun j => s.driver.flash (inFlashOffset a + (k * partSize + j)))
    (fun j => s.driver.flash (inFlashOffset b + (k * partSize + j)))
    (fun j => s.driver.flash (inFlashOffset c + (k * partSize + j))) (List.range partSize)
    ⟨bufferAddr, s.copyBuffer⟩ (by rw [Span.length, h.length, List.length_range])
    (by rw [List.length_range]; rfl) (haligned a) (haligned b) (haligned c)
  unfold CopyBootSlotsExperiment.votePart
  simp only [hslots, List.map_cons, List.map_nil, subspan_wholeEntry _ _ hk, List.getD_cons_zero,
    List.getD_cons_succ]
  rw [hvote, majorityPart]
  dsimp only
  -- the sources are no targets, so they hold what they held at the start
  apply List.map_congr_left
  intro j hj
  have hin : k * partSize + j < size := by
    have := List.mem_range.1 hj
    unfold size partSize at *
    omega
  rw [h.source hapart (by simp [hslots]) hin, h.source hapart (by simp [hslots]) hin,
    h.source hapart (by simp [hslots]) hin]
  simp only [majority, hslots, List.getD_cons_zero, List.getD_cons_succ]

theorem partCall_area (i k : ℕ) :
    (partCall o flash i k).area = (i * size + k * partSize, partSize) := by
  change (i * size + k * partSize, (majorityPart o flash k).length) = _
  rw [length_majorityPart]

/-- Part `k` of the vote in a slot is in the slot. -/
theorem partCall_touches {i a : ℕ} (hi : i < 6) (hk : k < size / partSize) :
    (partCall o flash i k).Touches a ↔
      i * size + k * partSize ≤ a ∧ a < i * size + k * partSize + partSize := by
  have hfits : (partCall o flash i k).area.1 + (partCall o flash i k).area.2 ≤ 2 ^ 32 := by
    rw [partCall_area]
    unfold size partSize at *
    omega
  rw [FlashCall.touches_iff hfits, partCall_area]

/-- A byte of an erased part after programming. -/
theorem partCall_effect {i a : ℕ} {f : Flash} (hi : i < 6) (ha : a < size) (herased : f (i * size + a) = 0xFF) :
    (partCall o flash i (a / partSize)).effect (answers (partCall o flash i (a / partSize))) f (i * size + a) =
      programmed o answers flash i a := by
  have hk : a / partSize < size / partSize := by unfold size partSize at *; omega
  have htouches := (@partCall_touches o flash (a / partSize) i (i * size + a) hi hk).2 (by
    unfold partSize
    omega)
  have hindex : (partCall o flash i (a / partSize)).index (i * size + a) = a % partSize := by
    unfold FlashCall.index
    rw [partCall_area]
    unfold size partSize at *
    omega
  rw [FlashCall.effect_of_touches htouches, herased, programmed]
  -- programming ones stores the byte of the vote
  unfold partCall FlashCall.store at *
  dsimp only
  rw [hindex]
  have hones : (0xFF : Byte) = BitVec.allOnes 8 := by decide
  have hmod : a % partSize < partSize := Nat.mod_lt a (by decide)
  have hvalue : (majorityPart o flash (a / partSize)).getD (a % partSize) 0 = majority o flash a := by
    rw [List.getD_eq_getElem _ _ (by rw [length_majorityPart]; exact hmod)]
    unfold majorityPart
    rw [List.getElem_map, List.getElem_range, Nat.div_add_mod']
  rw [hones, BitVec.allOnes_and, BitVec.allOnes_and, hvalue]

/-- What a turn does to a target. -/
theorem programTarget_flash (ht : o.targetEntries.getLsbD m = true) (hm : m < 6)
    (hbuffer : s.copyBuffer = majorityPart o flash k) :
    (programTarget o answers (k * partSize) s m).driver.flash =
      (partCall o flash m k).effect (answers (partCall o flash m k)) s.driver.flash := by
  unfold CopyBootSlotsExperiment.programTarget
  rw [if_pos ht, inFlashOffset_ofNat hm, hbuffer]
  rfl

theorem programTarget_copyBuffer (offset i : ℕ) (s : Copying) :
    (programTarget o answers offset s i).copyBuffer = s.copyBuffer := by
  unfold CopyBootSlotsExperiment.programTarget
  split <;> rfl

theorem Copied.programTarget (h : Copied o answers flash k m s) (hm : m < 6) (hk : k < size / partSize)
    (hbuffer : s.copyBuffer = majorityPart o flash k) :
    Copied o answers flash k (m + 1) (programTarget o answers (k * partSize) s m) := by
  have hlength : (CopyBootSlotsExperiment.programTarget o answers (k * partSize) s m).copyBuffer.length =
      partSize := by
    rw [programTarget_copyBuffer]
    exact h.length
  by_cases ht : o.targetEntries.getLsbD m = true
  · have hflash := @programTarget_flash o answers flash k m s ht hm hbuffer
    refine ⟨hlength, ?_, ?_⟩
    · intro i hi hti a ha
      rw [hflash]
      have hold := h.targets i hi hti a ha
      by_cases hpart : i = m ∧ a / partSize = k
      · -- the byte is in the part that is programmed
        obtain ⟨rfl, rfl⟩ := hpart
        have herased : ¬ a < (if i < i then a / partSize + 1 else a / partSize) * partSize := by
          rw [if_neg (Nat.lt_irrefl i)]
          unfold partSize
          omega
        rw [if_neg herased] at hold
        rw [partCall_effect hi ha hold, if_pos (Nat.lt_succ_self i), if_pos]
        unfold partSize
        omega
      · have hout : ¬ (partCall o flash m k).Touches (i * size + a) := by
          rw [partCall_touches hm hk]
          unfold size partSize at *
          omega
        have hbound : (a < (if i < m + 1 then k + 1 else k) * partSize) ↔
            a < (if i < m then k + 1 else k) * partSize := by
          unfold partSize at *
          split_ifs <;> omega
        rw [FlashCall.effect_of_not_touches hout, hold]
        simp only [hbound]
    · intro a ha
      have hout : ¬ (partCall o flash m k).Touches a := by
        rw [partCall_touches hm hk]
        rintro ⟨hle, hlt⟩
        have hpart := part_le hk
        exact ha m hm ht ⟨by omega, by omega⟩
      rw [hflash, FlashCall.effect_of_not_touches hout]
      exact h.others a ha
  · have hskip : CopyBootSlotsExperiment.programTarget o answers (k * partSize) s m = s := by
      unfold CopyBootSlotsExperiment.programTarget
      rw [if_neg ht]
    rw [hskip]
    refine ⟨h.length, ?_, h.others⟩
    intro i hi hti a ha
    have hne : i ≠ m := by rintro rfl; exact ht hti
    rw [h.targets i hi hti a ha]
    have hiff : (i < m + 1) ↔ i < m := by omega
    simp only [hiff]

/-- One part into all targets. -/
theorem Copied.copyPart (h : Copied o answers flash k 0 s) (hapart : Apart o)
    (hthree : SelectsThree o.sourceEntries) (hk : k < size / partSize) (bufferAddr : ℕ) :
    Copied o answers flash (k + 1) 0 (copyPart o answers bufferAddr s (k * partSize)) := by
  have hvote := h.votePart hapart hthree hk bufferAddr
  have hinner : ∀ m ≤ 6, Copied o answers flash k m ((List.range m).foldl
      (CopyBootSlotsExperiment.programTarget o answers (k * partSize))
        (CopyBootSlotsExperiment.votePart o bufferAddr (k * partSize) s)) ∧
      ((List.range m).foldl (CopyBootSlotsExperiment.programTarget o answers (k * partSize))
        (CopyBootSlotsExperiment.votePart o bufferAddr (k * partSize) s)).copyBuffer =
          majorityPart o flash k := by
    intro m hm
    induction m with
    | zero => exact ⟨⟨by rw [List.range_zero, List.foldl_nil, hvote, length_majorityPart], h.targets, h.others⟩, hvote⟩
    | succ m ih =>
      obtain ⟨hcopied, hbuffer⟩ := ih (by omega)
      rw [List.range_succ, List.foldl_append, List.foldl_cons, List.foldl_nil]
      exact ⟨hcopied.programTarget (by omega) hk hbuffer, (programTarget_copyBuffer _ _ _).trans hbuffer⟩
  have hall := (hinner 6 le_rfl).1
  unfold CopyBootSlotsExperiment.copyPart BootTable.entriesCount
  refine ⟨hall.length, ?_, hall.others⟩
  intro i hi hti a ha
  rw [hall.targets i hi hti a ha, if_pos hi, if_neg (Nat.not_lt_zero i)]

theorem Copied.copyParts (h : Copied o answers flash 0 0 s) (hapart : Apart o)
    (hthree : SelectsThree o.sourceEntries) (bufferAddr : ℕ) (hk : k ≤ size / partSize) :
    Copied o answers flash k 0
      (((List.range k).map (· * partSize)).foldl (CopyBootSlotsExperiment.copyPart o answers bufferAddr) s) := by
  induction k with
  | zero => exact h
  | succ k ih =>
    rw [List.range_succ, List.map_append, List.foldl_append]
    exact (ih (by omega)).copyPart hapart hthree (by omega) bufferAddr

/-! ## Reports -/

/-- The iteration fails when a target can not be erased. Else it reports success, whatever the
programming made of the targets. -/
theorem iteration_cases (hapart : Apart o) (hthree : SelectsThree o.sourceEntries)
    (copyBuffer : CopyBuffer) :
    (EraseFails o answers ∧ (iteration o answers copyBuffer flash).1 = .failure) ∨
      ¬EraseFails o answers ∧ ∃ s, iteration o answers copyBuffer flash = (.finished, s) ∧
        s.frames.getLast? = some successResponse ∧
        ∀ i < 6, o.targetEntries.getLsbD i = true → ∀ a < size,
          s.driver.flash (i * size + a) = programmed o answers flash i a := by
  rcases @eraseTargets o answers ⟨⟨flash, []⟩, copyBuffer.bytes, []⟩ 6 le_rfl with
    ⟨t, ht, herased, hbuffer, hcalls⟩ | ⟨hfail, hfails⟩
  · right
    have hstart : Copied o answers flash 0 0 t := by
      refine ⟨by rw [hbuffer]; exact copyBuffer.length_bytes, ?_, herased.others⟩
      intro i hi hti a ha
      rw [herased.targets i hi hti a ha]
      simp
    have hend : Copied o answers flash (size / partSize) 0
        (partOffsets.foldl (copyPart o answers copyBuffer.addr) t) := by
      unfold partOffsets
      exact hstart.copyParts hapart hthree copyBuffer.addr le_rfl
    have hiteration : iteration o answers copyBuffer flash =
        (.finished, { (partOffsets.foldl (copyPart o answers copyBuffer.addr) t) with
          frames := (partOffsets.foldl (copyPart o answers copyBuffer.addr) t).frames ++
            [successResponse] }) := by
      unfold iteration BootTable.entriesCount
      rw [ht]
    -- all parts are in all targets
    generalize partOffsets.foldl (copyPart o answers copyBuffer.addr) t = u at hend hiteration
    refine ⟨?_, _, hiteration, List.getLast?_concat, ?_⟩
    · rintro ⟨i, hi, hti, k, hk, hbusy⟩
      exact hbusy (hcalls i hi hti k hk)
    · intro i hi hti a ha
      have hcopied := hend.targets i hi hti a ha
      have hall : size / partSize * partSize = size := by decide
      rw [if_neg (Nat.not_lt_zero i), hall, if_pos ha] at hcopied
      exact hcopied
  · left
    refine ⟨hfails, ?_⟩
    unfold iteration BootTable.entriesCount
    rcases he : Loops.firstSome (eraseTarget o answers) (List.range 6)
      ⟨⟨flash, []⟩, copyBuffer.bytes, []⟩ with ⟨r, u⟩
    rw [he] at hfail
    obtain rfl : r = some .failure := hfail
    rfl

/-- What the experiment reports for the masks of a telecommand is right. -/
structure ReportsTrueCopy (masks : Byte × Byte) (answers : FlashAnswers) (copyBuffer : CopyBuffer)
    (flash : Flash) : Prop where
  three : SelectsThree (setupEntries masks).sourceEntries
  apart : Apart (setupEntries masks)
  /-- After the report of a success each target is the vote on the sources at the start. -/
  copied : ∀ s, iteration (setupEntries masks) answers copyBuffer flash = (.finished, s) →
    s.frames.getLast? = some successResponse →
      ∀ i < 6, (setupEntries masks).targetEntries.getLsbD i = true → ∀ a < size,
        s.driver.flash (i * size + a) = majority (setupEntries masks) flash a

/-- Each operation that programs a target succeeds, or it leaves the part of the vote
nevertheless. -/
def PartsHold (o : CopyBootSlotsExperiment) (answers : FlashAnswers) (flash : Flash) : Prop :=
  ∀ i < 6, o.targetEntries.getLsbD i = true → ∀ k < size / partSize,
    (answers (partCall o flash i k)).status = .notBusy ∨
      ∀ j < partSize, (answers (partCall o flash i k)).left (i * size + (k * partSize + j)) =
        majority o flash (k * partSize + j)

theorem programmed_eq_majority_iff :
    (∀ i < 6, o.targetEntries.getLsbD i = true → ∀ a < size,
      programmed o answers flash i a = majority o flash a) ↔ PartsHold o answers flash := by
  refine forall_congr' fun i => forall_congr' fun hi => forall_congr' fun hti => ?_
  constructor
  · intro h k hk
    by_cases hs : (answers (partCall o flash i k)).status = .notBusy
    · exact Or.inl hs
    · right
      intro j hj
      have hdiv : (k * partSize + j) / partSize = k := by unfold partSize at *; omega
      have hbyte := h (k * partSize + j) (by have := part_le hk; omega)
      unfold programmed at hbyte
      rwa [hdiv, if_neg hs] at hbyte
  · intro h a ha
    have hk : a / partSize < size / partSize := by unfold size partSize at *; omega
    unfold programmed
    rcases h (a / partSize) hk with hs | hleft
    · exact if_pos hs
    · have hbyte := hleft (a % partSize) (Nat.mod_lt a (by decide))
      rw [Nat.div_add_mod'] at hbyte
      dsimp only
      split
      · rfl
      · exact hbyte

end PWSat2OBC.CopyBootSlotsExperiment

namespace PWSat2OBC.PerformCopyBootSlotsExperiment

open CopyBootSlotsExperiment ProgramEntry

/-- What the handler checks. -/
theorem accepted_spec {parameters : List Byte} {masks : Byte × Byte}
    (h : accepted parameters = some masks) :
    popcount masks.1 = 3 ∧ masks.1 &&& masks.2 &&& 0b111111 = 0 := by
  unfold accepted at h
  rcases hread : (PerformCopyBootSlotsExperiment.read parameters).2 with _ | params
  · rw [hread] at h
    exact absurd h (by simp)
  rw [hread] at h
  unfold PerformCopyBootSlotsExperiment.read at hread
  dsimp only at hread
  split at hread
  · exact absurd hread (by simp)
  · rename_i hbad
    obtain rfl := Option.some.inj hread
    obtain rfl := Option.some.inj h
    simp only [Bool.or_eq_true, decide_eq_true_eq, not_or, not_not] at hbad
    exact ⟨hbad.1.1.2, hbad.1.1.1.2⟩

/-- Slots of the source mask are no targets. -/
theorem apart_of_accepted {parameters : List Byte} {masks : Byte × Byte}
    (h : accepted parameters = some masks) (hthree : SelectsThree (setupEntries masks).sourceEntries) :
    Apart (setupEntries masks) := by
  intro slot hslot
  obtain ⟨hlt, hbit⟩ := hthree.2.2.1 slot hslot
  have hzero := congrArg (fun m : Byte => m.getLsbD slot.toNat) (accepted_spec h).2
  have hlow : (0b111111 : Byte).getLsbD slot.toNat = true := by
    revert hlt
    generalize slot.toNat = n
    revert n
    decide
  simp only [setupEntries, BitVec.getLsbD_setWidth, BitVec.getLsbD_and, hlow, hlt, decide_true,
    Bool.true_and, Bool.and_true] at hbit hzero ⊢
  rw [hbit, Bool.true_and] at hzero
  exact hzero.trans BitVec.getLsbD_zero

/-- **A copy is reported truthfully exactly when** the upper two bits of the source mask are
clear, and either a target can not be erased or each part is programmed. -/
theorem reportsTrueCopy_iff (parameters : List Byte) (answers : FlashAnswers) (copyBuffer : CopyBuffer)
    (flash : Flash) :
    (∀ masks ∈ accepted parameters, ReportsTrueCopy masks answers copyBuffer flash) ↔
      ∀ masks ∈ accepted parameters, masks.1 &&& 0b11000000 = 0 ∧
        (EraseFails (setupEntries masks) answers ∨ PartsHold (setupEntries masks) answers flash) := by
  refine forall_congr' fun masks => forall_congr' fun h => ?_
  have hselects : SelectsThree (setupEntries masks).sourceEntries ↔ masks.1 &&& 0b11000000 = 0 :=
    selectsThree_iff (accepted_spec h).1
  constructor
  · intro hreport
    refine ⟨hselects.1 hreport.three, ?_⟩
    rcases @iteration_cases _ answers flash hreport.apart hreport.three copyBuffer with
      ⟨hfails, -⟩ | ⟨-, s, hs, hframe, hflash⟩
    · exact Or.inl hfails
    · right
      rw [← programmed_eq_majority_iff]
      intro i hi hti a ha
      rw [← hflash i hi hti a ha]
      exact hreport.copied s hs hframe i hi hti a ha
  · rintro ⟨hhigh, hflash⟩
    have hthree := hselects.2 hhigh
    have hapart := apart_of_accepted h hthree
    refine ⟨hthree, hapart, ?_⟩
    intro s hs hframe i hi hti a ha
    rcases @iteration_cases _ answers flash hapart hthree copyBuffer with
      ⟨-, hfail⟩ | ⟨hno, t, ht, -, hbytes⟩
    · rw [hs] at hfail
      exact IterationResult.noConfusion hfail
    · obtain rfl : s = t := congrArg Prod.snd (hs.symm.trans ht)
      have hparts := hflash.resolve_left hno
      rw [hbytes i hi hti a ha]
      exact programmed_eq_majority_iff.2 hparts i hi hti a ha

/-- The frame `[7, 0b11000010, 0b00000001]` is accepted. Its source mask names slot 1 and two
slots that do not exist; the experiment votes slot 1 with slot 0 twice, which is its target. -/
theorem twoSlotsMissing_not_reportsTrueCopy :
    ¬ ∀ masks ∈ accepted [7, 0b11000010, 0b00000001],
      ReportsTrueCopy masks (fun _ => ⟨.notBusy, fun _ => 0⟩)
        ⟨0x20000000, List.replicate 1024 0, List.length_replicate⟩ (fun _ => 0xFF) := by
  intro h
  have hmasks : (0b11000010, 0b00000001) ∈ accepted [7, 0b11000010, 0b00000001] := by decide
  exact absurd (h _ hmasks).three (by decide)

end PWSat2OBC.PerformCopyBootSlotsExperiment
