import Mathlib.Data.List.GetD
import PWSat2OBC.Lib.Patrol
import PWSat2OBC.Proof.ApplicationLoad
import PWSat2OBC.Proof.Boot
import PWSat2OBC.Proof.Scrubber
import PWSat2OBC.Proof.UploadSoftware
import PWSat2OBC.Spec.ProgramLife

/-!
# An uploaded program is booted

The slots of the program stay under one of the two scrubbers, whichever of the two masks is
booted. What is wrong with a block has been hit since the last scrub of the block, that is
while there were less than eight scrubs between boots (`Patrol.Recent`). So where upsets are
`Rare` each vote is right: that of the scrubber, which then makes good all that is wrong,
and that of the boot.
-/

namespace PWSat2OBC.ProgramSlots

open Voting ProgramEntry UploadSoftware Upload

/-! ## What a boot needs -/

/-- The bytes of a slot that a boot of the program depends on. -/
def image (u : Upload) (k : ℕ) : Option Byte :=
  if k < 4 then some ((Redundancy.storeWord (BitVec.ofNat 32 u.programData.length)).getD k 0)
  else if k = 64 then some 0xAA
  else if 1024 ≤ k ∧ k < 1024 + u.programData.length then some (u.programData.getD (k - 1024) 0)
  else none

/-- A bit of a slot. -/
structure Spot where
  slot : Byte
  offset : ℕ
  bit : ℕ

/-- The bits that are not as they should be. -/
def wrong (u : Upload) (slots : List Byte) (flash : Flash) : Set Spot :=
  {x | x.slot ∈ slots ∧ x.bit < 8 ∧ ∃ byte, image u x.offset = some byte ∧
    (flash (inFlashOffset x.slot + x.offset)).getLsbD x.bit ≠ byte.getLsbD x.bit}

/-- No two slots are wrong at one place: in the same bit or, for the marker, anywhere in the
byte. -/
def Few (spots : Set Spot) : Prop :=
  ∀ x ∈ spots, ∀ y ∈ spots, x.offset = y.offset → (x.bit = y.bit ∨ x.offset = 64) → x.slot = y.slot

theorem Few.mono {spots spots' : Set Spot} (hsub : spots ⊆ spots') (h : Few spots') : Few spots :=
  fun x hx y hy => h x (hsub hx) y (hsub hy)

section

variable {u : Upload} {flash : Flash} {slots : List Byte}

theorem image_lt (hfits : u.programData.length ≤ size - 1024) {k : ℕ} {byte : Byte}
    (h : image u k = some byte) : k < size := by
  have hsize : size = 524288 := rfl
  rw [hsize] at hfits ⊢
  unfold image at h
  split_ifs at h with hlength hmarker hcontent
  · omega
  · omega
  · have hend := hcontent.2
    omega

theorem image_of_stored {i : Byte} (h : Stored u i flash) {k : ℕ} {byte : Byte}
    (hk : image u k = some byte) : flash (inFlashOffset i + k) = byte := by
  unfold image at hk
  split_ifs at hk with hlength hmarker hcontent
  · -- the length
    have hword := h.length
    rw [length_eq] at hword
    rw [← hword, Redundancy.storeWord_loadWord] at hk
    rw [← Option.some.inj hk]
    have hcases : k = 0 ∨ k = 1 ∨ k = 2 ∨ k = 3 := by omega
    rcases hcases with hk | hk | hk | hk
    · rw [hk, Nat.add_zero, List.getD_cons_zero]
    · rw [hk, List.getD_cons_succ, List.getD_cons_zero]
    · rw [hk, List.getD_cons_succ, List.getD_cons_succ, List.getD_cons_zero]
    · rw [hk, List.getD_cons_succ, List.getD_cons_succ, List.getD_cons_succ, List.getD_cons_zero]
  · obtain rfl := Option.some.inj hk
    rw [hmarker]
    exact beq_iff_eq.1 h.valid
  · obtain rfl := Option.some.inj hk
    have hcell := h.content (k - 1024) (by omega)
    rwa [Nat.add_sub_cancel' hcontent.1] at hcell

theorem wrong_of_stored (h : ∀ i ∈ slots, Stored u i flash) : wrong u slots flash = ∅ := by
  rw [Set.eq_empty_iff_forall_notMem]
  rintro x ⟨hslot, -, byte, hbyte, hne⟩
  rw [image_of_stored (h _ hslot) hbyte] at hne
  exact hne rfl

/-- **Each vote is right.** -/
theorem vote_eq (hnodup : slots.Nodup) (h3 : slots.length = 3) {k : ℕ}
    (hfew : Few {x ∈ wrong u slots flash | x.offset = k}) {byte : Byte} (hk : image u k = some byte) :
    vote (slots.map fun t => flash (inFlashOffset t + k)) = byte := by
  apply vote_of_lone_wrong hnodup (by omega)
  intro i hi a ha b hb hwa hwb
  exact hfew ⟨a, k, i⟩ ⟨⟨ha, hi, byte, hk, hwa⟩, rfl⟩ ⟨b, k, i⟩ ⟨⟨hb, hi, byte, hk, hwb⟩, rfl⟩ rfl (Or.inl rfl)

/-- At most one marker is gone. -/
theorem countP_not_isValid (hnodup : slots.Nodup) (hfew : Few (wrong u slots flash)) :
    slots.countP (fun t => !isValid flash t) ≤ 1 := by
  have hwrong : ∀ t ∈ slots, (!isValid flash t) = true → ∃ i, (⟨t, 64, i⟩ : Spot) ∈ wrong u slots flash := by
    intro t ht hmarker
    rw [Bool.not_eq_true', isValid, beq_eq_false_iff_ne] at hmarker
    by_contra hnone
    apply hmarker
    apply BitVec.eq_of_getLsbD_eq
    intro i hi
    by_contra hne
    exact hnone ⟨i, ht, hi, 0xAA, rfl, hne⟩
  apply countP_le_one hnodup
  intro a ha b hb hpa hpb
  obtain ⟨i, hwa⟩ := hwrong a ha hpa
  obtain ⟨j, hwb⟩ := hwrong b hb hpb
  exact hfew _ hwa _ hwb rfl (Or.inr rfl)

/-- The same for the gates of `Correct`. -/
theorem majority_eq (hnodup : slots.Nodup) (h3 : slots.length = 3) (hfew : Few (wrong u slots flash))
    {k : ℕ} {byte : Byte} (hk : image u k = some byte) :
    majority3 (flash (inFlashOffset (slots.getD 0 0) + k)) (flash (inFlashOffset (slots.getD 1 0) + k))
      (flash (inFlashOffset (slots.getD 2 0) + k)) = byte := by
  have hvote := vote_eq hnodup h3 (hfew.mono (Set.sep_subset _ _)) hk
  match slots, h3 with
  | [a, b, c], _ => rwa [← vote_three]

/-- The length that is voted. -/
theorem length_voted (hnodup : slots.Nodup) (h3 : slots.length = 3) (hfew : Few (wrong u slots flash)) :
    ApplicationLoad.votedLength flash slots = BitVec.ofNat 32 u.programData.length := by
  have h0 := @majority_eq u flash slots hnodup h3 hfew 0 _ rfl
  have h1 := @majority_eq u flash slots hnodup h3 hfew 1 _ rfl
  have h2 := @majority_eq u flash slots hnodup h3 hfew 2 _ rfl
  have h3 := @majority_eq u flash slots hnodup h3 hfew 3 _ rfl
  simp only [Nat.add_zero] at h0
  rw [← ApplicationLoad.length_eq_votedLength, ApplicationLoad.length]
  rw [length_eq, length_eq, length_eq, Redundancy.correct_loadWord, h0, h1, h2, h3]
  exact Redundancy.loadWord_storeWord _

theorem correctBool_of_countP {p : Byte → Bool} {l : List Byte} (hl : l.length = 3)
    (h : l.countP (fun t => !p t) ≤ 1) :
    Boot.correctBool (p (l.getD 0 0)) (p (l.getD 1 0)) (p (l.getD 2 0)) = true := by
  match l, hl with
  | [a, b, c], _ =>
    simp only [List.countP_cons, List.countP_nil] at h
    simp only [List.getD_cons_zero, List.getD_cons_succ, Boot.correctBool]
    cases ha : p a <;> cases hb : p b <;> cases hc : p c <;> simp_all

end

/-! ## Masks -/

/-- Three slots and nothing else. -/
structure Triple (slotsMask : Byte) : Prop where
  three : popcount slotsMask = 3
  below : slotsMask.toNat < 64

namespace Triple

variable {slotsMask : Byte}

theorem low (h : Triple slotsMask) : popcount (slotsMask &&& 0b00111111) = 3 := by
  rw [Boot.low_six_of_lt slotsMask h.below, h.three]

theorem nodup (h : Triple slotsMask) : (BootTable.selectEntries slotsMask).Nodup :=
  BootTable.nodup_selectEntries h.low

theorem length (h : Triple slotsMask) : (BootTable.selectEntries slotsMask).length = 3 :=
  BootTable.length_selectEntries h.low

theorem not_special (h : Triple slotsMask) : ¬ BootPlan.Special slotsMask := by
  rintro (rfl | rfl)
  · exact absurd h.three (by decide)
  · exact absurd h.three (by decide)

theorem valid_aux : ∀ mask : Byte, popcount mask = 3 → mask.toNat < 64 →
    BootSettings.isValidBootSlot mask = true := by
  decide +kernel

theorem valid (h : Triple slotsMask) : BootSettings.isValidBootSlot slotsMask = true :=
  valid_aux slotsMask h.three h.below

theorem mem_entries (h : Triple slotsMask) {i : Byte} (hi : i ∈ BootTable.selectEntries slotsMask) :
    i ∈ BootTable.entries :=
  List.mem_map.2 ⟨i.toNat, List.mem_range.2 (BootTable.lt_of_mem_selectEntries h.low hi), by simp⟩

theorem secondary_aux : ∀ mask : Byte, popcount mask = 3 → mask.toNat < 64 →
    popcount (secondaryMask mask) = 3 ∧ (secondaryMask mask).toNat < 64 ∧
      secondaryMask (secondaryMask mask) = mask ∧
      ∀ t ∈ BootTable.selectEntries mask, t ∉ BootTable.selectEntries (secondaryMask mask) := by
  decide +kernel

theorem secondary (h : Triple slotsMask) : Triple (secondaryMask slotsMask) :=
  ⟨(secondary_aux slotsMask h.three h.below).1, (secondary_aux slotsMask h.three h.below).2.1⟩

theorem secondary_secondary (h : Triple slotsMask) : secondaryMask (secondaryMask slotsMask) = slotsMask :=
  (secondary_aux slotsMask h.three h.below).2.2.1

theorem not_mem_secondary (h : Triple slotsMask) {t : Byte} (ht : t ∈ BootTable.selectEntries slotsMask) :
    t ∉ BootTable.selectEntries (secondaryMask slotsMask) :=
  (secondary_aux slotsMask h.three h.below).2.2.2 t ht

theorem secondary_ne (h : Triple slotsMask) : secondaryMask slotsMask ≠ slotsMask := by
  intro heq
  have hslot : (BootTable.selectEntries slotsMask).getD 0 0 ∈ BootTable.selectEntries slotsMask := by
    rw [List.getD_eq_getElem _ _ (by rw [h.length]; omega)]
    exact List.getElem_mem _
  have hnot := h.not_mem_secondary hslot
  rw [heq] at hnot
  exact hnot hslot

end Triple

/-! ## The next boot -/

/-- The settings ask for the slots. -/
def Selected (slotsMask : Byte) (s : ProgramSlots) : Prop :=
  s.settings.checkMagicNumber = true ∧ s.settings.bootSlots = slotsMask

/-- The settings allow for another boot of the slots. -/
def Trusted (s : ProgramSlots) : Prop :=
  (s.settings.bootCounter - s.settings.lastConfirmedBootCounter).toNat < 10 ∧
    s.settings.bootCounter < BootSettings.bootCounterTop

/-- **The next boot is one of the program.** -/
structure BootsInto (u : Upload) (slotsMask : Byte) (s : ProgramSlots) : Prop where
  index : (Boot.proceedWithBooting s.flash s.settings).slotsMask = slotsMask
  application : (Boot.proceedWithBooting s.flash s.settings).application = .tmr (Boot.toSlotNumbers slotsMask)
  /-- The application is the program, and the bootloader is left alone. -/
  loaded : ∀ pageBuffer mcuFlash, ∃ fuel after,
    ApplicationLoad.loadApplicationTMR s.flash (Boot.toSlotNumbers slotsMask) fuel pageBuffer mcuFlash = some after ∧
      (∀ k < u.programData.length,
        after.mcuFlash (ApplicationLoad.applicationBase + k) = u.programData.getD k 0) ∧
      ∀ a < ApplicationLoad.applicationBase, after.mcuFlash a = mcuFlash a

section

variable {u : Upload} {slotsMask : Byte} {s : ProgramSlots}

theorem isBootSlotsValid_of_few (h : Triple slotsMask)
    (hfew : Few (wrong u (Boot.toSlotNumbers slotsMask) s.flash)) :
    Boot.isBootSlotsValid s.flash slotsMask = true := by
  rw [Boot.isBootSlotsValid, if_neg (not_not.2 h.three)]
  exact correctBool_of_countP h.length (countP_not_isValid h.nodup hfew)

/-- The plan of a boot that is trusted. -/
theorem boot_of_trusted (h : Triple slotsMask) (hselected : Selected slotsMask s) (htrusted : Trusted s)
    (hfew : Few (wrong u (Boot.toSlotNumbers slotsMask) s.flash)) :
    s.settings.content.magic = BootSettings.magicNumber ∧
      s.settings.plan.boot (Boot.isBootSlotsValid s.flash) =
        (slotsMask, { s.settings.plan with slots := slotsMask, counter := s.settings.plan.counter + 1 }) := by
  have hmagic : s.settings.content.magic = BootSettings.magicNumber := by
    have hcheck := hselected.1
    rwa [BootSettings.checkMagicNumber_eq, beq_iff_eq] at hcheck
  obtain ⟨hdifference, hcounter⟩ := htrusted
  have hslots := hselected.2
  rw [BootSettings.bootSlots_eq, if_pos hmagic] at hslots
  rw [BootSettings.bootCounter_eq, if_pos hmagic] at hdifference hcounter
  have hunconfirmed : s.settings.plan.unconfirmed < 10 := hdifference
  have hprimary : s.settings.plan.primary = slotsMask := by
    rw [BootPlan.primary, if_pos (Or.inr hunconfirmed)]
    exact hslots
  refine ⟨hmagic, ?_⟩
  rw [BootPlan.boot, hprimary, if_neg fun heq => h.not_special (Or.inl heq),
    if_neg fun heq => h.not_special (Or.inr heq), if_pos (isBootSlotsValid_of_few h hfew)]
  exact if_neg (BitVec.not_le.2 hcounter)

/-- **A boot from slots in which few bits are wrong.** -/
theorem bootsInto_of_few (h : Triple slotsMask) (hsize : u.programData.length ≤ 127 * 4096)
    (hselected : Selected slotsMask s) (htrusted : Trusted s)
    (hfew : Few (wrong u (Boot.toSlotNumbers slotsMask) s.flash)) : BootsInto u slotsMask s := by
  obtain ⟨hmagic, hboot⟩ := boot_of_trusted h hselected htrusted hfew
  obtain ⟨hindex, -, -⟩ := Boot.proceedWithBooting_refines s.flash s.settings hmagic
  rw [hboot] at hindex
  refine ⟨hindex, ?_, ?_⟩
  · rw [Boot.application_eq, hindex, Boot.loadApplication, if_neg fun heq => h.not_special (Or.inl heq),
      if_pos fun heq => h.not_special (Or.inr heq)]
  · intro pageBuffer mcuFlash
    have hlength := length_voted h.nodup h.length hfew
    have htoNat : (ApplicationLoad.votedLength s.flash (Boot.toSlotNumbers slotsMask)).toNat =
        u.programData.length := by
      rw [show ApplicationLoad.votedLength s.flash (Boot.toSlotNumbers slotsMask) = _ from hlength,
        BitVec.toNat_ofNat]
      exact Nat.mod_eq_of_lt (by omega)
    have hpages : ApplicationLoad.pages s.flash (Boot.toSlotNumbers slotsMask) ≤ ApplicationLoad.wholePages := by
      rw [ApplicationLoad.pages_le_iff, htoNat]
      exact hsize
    obtain ⟨after, hload, hprogress⟩ := ApplicationLoad.loadFrom_progress pageBuffer.addr hpages
      (ApplicationLoad.pages s.flash (Boot.toSlotNumbers slotsMask))
      (@ApplicationLoad.progress_zero s.flash (Boot.toSlotNumbers slotsMask) mcuFlash pageBuffer)
      (Nat.zero_le _) (by omega)
    rw [Nat.zero_mul] at hload
    have hloaded := hprogress.loaded hpages
    refine ⟨_, after, hload, ?_, fun a ha => hloaded.kept a (Or.inl ha)⟩
    intro k hk
    -- the byte is on one of the pages, and its vote is right
    have hpage : k < ApplicationLoad.pages s.flash (Boot.toSlotNumbers slotsMask) * ApplicationLoad.pageSize := by
      have hcover := Chunks.le_count_mul (ApplicationLoad.votedLength s.flash (Boot.toSlotNumbers slotsMask)).toNat
        (show 0 < ApplicationLoad.pageSize by decide)
      rw [htoNat] at hcover
      unfold ApplicationLoad.pages
      rw [htoNat]
      omega
    have himage : image u (1024 + k) = some (u.programData.getD k 0) := by
      rw [image, if_neg (by omega), if_neg (by omega), if_pos ⟨by omega, by omega⟩, Nat.add_sub_cancel_left]
    have hbyte := majority_eq h.nodup h.length hfew himage
    rw [hloaded.copied k hpage, ApplicationLoad.contentMajority]
    unfold ApplicationLoad.contentStart
    simp only [Nat.add_assoc]
    exact hbyte

end

/-! ## Scrubs -/

open ProgramScrubber (scrubSize decodeSlotsMask Voted)

/-- The wrong bits in a block. -/
def wrongIn (u : Upload) (slots : List Byte) (flash : Flash) (j : ℕ) : Set Spot :=
  {x ∈ wrong u slots flash | x.offset / scrubSize = j}

section

variable {u : Upload} {slots : List Byte} {flash f : Flash} {k : ℕ}

/-- **A vote makes good the block** of its slots in which few bits are wrong. -/
theorem wrongIn_voted (hfits : u.programData.length ≤ size - 1024) (hnodup : slots.Nodup)
    (h3 : slots.length = 3) (h : Voted flash slots {k} f) (hfew : Few (wrongIn u slots flash k)) :
    wrongIn u slots f k = ∅ ∧ ∀ j, j ≠ k → wrongIn u slots f j ⊆ wrongIn u slots flash j := by
  have hcell : ∀ x ∈ wrong u slots f, f (inFlashOffset x.slot + x.offset) =
      if x.offset / scrubSize = k then vote (slots.map fun t => flash (inFlashOffset t + x.offset))
      else flash (inFlashOffset x.slot + x.offset) := by
    rintro x ⟨hslot, -, byte, hbyte, -⟩
    have hlt := image_lt hfits hbyte
    have hblock : x.offset / scrubSize < 8 := by
      unfold size at hlt
      unfold scrubSize Flash.largeSectorSize
      omega
    have hin := h.inside x.slot hslot (x.offset / scrubSize) hblock (x.offset % scrubSize)
      (Nat.mod_lt _ (by decide))
    rw [Nat.div_add_mod'] at hin
    simp only [Finset.mem_singleton] at hin
    exact hin
  constructor
  · rw [Set.eq_empty_iff_forall_notMem]
    rintro x ⟨hx, hblock⟩
    have hvalue := hcell x hx
    obtain ⟨-, -, byte, hbyte, hne⟩ := hx
    have hsub : {y ∈ wrong u slots flash | y.offset = x.offset} ⊆ wrongIn u slots flash k := by
      rintro y ⟨hy, hoffset⟩
      exact ⟨hy, by rw [hoffset, hblock]⟩
    rw [hvalue, if_pos hblock, vote_eq hnodup h3 (hfew.mono hsub) hbyte] at hne
    exact hne rfl
  · rintro j hj x ⟨hx, hblock⟩
    have hvalue := hcell x hx
    obtain ⟨hslot, hbit, byte, hbyte, hne⟩ := hx
    rw [hvalue, if_neg (by rw [hblock]; exact hj)] at hne
    exact ⟨⟨hslot, hbit, byte, hbyte, hne⟩, hblock⟩

/-- A vote of other slots changes nothing in these. -/
theorem wrongIn_others (hfits : u.programData.length ≤ size - 1024) {others : List Byte}
    (hothers : ∀ t ∈ slots, t ∉ others) (h : Voted flash others {k} f) (j : ℕ) :
    wrongIn u slots f j ⊆ wrongIn u slots flash j := by
  rintro x ⟨⟨hslot, hbit, byte, hbyte, hne⟩, hblock⟩
  have hlt := image_lt hfits hbyte
  have hout : f (inFlashOffset x.slot + x.offset) = flash (inFlashOffset x.slot + x.offset) := by
    apply h.outside
    intro t ht
    have hdisjoint := ProgramScrubber.entries_disjoint
      (show x.slot ≠ t from fun heq => hothers x.slot hslot (heq ▸ ht)) 0
    omega
  rw [hout] at hne
  exact ⟨⟨hslot, hbit, byte, hbyte, hne⟩, hblock⟩

end

/-- A call of a scrubber that is at block `k`. -/
theorem scrub_spec {s : ProgramSlots} {c : ProgramScrubber} (h3 : popcount (c.slotsMask &&& 0b00111111) = 3)
    (hbuffer : s.scrubbingBuffer.length = scrubSize) {k : ℕ} (hk : k < 8) (hoffset : c.offset = k * scrubSize)
    (locked : Bool) :
    (scrub c locked s).2.slotsMask = c.slotsMask ∧ (scrub c locked s).2.buffer.length = scrubSize ∧
      (scrub c locked s).2.offset = (if locked then (k + 1) % 8 else k) * scrubSize ∧
      (locked = true → Voted s.flash (decodeSlotsMask c.slotsMask) {k} (scrub c locked s).1) ∧
      (locked = false → (scrub c locked s).1 = s.flash) := by
  cases locked with
  | false =>
    refine ⟨rfl, hbuffer, hoffset, fun h => absurd h Bool.false_ne_true, fun _ => rfl⟩
  | true =>
    have hok : ({ c with buffer := s.scrubbingBuffer } : ProgramScrubber).OK := ⟨hbuffer, k, hk, hoffset⟩
    have hlocked := ProgramScrubber.scrubSlots_locked s.flash hok h3
    have hvoted := (Voted.nil s.flash (decodeSlotsMask c.slotsMask)).overwrite hk (Finset.notMem_empty k)
    rw [insert_empty_eq] at hvoted
    unfold scrub
    rw [hlocked]
    dsimp only
    refine ⟨rfl, ?_, ?_, ?_, fun h => absurd h.symm Bool.false_ne_true⟩
    · exact ProgramScrubber.length_majorityBlock _ _ _
    · rw [if_pos rfl, hoffset]
      unfold ProgramScrubber.scrubAreaSize size scrubSize Flash.largeSectorSize
      split_ifs <;> omega
    · intro _
      rw [hoffset]
      exact hvoted

/-! ## Steps -/

/-- The scrubbers of the slots and of the other ones, in the order of either boot. -/
structure Patrolled (slotsMask : Byte) (s : ProgramSlots) : Prop where
  masks : (s.primarySlotsScrubber.slotsMask = slotsMask ∧
      s.secondarySlotsScrubber.slotsMask = secondaryMask slotsMask) ∨
    (s.primarySlotsScrubber.slotsMask = secondaryMask slotsMask ∧
      s.secondarySlotsScrubber.slotsMask = slotsMask)
  buffer : s.scrubbingBuffer.length = scrubSize
  primary : ∃ k < 8, s.primarySlotsScrubber.offset = k * scrubSize
  secondary : ∃ k < 8, s.secondarySlotsScrubber.offset = k * scrubSize

/-- The scrubber of the slots. -/
def patrol (slotsMask : Byte) (s : ProgramSlots) : ProgramScrubber :=
  if s.primarySlotsScrubber.slotsMask = slotsMask then s.primarySlotsScrubber else s.secondarySlotsScrubber

/-- The block it scrubs next. -/
def position (slotsMask : Byte) (s : ProgramSlots) : ℕ := (patrol slotsMask s).offset / scrubSize

section

variable {slotsMask : Byte} {s t : ProgramSlots}

theorem position_of_offset {k : ℕ} (h : (patrol slotsMask s).offset = k * scrubSize) :
    position slotsMask s = k := by
  rw [position, h]
  exact Nat.mul_div_cancel k (by decide)

theorem Patrolled.position_lt (h : Patrolled slotsMask s) : position slotsMask s < 8 := by
  obtain ⟨k, hk, hoffset⟩ : ∃ k < 8, (patrol slotsMask s).offset = k * scrubSize := by
    unfold patrol
    split
    · exact h.primary
    · exact h.secondary
  rw [position_of_offset hoffset]
  exact hk

/-- What a call of the scrubber with a mask does to the slots. -/
inductive Effect (slotsMask mask : Byte) (locked : Bool) (s t : ProgramSlots) : Prop
  | none (hlocked : locked = false) (flash : t.flash = s.flash)
    (position : position slotsMask t = position slotsMask s)
  | own (hlocked : locked = true) (hmask : mask = slotsMask)
    (voted : Voted s.flash (decodeSlotsMask slotsMask) {position slotsMask s} t.flash)
    (position : position slotsMask t = (position slotsMask s + 1) % 8)
  | other (hmask : mask ≠ slotsMask) (k : ℕ)
    (voted : Voted s.flash (decodeSlotsMask (secondaryMask slotsMask)) {k} t.flash)
    (position : position slotsMask t = position slotsMask s)

section

variable {c : ProgramScrubber} {k : ℕ} {locked : Bool}

theorem effect_own (h : Triple slotsMask) (hbuffer : s.scrubbingBuffer.length = scrubSize) (hk : k < 8)
    (hoffset : c.offset = k * scrubSize) (hmask : c.slotsMask = slotsMask) (hs : patrol slotsMask s = c)
    (ht : patrol slotsMask t = (scrub c locked s).2) (hflash : t.flash = (scrub c locked s).1) :
    Effect slotsMask c.slotsMask locked s t := by
  obtain ⟨-, -, hnext, hvoted, hsame⟩ :=
    scrub_spec (show popcount (c.slotsMask &&& 0b00111111) = 3 by rw [hmask]; exact h.low) hbuffer hk hoffset locked
  have hfrom : position slotsMask s = k := position_of_offset (by rw [hs]; exact hoffset)
  have hto : position slotsMask t = if locked then (k + 1) % 8 else k := position_of_offset (by rw [ht]; exact hnext)
  cases locked with
  | false => exact .none rfl (hflash.trans (hsame rfl)) (hto.trans hfrom.symm)
  | true =>
    apply Effect.own rfl hmask
    · rw [hflash, hfrom, ← hmask]
      exact hvoted rfl
    · rw [hto, hfrom]
      rfl

theorem effect_other (h : Triple slotsMask) (hbuffer : s.scrubbingBuffer.length = scrubSize) (hk : k < 8)
    (hoffset : c.offset = k * scrubSize) (hmask : c.slotsMask = secondaryMask slotsMask)
    (ht : patrol slotsMask t = patrol slotsMask s) (hflash : t.flash = (scrub c locked s).1) :
    Effect slotsMask c.slotsMask locked s t := by
  obtain ⟨-, -, -, hvoted, hsame⟩ := scrub_spec
    (show popcount (c.slotsMask &&& 0b00111111) = 3 by rw [hmask]; exact h.secondary.low) hbuffer hk hoffset locked
  have hposition : position slotsMask t = position slotsMask s := by rw [position, ht, position]
  cases locked with
  | false => exact .none rfl (hflash.trans (hsame rfl)) hposition
  | true =>
    apply Effect.other (by rw [hmask]; exact h.secondary_ne) k _ hposition
    rw [hflash, ← hmask]
    exact hvoted rfl

end

/-- **A scrub** of the slots or of the other ones. -/
theorem step_scrubSlots (h : Triple slotsMask) (hs : Patrolled slotsMask s) {mask : Byte} {locked : Bool}
    (hstep : step s (.scrubSlots mask locked) = some t) :
    Patrolled slotsMask t ∧ t.settings = s.settings ∧ Effect slotsMask mask locked s t := by
  obtain ⟨hmasks, hbuffer, ⟨k, hk, hprimary⟩, ⟨l, hl, hsecondary⟩⟩ := hs
  have hne := h.secondary_ne
  have hlow : ∀ c : ProgramScrubber, c.slotsMask = slotsMask ∨ c.slotsMask = secondaryMask slotsMask →
      popcount (c.slotsMask &&& 0b00111111) = 3 := by
    rintro c (hc | hc)
    · rw [hc, h.low]
    · rw [hc, h.secondary.low]
  have hlt : ∀ k < 8, (if locked then (k + 1) % 8 else k) < 8 := by
    intro k hk
    split
    · exact Nat.mod_lt _ (by omega)
    · exact hk
  unfold step at hstep
  dsimp only at hstep
  split_ifs at hstep with h1 h2
  · -- the first scrubber
    obtain ⟨hmask', hbuffer', hoffset', -, -⟩ := scrub_spec (hlow s.primarySlotsScrubber (hmasks.imp And.left And.left))
      hbuffer hk hprimary locked
    rw [h1]
    obtain rfl := Option.some.inj hstep
    refine ⟨⟨?_, hbuffer', ⟨_, hlt k hk, hoffset'⟩, ⟨l, hl, hsecondary⟩⟩, rfl, ?_⟩
    · simp only [hmask']
      exact hmasks
    · rcases hmasks with ⟨hp, hq⟩ | ⟨hp, hq⟩
      · exact effect_own h hbuffer hk hprimary hp (if_pos hp) (if_pos (hmask'.trans hp)) rfl
      · have hother : s.primarySlotsScrubber.slotsMask ≠ slotsMask := by rw [hp]; exact hne
        have hafter : patrol slotsMask s = s.secondarySlotsScrubber := if_neg hother
        apply effect_other h hbuffer hk hprimary hp _ rfl
        rw [hafter]
        exact if_neg (by rw [hmask']; exact hother)
  · -- the second one
    obtain ⟨hmask', hbuffer', hoffset', -, -⟩ := scrub_spec (hlow s.secondarySlotsScrubber
      (hmasks.symm.imp And.right And.right)) hbuffer hl hsecondary locked
    rw [h2]
    obtain rfl := Option.some.inj hstep
    refine ⟨⟨?_, hbuffer', ⟨k, hk, hprimary⟩, ⟨_, hlt l hl, hoffset'⟩⟩, rfl, ?_⟩
    · simp only [hmask']
      exact hmasks
    · rcases hmasks with ⟨hp, hq⟩ | ⟨hp, hq⟩
      · apply effect_other h hbuffer hl hsecondary hq _ rfl
        exact (if_pos hp).trans (if_pos hp).symm
      · have hother : s.primarySlotsScrubber.slotsMask ≠ slotsMask := by rw [hp]; exact hne
        exact effect_own h hbuffer hl hsecondary hq (if_neg hother) (if_neg hother) rfl

end

/-! ## Runs -/

/-- A boot starts both scrubbers anew. -/
def restart : SlotsEvent → Bool
  | .reboot _ => true
  | _ => false

/-- The slots of the mask are scrubbed. -/
def visit (slotsMask : Byte) : SlotsEvent → Bool
  | .scrubSlots mask locked => locked && mask == slotsMask
  | _ => false

/-- The bits of the slots that an event flips. -/
def hits (slots : List Byte) : SlotsEvent → Set Spot
  | .upset address bit => {x | x.slot ∈ slots ∧ x.offset < size ∧ x.bit = bit ∧
      inFlashOffset x.slot + x.offset = address}
  | _ => ∅

/-- **Rare upsets**: while the slots are scrubbed less than eight times between boots, no two of them
are hit at one place. -/
def Rare (slotsMask : Byte) (es : List SlotsEvent) : Prop :=
  ∀ pre mid post, es = pre ++ mid ++ post → Patrol.Brief restart (visit slotsMask) 8 mid →
    Few (Patrol.hitIn (hits (Boot.toSlotNumbers slotsMask)) mid)

/-- The boot slots are set to these, and a boot comes when they are set and still trusted. -/
def Careful (slotsMask : Byte) (s : ProgramSlots) : SlotsEvent → Prop
  | .setBootSlots parameters => ∃ correlationId failsafe,
      parameters = [correlationId, slotsMask, failsafe] ∧ BootSettings.isValidBootSlot failsafe = true
  | .reboot _ => Selected slotsMask s ∧ Trusted s
  | _ => True

/-- What holds after the events. -/
structure Kept (u : Upload) (slotsMask : Byte) (es : List SlotsEvent) (s : ProgramSlots) : Prop where
  patrolled : Patrolled slotsMask s
  recent : ∀ j < 8, Patrol.Recent restart (visit slotsMask) 8 (hits (Boot.toSlotNumbers slotsMask)) es
    (position slotsMask s) j (wrongIn u (Boot.toSlotNumbers slotsMask) s.flash j)
  selected : (∃ parameters, .setBootSlots parameters ∈ es) → Selected slotsMask s

section

variable {u : Upload} {slotsMask : Byte} {s t : ProgramSlots} {es : List SlotsEvent} {e : SlotsEvent}

theorem Rare.init (h : Rare slotsMask (es ++ [e])) : Rare slotsMask es := by
  intro pre mid post hes
  exact h pre mid (post ++ [e]) (by rw [hes]; simp)

theorem Kept.few_block (h : Kept u slotsMask es s) (hrare : Rare slotsMask es) {j : ℕ} (hj : j < 8) :
    Few (wrongIn u (Boot.toSlotNumbers slotsMask) s.flash j) :=
  (h.recent j hj).few (fun _ _ hsub hfew => Few.mono hsub hfew) hrare

/-- **Few bits are wrong** at any time. -/
theorem Kept.few (h : Kept u slotsMask es s) (hfits : u.programData.length ≤ size - 1024)
    (hrare : Rare slotsMask es) : Few (wrong u (Boot.toSlotNumbers slotsMask) s.flash) := by
  intro x hx y hy hoffset hbit
  have hblock : x.offset / scrubSize < 8 := by
    obtain ⟨-, -, byte, hbyte, -⟩ := hx
    have hlt := image_lt hfits hbyte
    unfold size at hlt
    unfold scrubSize Flash.largeSectorSize
    omega
  exact h.few_block hrare hblock x ⟨hx, rfl⟩ y ⟨hy, by rw [hoffset]⟩ hoffset hbit

/-- A flipped bit may be wrong afterwards, no other one gets wrong. -/
theorem wrongIn_upset (hfits : u.programData.length ≤ size - 1024) (slots : List Byte) (flash : Flash)
    (address bit j : ℕ) :
    wrongIn u slots (Function.update flash address (flash address ^^^ BitVec.twoPow 8 bit)) j ⊆
      wrongIn u slots flash j ∪ hits slots (.upset address bit) := by
  rintro x ⟨⟨hslot, hlt, byte, hbyte, hne⟩, hblock⟩
  by_cases haddress : inFlashOffset x.slot + x.offset = address
  · by_cases hbit : x.bit = bit
    · exact Or.inr ⟨hslot, image_lt hfits hbyte, hbit, haddress⟩
    · rw [haddress, Function.update_self, BitVec.getLsbD_xor, BitVec.getLsbD_twoPow,
        decide_eq_false (fun heq : bit = x.bit => hbit heq.symm), Bool.and_false, Bool.xor_false] at hne
      exact Or.inl ⟨⟨hslot, hlt, byte, hbyte, by rw [haddress]; exact hne⟩, hblock⟩
  · rw [Function.update_of_ne haddress] at hne
    exact Or.inl ⟨⟨hslot, hlt, byte, hbyte, hne⟩, hblock⟩

/-- An event that leaves the scrubbers alone. -/
theorem Kept.snoc (h : Kept u slotsMask es s) (hbuffer : t.scrubbingBuffer = s.scrubbingBuffer)
    (hprimary : t.primarySlotsScrubber = s.primarySlotsScrubber)
    (hsecondary : t.secondarySlotsScrubber = s.secondarySlotsScrubber)
    (hrestart : restart e = false) (hvisit : visit slotsMask e = false)
    (hwrong : ∀ j, wrongIn u (Boot.toSlotNumbers slotsMask) t.flash j ⊆
      wrongIn u (Boot.toSlotNumbers slotsMask) s.flash j ∪ hits (Boot.toSlotNumbers slotsMask) e)
    (hselected : (∃ parameters, .setBootSlots parameters ∈ es ++ [e]) → Selected slotsMask t) :
    Kept u slotsMask (es ++ [e]) t where
  patrolled := by
    obtain ⟨hmasks, hlength, hk, hl⟩ := h.patrolled
    constructor
    · rwa [hprimary, hsecondary]
    · rwa [hbuffer]
    · rwa [hprimary]
    · rwa [hsecondary]
  recent := by
    intro j hj
    have hnext : Patrol.next restart (visit slotsMask) 8 (position slotsMask s) e = position slotsMask s := by
      rw [Patrol.next, hrestart, hvisit]
      rfl
    have hposition : position slotsMask t = position slotsMask s := by
      unfold position patrol
      rw [hprimary, hsecondary]
    rw [hposition, ← hnext]
    apply (h.recent j hj).snoc hj h.patrolled.position_lt _ (hwrong j)
    intro _ hv
    rw [hvisit] at hv
    exact absurd hv Bool.false_ne_true
  selected := hselected

/-- The slots are set only by the telecommand. -/
theorem exists_setBootSlots (he : ∀ parameters, e ≠ .setBootSlots parameters)
    (h : ∃ parameters, SlotsEvent.setBootSlots parameters ∈ es ++ [e]) :
    ∃ parameters, SlotsEvent.setBootSlots parameters ∈ es := by
  obtain ⟨parameters, hmem⟩ := h
  rcases List.mem_append.1 hmem with hmem | hmem
  · exact ⟨parameters, hmem⟩
  · exact absurd (List.mem_singleton.1 hmem).symm (he parameters)

/-- The telecommand selects the slots. -/
theorem selected_handle (correlationId : Byte) (hvalid : BootSettings.isValidBootSlot slotsMask = true)
    {failsafe : Byte} (hvalid' : BootSettings.isValidBootSlot failsafe = true)
    (hsettings : t.settings =
      (SetBootSlotsTelecommand.handle s.settings [correlationId, slotsMask, failsafe]).2) :
    Selected slotsMask t := by
  have h0 := @Reader.at_init [correlationId, slotsMask, failsafe] (by simp) (by simp)
  obtain ⟨hid, h1⟩ := h0.readByte
  obtain ⟨hprimary, h2⟩ := h1.readByte
  obtain ⟨hfailsafe, h3⟩ := h2.readByte
  have hstatus := h3.isValid
  have hhandle : (SetBootSlotsTelecommand.handle s.settings [correlationId, slotsMask, failsafe]).2 =
      ((s.settings.setBootSlots slotsMask).2.setFailsafeBootSlots failsafe).2.markAsValid := by
    unfold SetBootSlotsTelecommand.handle
    simp only [Reader.status, hid, hprimary, hfailsafe, hstatus, hvalid, hvalid', Bool.not_true,
      Bool.false_eq_true, if_false]
  unfold Selected
  rw [hsettings, hhandle, BootSettings.checkMagicNumber_eq, BootSettings.bootSlots_eq]
  simp only [BootSettings.content_markAsValid, BootSettings.content_setFailsafeBootSlots,
    BootSettings.content_setBootSlots, beq_self_eq_true, if_true, and_self]

/-- A scrub of the slots makes good its block, one of the other slots changes nothing. -/
theorem Kept.scrub (h : Kept u slotsMask es s) (hmask : Triple slotsMask)
    (hfits : u.programData.length ≤ size - 1024) {mask : Byte} {locked : Bool}
    (hrare : Rare slotsMask (es ++ [.scrubSlots mask locked]))
    (hstep : ProgramSlots.step s (.scrubSlots mask locked) = some t) :
    Kept u slotsMask (es ++ [.scrubSlots mask locked]) t := by
  obtain ⟨hpatrolled, hsettings, heffect⟩ := step_scrubSlots hmask h.patrolled hstep
  have hlt := h.patrolled.position_lt
  refine ⟨hpatrolled, ?_, ?_⟩
  · intro j hj
    have hquiet : visit slotsMask (.scrubSlots mask locked) = false →
        position slotsMask t = position slotsMask s →
        (wrongIn u (Boot.toSlotNumbers slotsMask) t.flash j ⊆
          wrongIn u (Boot.toSlotNumbers slotsMask) s.flash j) →
        Patrol.Recent restart (visit slotsMask) 8 (hits (Boot.toSlotNumbers slotsMask))
          (es ++ [.scrubSlots mask locked]) (position slotsMask t) j
          (wrongIn u (Boot.toSlotNumbers slotsMask) t.flash j) := by
      intro hvisit hposition hsub
      have hnext : Patrol.next restart (visit slotsMask) 8 (position slotsMask s)
          (.scrubSlots mask locked) = position slotsMask t := by
        rw [Patrol.next, hvisit, hposition]
        rfl
      rw [← hnext]
      apply (h.recent j hj).snoc hj hlt _ (hsub.trans Set.subset_union_left)
      intro _ hv
      rw [hvisit] at hv
      exact absurd hv Bool.false_ne_true
    cases heffect with
    | none hlocked hflash hposition =>
      apply hquiet _ hposition (by rw [hflash])
      rw [visit, hlocked, Bool.false_and]
    | other hne k hvoted hposition =>
      apply hquiet _ hposition (wrongIn_others hfits (fun _ => hmask.not_mem_secondary) hvoted j)
      rw [visit, beq_eq_false_iff_ne.2 hne, Bool.and_false]
    | own hlocked heq hvoted hposition =>
      obtain ⟨hgood, hrest⟩ := wrongIn_voted hfits hmask.nodup hmask.length hvoted
        (h.few_block hrare.init hlt)
      by_cases hown : j = position slotsMask s
      · -- all that was wrong in the block has been made good
        rw [hown]
        exact (show wrongIn u (Boot.toSlotNumbers slotsMask) t.flash (position slotsMask s) = ∅ from hgood) ▸
          Patrol.Recent.empty (by omega)
      · have hvisit : visit slotsMask (.scrubSlots mask locked) = true := by
          rw [visit, hlocked, heq, beq_self_eq_true]
          rfl
        have hnext : Patrol.next restart (visit slotsMask) 8 (position slotsMask s)
            (.scrubSlots mask locked) = position slotsMask t := by
          rw [Patrol.next, hvisit, hposition]
          rfl
        rw [← hnext]
        apply (h.recent j hj).snoc hj hlt _ ((hrest j hown).trans Set.subset_union_left)
        exact fun _ _ heq => hown heq.symm
  · intro hset
    obtain ⟨hmagic, hslots⟩ := h.selected (exists_setBootSlots (by simp) hset)
    exact ⟨by rw [hsettings]; exact hmagic, by rw [hsettings]; exact hslots⟩

theorem step_reboot {bufferAddr : ℕ} (hstep : ProgramSlots.step s (.reboot bufferAddr) = some t) :
    let result := Boot.proceedWithBooting s.flash s.settings
    t.flash = s.flash ∧ t.settings = result.settings ∧ t.scrubbingBuffer.length = scrubSize ∧
      (t.primarySlotsScrubber.slotsMask = result.slotsMask ∧ t.primarySlotsScrubber.offset = 0) ∧
      t.secondarySlotsScrubber.slotsMask = secondaryMask result.slotsMask ∧
      t.secondarySlotsScrubber.offset = 0 := by
  obtain rfl := Option.some.inj hstep
  exact ⟨rfl, rfl, List.length_replicate, ⟨rfl, rfl⟩, rfl, rfl⟩

/-- A boot keeps the settings, and the scrubbers start again. -/
theorem Kept.reboot (h : Kept u slotsMask es s) (hmask : Triple slotsMask)
    (hfits : u.programData.length ≤ size - 1024) {bufferAddr : ℕ}
    (hrare : Rare slotsMask (es ++ [.reboot bufferAddr])) (hselected : Selected slotsMask s)
    (htrusted : Trusted s) (hstep : ProgramSlots.step s (.reboot bufferAddr) = some t) :
    Kept u slotsMask (es ++ [.reboot bufferAddr]) t := by
  obtain ⟨hmagic, hboot⟩ := boot_of_trusted hmask hselected htrusted (h.few hfits hrare.init)
  obtain ⟨hindex, hmagic', hplan⟩ := Boot.proceedWithBooting_refines s.flash s.settings hmagic
  rw [hboot] at hindex hplan
  obtain ⟨hflash, hsettings, hbuffer, ⟨hprimary, hfrom⟩, hsecondary, hfrom'⟩ := step_reboot hstep
  rw [hindex] at hprimary hsecondary
  have hfirst : position slotsMask t = 0 := by
    apply position_of_offset
    rw [patrol, if_pos hprimary, hfrom, Nat.zero_mul]
  refine ⟨⟨Or.inl ⟨hprimary, hsecondary⟩, hbuffer, ⟨0, by omega, by rw [hfrom, Nat.zero_mul]⟩,
    ⟨0, by omega, by rw [hfrom', Nat.zero_mul]⟩⟩, ?_, ?_⟩
  · intro j hj
    rw [hfirst, hflash]
    apply (h.recent j hj).snoc hj h.patrolled.position_lt _ Set.subset_union_left
    exact fun hfalse => absurd hfalse.symm Bool.false_ne_true
  · intro _
    have hslots := congrArg BootPlan.slots hplan
    rw [← hsettings] at hslots hmagic'
    unfold Selected
    rw [BootSettings.checkMagicNumber_eq, BootSettings.bootSlots_eq, if_pos hmagic']
    exact ⟨beq_iff_eq.2 hmagic', hslots⟩

/-- **One event.** -/
theorem Kept.step (h : Kept u slotsMask es s) (hmask : Triple slotsMask)
    (hfits : u.programData.length ≤ size - 1024) (hrare : Rare slotsMask (es ++ [e]))
    (hcareful : Careful slotsMask s e) (hstep : step s e = some t) : Kept u slotsMask (es ++ [e]) t := by
  cases e with
  | upset address bit =>
    obtain rfl := Option.some.inj hstep
    refine h.snoc rfl rfl rfl rfl rfl ?_ ?_
    · exact wrongIn_upset hfits _ s.flash address bit
    · intro hset
      exact h.selected (exists_setBootSlots (by simp) hset)
  | scrubSlots mask locked =>
    exact h.scrub hmask hfits hrare hstep
  | setBootSlots parameters =>
    obtain rfl := Option.some.inj hstep
    refine h.snoc rfl rfl rfl rfl rfl ?_ ?_
    · exact fun _ => Set.subset_union_left
    · intro _
      obtain ⟨correlationId, failsafe, rfl, hvalid⟩ := hcareful
      exact selected_handle correlationId hmask.valid hvalid rfl
  | confirmBoot =>
    obtain rfl := Option.some.inj hstep
    refine h.snoc rfl rfl rfl rfl rfl ?_ ?_
    · exact fun _ => Set.subset_union_left
    · intro hset
      obtain ⟨hmagic, hslots⟩ := h.selected (exists_setBootSlots (by simp) hset)
      unfold Selected
      rw [BootSettings.checkMagicNumber_eq, BootSettings.bootSlots_eq] at *
      simp only [BootSettings.content_confirmBoot]
      exact ⟨hmagic, hslots⟩
  | reboot bufferAddr =>
    exact h.reboot hmask hfits hrare hcareful.1 hcareful.2 hstep

/-- After the upload. -/
theorem kept_of_stored (hpatrolled : Patrolled slotsMask s)
    (hstored : ∀ i ∈ Boot.toSlotNumbers slotsMask, Stored u i s.flash) : Kept u slotsMask [] s where
  patrolled := hpatrolled
  recent := by
    intro j _
    have hnone : wrongIn u (Boot.toSlotNumbers slotsMask) s.flash j = ∅ := by
      unfold wrongIn
      rw [wrong_of_stored hstored, Set.sep_empty]
    rw [hnone]
    exact Patrol.Recent.empty (by omega)
  selected := by
    rintro ⟨parameters, hmem⟩
    exact absurd hmem List.not_mem_nil

/-- **All events.** -/
theorem kept_run {s₀ : ProgramSlots} (hmask : Triple slotsMask) (hfits : u.programData.length ≤ size - 1024)
    (h0 : Kept u slotsMask [] s₀) (hrun : Runs.Run step (Careful slotsMask) s₀ es s)
    (hrare : Rare slotsMask es) : Kept u slotsMask es s := by
  induction hrun with
  | nil => exact h0
  | snoc _ hcareful hstep ih => exact (ih hrare.init).step hmask hfits hrare hcareful hstep

end

/-- **An uploaded program is booted**, each time: once its upload has been acknowledged and its three
slots have been set, whichever of its slots and the other ones are booted first, and through
all upsets that are rare, scrubs, confirmations and boots, as long as the settings
allow for it. -/
theorem uploaded_program_boots {u : Upload} {slotsMask : Byte} (hmask : Triple slotsMask)
    (hslots : ∀ i ∈ Boot.toSlotNumbers slotsMask, i.toNat ∈ u.slots)
    (hsize : u.programData.length ≤ 127 * 4096) (hdescription : u.description.length ≤ 29)
    {order : List ℕ} (horder : ∀ o ∈ order, o ∈ u.offsets) (hall : ∀ o ∈ u.offsets, o ∈ order)
    {uploads : List UploadEvent} (huploads : uploads.map (·.telecommand) = u.telecommands order)
    {before after : UploadState} (hupload : Runs.Run UploadState.step Acknowledged before uploads after)
    {s₀ s : ProgramSlots} (hflash : s₀.flash = after.driver.flash) (hpatrolled : Patrolled slotsMask s₀)
    {es : List SlotsEvent} (hrun : Runs.Run step (Careful slotsMask) s₀ es s) (hrare : Rare slotsMask es)
    (hset : ∃ parameters, .setBootSlots parameters ∈ es) (htrusted : Trusted s) :
    BootsInto u slotsMask s := by
  have hfits : u.programData.length ≤ size - 1024 := by
    have hle : 127 * 4096 ≤ size - 1024 := by decide
    omega
  have hstored : ∀ i ∈ Boot.toSlotNumbers slotsMask, Stored u i s₀.flash := by
    intro i hi
    rw [hflash]
    exact (stored_of_run hfits hdescription horder hall huploads hupload
      (hmask.mem_entries hi)).1 (hslots i hi)
  have hkept := kept_run hmask hfits (kept_of_stored hpatrolled hstored) hrun hrare
  exact bootsInto_of_few hmask hsize (hkept.selected hset) htrusted (hkept.few hfits hrare)

section

variable {slotsMask : Byte} {s : ProgramSlots}

theorem exists_upset (hs : Patrolled slotsMask s) (address bit : ℕ) :
    ∃ t, step s (.upset address bit) = some t ∧ Patrolled slotsMask t ∧ t.settings = s.settings :=
  ⟨_, rfl, ⟨hs.masks, hs.buffer, hs.primary, hs.secondary⟩, rfl⟩

theorem exists_scrubSlots (h : Triple slotsMask) (hs : Patrolled slotsMask s) (locked : Bool) :
    ∃ t, step s (.scrubSlots slotsMask locked) = some t ∧ t.settings = s.settings := by
  obtain ⟨t, ht⟩ : ∃ t, step s (.scrubSlots slotsMask locked) = some t := by
    unfold step
    dsimp only
    split_ifs with h1 h2
    · exact ⟨_, rfl⟩
    · exact ⟨_, rfl⟩
    · exact absurd (hs.masks.imp (fun hp => hp.1.symm) (fun hq => hq.2.symm)) (not_or.2 ⟨h1, h2⟩)
  exact ⟨t, ht, (step_scrubSlots h hs ht).2.1⟩

end

/-- A program in the last three slots while the first three run: the marker of one slot is hit and
made good, before the slots are set and the boot confirmed. -/
theorem uploaded_program_boots_example :
    let u : Upload := ⟨[3, 4, 5], [0x42], [0x41, 0x42]⟩
    ∃ s : ProgramSlots, BootsInto u 0b111000 s := by
  intro u
  have hlength : u.programData.length = 128 := by simp [u, programData, pad]
  have hoffsets : u.offsets = [0] := by
    rw [offsets, hlength]
    rfl
  have horder : ∀ o ∈ [0], o ∈ u.offsets := by rw [hoffsets]; simp
  have hall : ∀ o ∈ u.offsets, o ∈ [0] := by rw [hoffsets]; simp
  have hfits : u.programData.length ≤ size - 1024 := by rw [hlength, size]; norm_num
  -- the upload
  let answers : FlashAnswers := fun _ => ⟨.notBusy, fun _ => 0xFF⟩
  have hes : ((u.telecommands [0]).map fun telecommand => UploadEvent.mk telecommand answers).map
      (·.telecommand) = u.telecommands [0] := by
    rw [List.map_map]
    exact List.map_id' _
  have hworks : ∀ e ∈ (u.telecommands [0]).map fun telecommand => UploadEvent.mk telecommand answers,
      Works e.answers := by
    intro e he
    obtain ⟨telecommand, -, rfl⟩ := List.mem_map.1 he
    exact fun _ => rfl
  obtain ⟨after, hupload, -⟩ := exists_run hfits (by decide) horder hall hes hworks ⟨⟨fun _ => 0x5A, []⟩, none⟩
  -- the slots afterwards
  let settings := Boot.sampleSettings [0xD5, 0xC5, 0x53, 0x7D, 0b111, 0b111000, 0, 0, 0, 0, 0, 0, 0, 0]
  have hmask : Triple 0b111000 := ⟨by decide, by decide⟩
  obtain ⟨s₀, hflash, hpatrolled, hsettings₀⟩ : ∃ s₀ : ProgramSlots, s₀.flash = after.driver.flash ∧
      Patrolled 0b111000 s₀ ∧ s₀.settings = settings := by
    refine ⟨⟨after.driver.flash, settings, List.replicate scrubSize 0,
      ProgramScrubber.init 4096 [] 0b111, ProgramScrubber.init 4096 [] 0b111000⟩, rfl, ⟨?_, ?_, ?_, ?_⟩, rfl⟩
    · exact Or.inr ⟨show (0b111 : Byte) = secondaryMask 0b111000 by decide, rfl⟩
    · exact List.length_replicate
    · exact ⟨0, by omega, (Nat.zero_mul _).symm⟩
    · exact ⟨0, by omega, (Nat.zero_mul _).symm⟩
  let marker := inFlashOffset 3 + 64
  obtain ⟨s₁, hupset, hpatrolled₁, hsettings₁⟩ := exists_upset hpatrolled marker 0
  obtain ⟨s₂, hscrub, hsettings⟩ := exists_scrubSlots hmask hpatrolled₁ true
  rw [hsettings₁, hsettings₀] at hsettings
  have hrun₁ : Runs.Run step (Careful 0b111000) s₀ ([] ++ [.upset marker 0]) s₁ := .snoc .nil trivial hupset
  have hrun₂ := hrun₁.snoc (show Careful 0b111000 s₁ (.scrubSlots 0b111000 true) from trivial) hscrub
  have hcareful : Careful 0b111000 s₂ (.setBootSlots [1, 0b111000, 0b111]) := ⟨1, 0b111, rfl, by decide⟩
  have hrun₃ := hrun₂.snoc hcareful rfl
  have hrun := hrun₃.snoc (show Careful 0b111000 _ .confirmBoot from trivial) rfl
  refine ⟨_, uploaded_program_boots hmask (by decide) (by rw [hlength]; norm_num) (by decide) horder hall hes
    hupload hflash hpatrolled hrun ?_ ⟨[1, 0b111000, 0b111], by simp⟩ ?_⟩
  · -- there is one upset
    have hhit : ∀ mid pre post, [SlotsEvent.upset marker 0, .scrubSlots 0b111000 true,
        .setBootSlots [1, 0b111000, 0b111], .confirmBoot] = pre ++ mid ++ post →
        ∀ x ∈ Patrol.hitIn (hits (Boot.toSlotNumbers 0b111000)) mid, inFlashOffset x.slot + x.offset = marker := by
      rintro mid pre post hes x ⟨e, he, hx⟩
      have hmem : e ∈ [SlotsEvent.upset marker 0, .scrubSlots 0b111000 true,
          .setBootSlots [1, 0b111000, 0b111], .confirmBoot] := by rw [hes]; simp [he]
      simp only [List.mem_cons, List.not_mem_nil, or_false] at hmem
      rcases hmem with rfl | rfl | rfl | rfl
      · exact hx.2.2.2
      · exact absurd hx (Set.notMem_empty x)
      · exact absurd hx (Set.notMem_empty x)
      · exact absurd hx (Set.notMem_empty x)
    intro pre mid post hes _ x hx y hy hoffset _
    have hsame := (hhit mid pre post hes x hx).trans (hhit mid pre post hes y hy).symm
    rw [hoffset] at hsame
    apply BitVec.eq_of_toNat_eq
    unfold inFlashOffset size at hsame
    omega
  · have htrusted : let confirmed := (SetBootSlotsTelecommand.handle settings [1, 0b111000, 0b111]).2.confirmBoot.2
        (confirmed.bootCounter - confirmed.lastConfirmedBootCounter).toNat < 10 ∧
          confirmed.bootCounter < BootSettings.bootCounterTop := by decide
    unfold Trusted
    rw [hsettings]
    exact htrusted

/-! ## Slots that are not scrubbed together -/

/-- The slots hold the same. -/
def Alike (slotsMask : Byte) (flash : Flash) : Prop :=
  ∀ i ∈ BootTable.selectEntries slotsMask, ∀ j ∈ BootTable.selectEntries slotsMask, ∀ k < size,
    flash (inFlashOffset i + k) = flash (inFlashOffset j + k)

/-- Scrubs only. -/
def IsScrub (_ : ProgramSlots) (e : SlotsEvent) : Prop := ∃ mask locked, e = .scrubSlots mask locked

section

variable {slotsMask index : Byte} {s t : ProgramSlots}

theorem Patrolled.secondary_mask (h : Patrolled index s) (hindex : Triple index) :
    Patrolled (secondaryMask index) s := by
  obtain ⟨hmasks, hbuffer, hprimary, hsecondary⟩ := h
  refine ⟨?_, hbuffer, hprimary, hsecondary⟩
  rw [hindex.secondary_secondary]
  exact hmasks.symm

/-- A scrub of slots that hold the same, or of all the other ones. -/
theorem scrub_alike (hmask : Triple slotsMask) (hs : Patrolled slotsMask s) (halike : Alike slotsMask s.flash)
    {mask : Byte} {locked : Bool} (hstep : step s (.scrubSlots mask locked) = some t) {i : Byte}
    (hi : i ∈ BootTable.selectEntries slotsMask) {k : ℕ} (hk : k < size) :
    t.flash (inFlashOffset i + k) = s.flash (inFlashOffset i + k) := by
  obtain ⟨-, -, heffect⟩ := step_scrubSlots hmask hs hstep
  cases heffect with
  | none _ hflash => rw [hflash]
  | other _ l hvoted =>
    apply hvoted.outside
    intro j hj
    have hdisjoint := ProgramScrubber.entries_disjoint
      (show i ≠ j from fun heq => hmask.not_mem_secondary hi (heq ▸ hj)) 0
    omega
  | own _ _ hvoted =>
    have hblock : k / scrubSize < 8 := by
      unfold size at hk
      unfold scrubSize Flash.largeSectorSize
      omega
    have hin := hvoted.inside i hi (k / scrubSize) hblock (k % scrubSize) (Nat.mod_lt _ (by decide))
    rw [Nat.div_add_mod'] at hin
    rw [hin]
    split
    · -- a vote of equal bytes
      have hsame : (decodeSlotsMask slotsMask).map (fun j => s.flash (inFlashOffset j + k)) =
          List.replicate 3 (s.flash (inFlashOffset i + k)) := by
        rw [← hmask.length, ← List.map_const']
        apply List.map_congr_left
        intro j hj
        exact halike j hj i hi k hk
      rw [ProgramScrubber.majorityAt, hsame]
      apply vote_of_count
      rw [List.count_replicate_self, List.length_replicate]
      omega
    · rfl

theorem scrubs_alike (hmask : Triple slotsMask) {s₀ : ProgramSlots} (hs : Patrolled slotsMask s₀)
    (halike : Alike slotsMask s₀.flash) {es : List SlotsEvent} (hrun : Runs.Run step IsScrub s₀ es s) :
    Patrolled slotsMask s ∧ ∀ i ∈ BootTable.selectEntries slotsMask, ∀ k < size,
      s.flash (inFlashOffset i + k) = s₀.flash (inFlashOffset i + k) := by
  induction hrun with
  | nil => exact ⟨hs, fun _ _ _ _ => rfl⟩
  | snoc _ hscrub hstep ih =>
    obtain ⟨hpatrolled, hsame⟩ := ih
    obtain ⟨mask, locked, rfl⟩ := hscrub
    refine ⟨(step_scrubSlots hmask hpatrolled hstep).1, ?_⟩
    intro i hi k hk
    rw [scrub_alike hmask hpatrolled _ hstep hi hk, hsame i hi k hk]
    intro j hj l hl m hm
    rw [hsame j hj m hm, hsame l hl m hm]
    exact halike j hj l hl m hm

/-- How many slots two masks share. -/
theorem countP_selectEntries (hindex : Triple index) (slotsMask : Byte) :
    (BootTable.selectEntries index).countP (fun i => slotsMask.getLsbD i.toNat) =
      popcount (slotsMask &&& index) := by
  rw [BootTable.selectEntries_eq index hindex.low, Boot.low_six_of_lt index hindex.below, BootTable.entriesOf,
    List.countP_map, List.countP_filter, popcount]
  apply List.countP_congr
  intro i hi
  have htoNat : (BitVec.ofNat 8 i).toNat = i := by
    rw [BitVec.toNat_ofNat]
    exact Nat.mod_eq_of_lt (by rw [List.mem_range] at hi; omega)
  rw [Function.comp_apply, htoNat, BitVec.getLsbD_and]

/-- Two other triples share one slot or two with each triple. -/
theorem shared_aux : ∀ mask : Byte, popcount mask = 3 → mask.toNat < 64 → ∀ index : Byte,
    popcount index = 3 → index.toNat < 64 → mask ≠ index → mask ≠ secondaryMask index →
      popcount (mask &&& index) = 1 ∨ popcount (mask &&& secondaryMask index) = 1 := by
  decide +kernel

theorem mem_selectEntries (hmask : Triple slotsMask) (i : Byte) :
    i ∈ BootTable.selectEntries slotsMask ↔ slotsMask.getLsbD i.toNat = true := by
  rw [BootTable.mem_selectEntries hmask.low]
  refine and_iff_right_of_imp fun hbit => ?_
  by_contra hge
  have hlt : slotsMask.toNat < 2 ^ i.toNat :=
    hmask.below.trans_le (Nat.pow_le_pow_right (by decide) (not_lt.1 hge) : 2 ^ 6 ≤ 2 ^ i.toNat)
  rw [BitVec.getLsbD, Nat.testBit_lt_two_pow hlt] at hbit
  exact Bool.false_ne_true hbit

/-- All bits set in the slots of a mask, and clear elsewhere. -/
def marked (slotsMask : Byte) : Flash := fun a => if slotsMask.getLsbD (a / size) then 0xFF else 0

theorem marked_apply (slotsMask i : Byte) {k : ℕ} (hk : k < size) :
    marked slotsMask (inFlashOffset i + k) = if slotsMask.getLsbD i.toNat then 0xFF else 0 := by
  have hdiv : (inFlashOffset i + k) / size = i.toNat := by
    unfold inFlashOffset
    rw [Nat.add_comm, Nat.add_mul_div_right _ _ (by decide), Nat.div_eq_of_lt hk, Nat.zero_add]
  rw [marked, hdiv]

/-- **A slot outvoted** by two others. -/
theorem scrub_outvotes (hmask : Triple slotsMask) (hindex : Triple index)
    (hshared : popcount (slotsMask &&& index) = 1) (hs : Patrolled index s) (hflash : s.flash = marked slotsMask)
    (hposition : position index s = 0) :
    ∃ t, step s (.scrubSlots index true) = some t ∧
      ∃ i ∈ BootTable.selectEntries slotsMask, t.flash (inFlashOffset i) ≠ s.flash (inFlashOffset i) := by
  obtain ⟨t, hstep, -⟩ := exists_scrubSlots hindex hs true
  have hcount := countP_selectEntries hindex slotsMask
  rw [hshared] at hcount
  obtain ⟨i, hi, hbit⟩ := List.countP_pos_iff.1 (show 0 < (BootTable.selectEntries index).countP _ by rw [hcount]; omega)
  refine ⟨t, hstep, i, (mem_selectEntries hmask i).2 hbit, ?_⟩
  have hold : s.flash (inFlashOffset i) = 0xFF := by
    have hcell := marked_apply slotsMask i (show 0 < size by decide)
    rw [Nat.add_zero, if_pos hbit] at hcell
    rw [hflash, hcell]
  have hvote : ProgramScrubber.majorityAt s.flash (decodeSlotsMask index) 0 = 0 := by
    have hbytes : (decodeSlotsMask index).map (fun j => s.flash (inFlashOffset j + 0)) =
        (decodeSlotsMask index).map fun j => if slotsMask.getLsbD j.toNat then 0xFF else 0 := by
      apply List.map_congr_left
      intro j _
      rw [hflash]
      exact marked_apply slotsMask j (by decide)
    have hzero : ((decodeSlotsMask index).map fun j => if slotsMask.getLsbD j.toNat then (0xFF : Byte) else 0).count 0 =
        (decodeSlotsMask index).countP fun j => !slotsMask.getLsbD j.toNat := by
      rw [List.count, List.countP_map]
      apply List.countP_congr
      intro j _
      rw [Function.comp_apply]
      cases slotsMask.getLsbD j.toNat <;> decide
    have hsum := List.length_eq_countP_add_countP (p := fun j : Byte => slotsMask.getLsbD j.toNat)
      (l := BootTable.selectEntries index)
    rw [hcount, hindex.length] at hsum
    rw [ProgramScrubber.majorityAt, hbytes]
    apply vote_of_count
    rw [List.length_map, hzero, ProgramScrubber.decodeSlotsMask, hindex.length]
    simp only [Bool.not_eq_true, Bool.decide_eq_false] at hsum
    omega
  obtain ⟨-, -, heffect⟩ := step_scrubSlots hindex hs hstep
  cases heffect with
  | none hlocked _ => exact absurd hlocked.symm Bool.false_ne_true
  | other hne _ _ => exact absurd rfl hne
  | own _ _ hvoted =>
    have hin := hvoted.inside i hi 0 (by omega) 0 (by decide)
    rw [hposition, if_pos (Finset.mem_singleton_self 0), Nat.zero_mul, Nat.zero_add, Nat.add_zero] at hin
    rw [hin, hvote, hold]
    decide

/-- **Scrubs keep a program in three slots**, whatever it is, exactly if these are the slots that were
booted or all the other ones. -/
theorem scrubs_keep_iff (hmask : Triple slotsMask) (hindex : Triple index) :
    (∀ s₀ es s, Patrolled index s₀ → Alike slotsMask s₀.flash → Runs.Run step IsScrub s₀ es s →
      ∀ i ∈ BootTable.selectEntries slotsMask, ∀ k < size,
        s.flash (inFlashOffset i + k) = s₀.flash (inFlashOffset i + k)) ↔
    slotsMask = index ∨ slotsMask = secondaryMask index := by
  constructor
  · intro hkeep
    by_contra hneither
    rw [not_or] at hneither
    -- a boot of the index, and a program with all bits set
    let s₀ : ProgramSlots := ⟨marked slotsMask, Boot.sampleSettings [], List.replicate scrubSize 0,
      ProgramScrubber.init 4096 [] index, ProgramScrubber.init 4096 [] (secondaryMask index)⟩
    have hpatrolled : Patrolled index s₀ := ⟨Or.inl ⟨rfl, rfl⟩, List.length_replicate,
      ⟨0, by omega, (Nat.zero_mul _).symm⟩, ⟨0, by omega, (Nat.zero_mul _).symm⟩⟩
    have halike : Alike slotsMask s₀.flash := by
      intro i hi j hj k hk
      rw [mem_selectEntries hmask] at hi hj
      show marked slotsMask _ = marked slotsMask _
      rw [marked_apply slotsMask i hk, marked_apply slotsMask j hk, hi, hj]
    have hfirst : ∀ mask, position mask s₀ = 0 := by
      intro mask
      apply position_of_offset
      unfold patrol
      split
      · exact (Nat.zero_mul _).symm
      · exact (Nat.zero_mul _).symm
    have hlost : ∀ mask, Triple mask → Patrolled mask s₀ → popcount (slotsMask &&& mask) ≠ 1 := by
      intro mask htriple hpatrolled' hshared
      obtain ⟨t, hstep, i, hi, hne⟩ := scrub_outvotes hmask htriple hshared hpatrolled' rfl (hfirst mask)
      have hrun : Runs.Run step IsScrub s₀ ([] ++ [.scrubSlots mask true]) t := .snoc .nil ⟨mask, true, rfl⟩ hstep
      have hkept := hkeep s₀ _ t hpatrolled halike hrun i hi 0 (by decide)
      rw [Nat.add_zero] at hkept
      exact hne hkept
    rcases shared_aux slotsMask hmask.three hmask.below index hindex.three hindex.below hneither.1 hneither.2
      with hone | hone
    · exact hlost index hindex hpatrolled hone
    · exact hlost (secondaryMask index) hindex.secondary (hpatrolled.secondary_mask hindex) hone
  · intro hone s₀ es s hpatrolled halike hrun
    rcases hone with rfl | rfl
    · exact (scrubs_alike hmask hpatrolled halike hrun).2
    · exact (scrubs_alike hmask (hpatrolled.secondary_mask hindex) halike hrun).2

/-- A program in slots 0, 2 and 4 does not outlast the scrubs after a boot of slots 0, 1 and 2. -/
theorem scrubs_keep_not_mixed : ¬ ∀ s₀ es s, Patrolled 0b111 s₀ → Alike 0b10101 s₀.flash →
    Runs.Run step IsScrub s₀ es s → ∀ i ∈ BootTable.selectEntries 0b10101, ∀ k < size,
      s.flash (inFlashOffset i + k) = s₀.flash (inFlashOffset i + k) := by
  rw [scrubs_keep_iff ⟨by decide, by decide⟩ ⟨by decide, by decide⟩]
  decide

end

end PWSat2OBC.ProgramSlots
