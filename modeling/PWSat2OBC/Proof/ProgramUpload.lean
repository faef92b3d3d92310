import PWSat2OBC.Proof.BootTable
import PWSat2OBC.Spec.ProgramUpload

/-!
# Program upload stays inside the selected slots

* EraseBootTableEntry erases the selected slots only.
* WriteProgramPart stays inside the content parts of the selected slots exactly if the part
  ends within them: neither the telecommand nor the entry looks at the offset.
* FinalizeProgramEntry programs the headers of the selected slots only, but it copies the
  description whole: it fits with its NUL character up to 29 bytes.

`stays_inside_slots` puts them together; `next_slot_programmed` is a part that does not fit.
-/

namespace PWSat2OBC

variable {d : FlashDriver} {answers : FlashAnswers} {mask : Byte} {parameters : List Byte}

namespace BootTable

theorem entries_lt {i : Byte} (hi : i ∈ entries) : i.toNat < 6 := by
  revert i
  decide

theorem entries_pairwise : entries.Pairwise fun i j => i.toNat < j.toNat := by decide

/-- The slots selected in `mask`. -/
def selectedSlots (mask : Byte) : Set ℕ :=
  {a | ∃ i ∈ entries, mask.getLsbD i.toNat = true ∧ a ∈ ProgramEntry.slot i}

/-- Their content parts. -/
def selectedContent (mask : Byte) : Set ℕ :=
  {a | ∃ i ∈ entries, mask.getLsbD i.toNat = true ∧ a ∈ ProgramEntry.contentPart i}

/-- The bytes of a copy of the bootloader or of the safe mode. -/
def copyArea (copy : FlashCopy) : Set ℕ := Set.Ico copy.offset (copy.offset + copy.size)

/-- The copies are behind the slots. -/
theorem disjoint_copyArea (mask : Byte) (copy : FlashCopy) (h : 3 * 2 ^ 20 ≤ copy.offset) :
    Disjoint (selectedSlots mask) (copyArea copy) := by
  refine Set.disjoint_left.2 ?_
  rintro a ⟨i, hi, -, ha⟩ hcopy
  have hlt := entries_lt hi
  simp only [ProgramEntry.slot, ProgramEntry.inFlashOffset, ProgramEntry.size, copyArea,
    Set.mem_Ico] at ha hcopy
  omega

end BootTable

open BootTable

/-! ## The loop over the entries -/

/-- What the body does to each selected entry stays inside the area. -/
theorem forSelected_confined {area : Set ℕ}
    {body : FlashDriver → Byte → Option UploadEnding × FlashDriver}
    (h : ∀ i ∈ entries, mask.getLsbD i.toNat = true → ∀ d, Confined area d (body d i).2)
    (d : FlashDriver) : Confined area d (forSelected mask body d).2 := by
  refine Loops.firstSome_rel Confined.refl Confined.trans (fun i hi d => ?_) d
  split
  · exact h i hi ‹_› d
  · exact Confined.refl d

/-! ## Erasing -/

namespace EraseBootTableEntry

theorem eraseEntry_driver (d : FlashDriver) (i : Byte) :
    (eraseEntry answers d i).2 = (ProgramEntry.erase i answers d).2 := by
  unfold eraseEntry
  split <;> simp [*]

theorem handle_confined (parameters : List Byte) (answers : FlashAnswers) (d : FlashDriver) :
    Confined (selectedSlots (parameters.getD 0 0)) d (handle parameters answers d).2 := by
  unfold handle
  split
  · exact Confined.refl d
  · refine forSelected_confined (fun i hi hsel d => ?_) d
    rw [eraseEntry_driver]
    exact (ProgramEntry.erase_confined i d).mono fun a ha => ⟨i, hi, hsel, ha⟩

end EraseBootTableEntry

/-! ## Writing -/

/-- The first byte that is read, or zero. -/
theorem Reader.readByte_init (parameters : List Byte) :
    (Reader.init parameters).readByte.1 = parameters.getD 0 0 := by
  cases parameters with
  | nil => rfl
  | cons b bs =>
    have hstate : (Reader.init (b :: bs)).updateState 1 = ⟨b :: bs, 1, true⟩ := by
      simp [Reader.init, Reader.updateState]
    rw [Reader.readByte, hstate]
    rfl

namespace WriteProgramPart

theorem read_selectedEntries {p : Parameters} (h : read parameters = some p) :
    p.selectedEntries = parameters.getD 0 0 := by
  obtain ⟨x, -, rfl⟩ := Option.map_eq_some_iff.1 h
  exact Reader.readByte_init parameters

/-- The part is refused, or empty, or for no entry, or it ends within the content part. -/
def Fits (parameters : List Byte) : Prop :=
  ∀ p, read parameters = some p → p.status = true →
    (∀ i ∈ entries, p.selectedEntries.getLsbD i.toNat = false) ∨ p.content = [] ∨
      p.offset.toNat + p.content.length ≤ ProgramEntry.size - 1024

theorem contentCall_area (p : Parameters) (i : Byte) :
    (ProgramEntry.contentCall i p.offset.toNat p.content).area =
      ((ProgramEntry.inFlashOffset i + 1024 + p.offset.toNat) % 2 ^ 32, p.content.length) := by
  rw [ProgramEntry.contentCall, ProgramEntry.programSpan, FlashSpan.program,
    ProgramEntry.baseOffset_spanAt i le_rfl, FlashCall.area]

theorem writeEntry_driver (p : Parameters) (d : FlashDriver) (i : Byte) :
    (writeEntry p answers d i).2 =
      (d.perform answers (ProgramEntry.contentCall i p.offset.toNat p.content)).2 := by
  rw [writeEntry]
  split
  · rfl
  · rfl

/-- A part that fits stays in the content part of the entry. -/
theorem writeEntry_confined {p : Parameters} (i : Byte)
    (h : p.content = [] ∨ p.offset.toNat + p.content.length ≤ ProgramEntry.size - 1024)
    (d : FlashDriver) :
    Confined (ProgramEntry.contentPart i) d (writeEntry p answers d i).2 := by
  have hle := ProgramEntry.inFlashOffset_le i
  rw [writeEntry_driver]
  refine Confined.perform fun a ha => ?_
  rcases h with h | h
  · -- an empty part touches nothing
    have hlt := ha.2
    rw [contentCall_area, h] at hlt
    exact absurd hlt (Nat.not_lt_zero _)
  · rw [ProgramEntry.size] at h hle
    have hmod : (ProgramEntry.inFlashOffset i + 1024 + p.offset.toNat) % 2 ^ 32 =
        ProgramEntry.inFlashOffset i + 1024 + p.offset.toNat := Nat.mod_eq_of_lt (by omega)
    have harea := contentCall_area p i
    rw [hmod] at harea
    rw [FlashCall.touches_iff (by rw [harea]; dsimp only; omega), harea] at ha
    dsimp only at ha
    rw [ProgramEntry.contentPart, Set.mem_Ico, ProgramEntry.size]
    omega

/-- If all calls succeed, each selected entry is written to. -/
theorem mem_calls {p : Parameters} (hok : ∀ call, (answers call).status = .notBusy) {i : Byte}
    (hi : i ∈ entries) (hsel : p.selectedEntries.getLsbD i.toNat = true) (d : FlashDriver) :
    ProgramEntry.contentCall i p.offset.toNat p.content ∈
      (forSelected p.selectedEntries (writeEntry p answers) d).2.calls := by
  have hnone : ∀ d j, (if p.selectedEntries.getLsbD j.toNat then writeEntry p answers d j
      else (none, d)).1 = none := by
    intro d j
    split
    · rw [writeEntry]
      exact congrArg Prod.fst (if_neg (not_not.2 (hok _)))
    · rfl
  obtain ⟨pre, post, hsplit⟩ := List.append_of_mem hi
  rw [forSelected, hsplit]
  rcases Loops.firstSome_at pre i post d with ⟨r, t, hpre, -⟩ | ⟨t, -, ⟨r, u, hu, -⟩ | ⟨u, hu, hout⟩⟩
  · obtain ⟨j, -, t', hr⟩ := Loops.firstSome_returns (congrArg Prod.fst hpre)
    rw [hnone] at hr
    exact absurd hr (by simp)
  · have hr := congrArg Prod.fst hu
    rw [hnone] at hr
    exact absurd hr (by simp)
  · rw [hout]
    -- the entries behind only add calls
    refine Loops.firstSome_rel (R := fun d d' => ∀ call ∈ d.calls, call ∈ d'.calls)
      (fun _ _ h => h) (fun h h' call hcall => h' call (h call hcall)) (fun j _ d call hcall => ?_) u _ ?_
    · split
      · rw [writeEntry_driver, FlashDriver.perform_calls]
        exact List.mem_append_left _ hcall
      · exact hcall
    · have hdriver : (writeEntry p answers t i).2 = u := by rw [if_pos hsel] at hu; rw [hu]
      rw [← hdriver, writeEntry_driver, FlashDriver.perform_calls]
      exact List.mem_append_right _ (List.mem_singleton_self _)

/-- **A part that does not fit** leaves the content parts of the selected entries: behind the
last of them or, if its offset wraps around, before the first. -/
theorem contentCall_leaves {p : Parameters} {first last : Byte} (hlast : last ∈ entries)
    (hfl : first.toNat ≤ last.toNat)
    (hmin : ∀ i ∈ entries, p.selectedEntries.getLsbD i.toNat = true → first.toNat ≤ i.toNat)
    (hmax : ∀ i ∈ entries, p.selectedEntries.getLsbD i.toNat = true → i.toNat ≤ last.toNat)
    (hcontent : p.content ≠ [])
    (hsize : ProgramEntry.size - 1024 < p.offset.toNat + p.content.length) :
    ∃ i, (i = first ∨ i = last) ∧
      ∃ a ∉ selectedContent p.selectedEntries,
        (ProgramEntry.contentCall i p.offset.toNat p.content).Touches a := by
  have hlen := List.length_pos_of_ne_nil hcontent
  have hoffset := p.offset.isLt
  have hlt := entries_lt hlast
  have htouches : ∀ i a, a < 2 ^ 32 →
      (a + 2 ^ 32 - (ProgramEntry.inFlashOffset i + 1024 + p.offset.toNat) % 2 ^ 32) % 2 ^ 32 <
        p.content.length →
      (ProgramEntry.contentCall i p.offset.toNat p.content).Touches a := by
    intro i a ha hindex
    rw [FlashCall.Touches, FlashCall.index, contentCall_area]
    exact ⟨ha, hindex⟩
  have houtside : ∀ a, a < first.toNat * 524288 + 1024 ∨ (last.toNat + 1) * 524288 ≤ a →
      a ∉ selectedContent p.selectedEntries := by
    rintro a ha ⟨i, hi, hsel, hmem⟩
    have h1 := hmin i hi hsel
    have h2 := hmax i hi hsel
    simp only [ProgramEntry.contentPart, ProgramEntry.inFlashOffset, ProgramEntry.size,
      Set.mem_Ico] at hmem
    omega
  rw [ProgramEntry.size] at hsize
  simp only [ProgramEntry.inFlashOffset, ProgramEntry.size] at htouches
  by_cases hwrap : last.toNat * 524288 + 1024 + p.offset.toNat < 2 ^ 32
  · -- behind the last entry
    refine ⟨last, Or.inr rfl,
      max (last.toNat * 524288 + 1024 + p.offset.toNat) ((last.toNat + 1) * 524288),
      houtside _ (Or.inr (le_max_right _ _)), htouches _ _ (by omega) (by omega)⟩
  · -- the offset wraps around, at least for the last entry
    refine ⟨first, Or.inl rfl, (first.toNat * 524288 + 1024 + p.offset.toNat) % 2 ^ 32,
      houtside _ ?_, htouches _ _ (Nat.mod_lt _ (by decide)) (by omega)⟩
    omega

/-- The driver after a telecommand that is not malformed. -/
theorem handle_driver {p : Parameters} (hp : read parameters = some p) (hs : p.status = true) :
    (handle parameters answers d).2 = (forSelected p.selectedEntries (writeEntry p answers) d).2 := by
  rw [handle, hp]
  dsimp only
  rw [hs]
  rfl

/-- The first and the last of the selected entries. -/
theorem exists_first_last {i : Byte} (hi : i ∈ entries) (hsel : mask.getLsbD i.toNat = true) :
    ∃ first ∈ entries, mask.getLsbD first.toNat = true ∧
      ∃ last ∈ entries, mask.getLsbD last.toNat = true ∧
        ∀ j ∈ entries, mask.getLsbD j.toNat = true →
          first.toNat ≤ j.toNat ∧ j.toNat ≤ last.toNat := by
  set selected := (entries.filter fun j => mask.getLsbD j.toNat).toFinset
  have hmem : ∀ j, j ∈ selected ↔ j ∈ entries ∧ mask.getLsbD j.toNat = true := fun j => by
    rw [List.mem_toFinset, List.mem_filter]
  have hne : selected.Nonempty := ⟨i, (hmem i).2 ⟨hi, hsel⟩⟩
  obtain ⟨first, hfirst, hmin⟩ := selected.exists_min_image BitVec.toNat hne
  obtain ⟨last, hlast, hmax⟩ := selected.exists_max_image BitVec.toNat hne
  refine ⟨first, ((hmem _).1 hfirst).1, ((hmem _).1 hfirst).2, last, ((hmem _).1 hlast).1,
    ((hmem _).1 hlast).2, fun j hj hselj => ?_⟩
  exact ⟨hmin j ((hmem j).2 ⟨hj, hselj⟩), hmax j ((hmem j).2 ⟨hj, hselj⟩)⟩

/-- **Writing stays in the content parts** exactly if the part fits. -/
theorem confined_iff (parameters : List Byte) :
    (∀ answers d, Confined (selectedContent (parameters.getD 0 0)) d
      (handle parameters answers d).2) ↔ Fits parameters := by
  constructor
  · intro h p hp hs
    by_contra hnot
    simp only [not_or, not_forall, Nat.not_le, Bool.not_eq_false] at hnot
    obtain ⟨⟨i, hi, hsel⟩, hcontent, hsize⟩ := hnot
    obtain ⟨first, hfirst, hself, last, hlast, hsell, hbetween⟩ := exists_first_last hi hsel
    obtain ⟨j, hj, a, ha, htouch⟩ := contentCall_leaves hlast (hbetween first hfirst hself).2
      (fun j hj hselj => (hbetween j hj hselj).1) (fun j hj hselj => (hbetween j hj hselj).2)
      hcontent hsize
    -- the flash answers all calls well, so the call is made
    have hconf := h (fun _ => ⟨.notBusy, fun _ => 0xFF⟩) ⟨fun _ => 0xFF, []⟩
    rw [handle_driver hp hs, ← read_selectedEntries hp] at hconf
    obtain ⟨calls, heq, hcalls⟩ := hconf.calls
    have hmem : ProgramEntry.contentCall j p.offset.toNat p.content ∈ calls := by
      rw [← List.nil_append calls, ← heq]
      rcases hj with rfl | rfl
      · exact mem_calls (fun _ => rfl) hfirst hself _
      · exact mem_calls (fun _ => rfl) hlast hsell _
    exact ha (hcalls _ hmem a htouch)
  · intro h answers d
    rw [handle]
    split
    · exact Confined.refl d
    · rename_i p hp
      split
      · exact Confined.refl d
      · rename_i hs
        rw [Bool.not_eq_true, Bool.not_eq_false'] at hs
        rw [← read_selectedEntries hp]
        refine forSelected_confined (fun i hi hsel d => ?_) d
        rcases h p hp hs with hnone | hfits
        · rw [hnone i hi] at hsel
          exact absurd hsel Bool.false_ne_true
        · exact (writeEntry_confined i hfits d).mono fun a ha => ⟨i, hi, hsel, ha⟩

end WriteProgramPart

/-! ## Finalising -/

namespace FinalizeProgramEntry

theorem read_selectedEntries {p : Parameters} (h : read parameters = some p) :
    p.selectedEntries = parameters.getD 0 0 := by
  obtain ⟨x, -, rfl⟩ := Option.map_eq_some_iff.1 h
  exact Reader.readByte_init parameters

/-- The description fits with its NUL character. -/
def DescriptionFits (parameters : List Byte) : Prop :=
  ∀ p, read parameters = some p →
    p.description.length ≤ 29 ∨ p.description.length = 30 ∧ 0 ∈ p.description

/-- The copy stays inside the array and leaves a NUL character in it. -/
def DescriptionTerminated (parameters : List Byte) : Prop :=
  ∀ p, read parameters = some p →
    ∃ description, copyDescription p.description = some description ∧ 0 ∈ description

theorem length_copyDescription {tmp description : List Byte}
    (h : copyDescription tmp = some description) : description.length = 30 := by
  unfold copyDescription at h
  split at h
  · obtain rfl := Option.some.inj h
    rw [List.length_append, List.length_replicate]
    omega
  · exact absurd h (by simp)

theorem descriptionTerminated_iff : DescriptionTerminated parameters ↔ DescriptionFits parameters := by
  refine forall₂_congr fun p _ => ?_
  unfold copyDescription
  constructor
  · rintro ⟨description, h, hmem⟩
    split at h
    · obtain rfl := Option.some.inj h
      by_cases hlen : p.description.length ≤ 29
      · exact Or.inl hlen
      · have h30 : p.description.length = 30 := by omega
        rw [h30, List.mem_append] at hmem
        exact Or.inr ⟨h30, hmem.resolve_right (by simp)⟩
    · exact absurd h (by simp)
  · intro h
    refine ⟨_, if_pos (by omega), List.mem_append.2 ?_⟩
    rcases h with hlen | ⟨-, hmem⟩
    · exact Or.inr (List.mem_replicate.2 ⟨by omega, rfl⟩)
    · exact Or.inl hmem

/-- The header of a slot. -/
def header (index : Byte) : Set ℕ :=
  Set.Ico (ProgramEntry.inFlashOffset index) (ProgramEntry.inFlashOffset index + 1024)

theorem header_subset_slot {i : Byte} : header i ⊆ ProgramEntry.slot i :=
  Set.Ico_subset_Ico_right (Nat.add_le_add_left (by decide) _)

/-- Finalising an entry stays in its header. -/
theorem finalizeEntry_confined {p : Parameters} {description : List Byte}
    (hlen : description.length = 30) (i : Byte) (d : FlashDriver) :
    Confined (header i) d (finalizeEntry p description answers d i).2 := by
  have hcrc : ∀ d, Confined (header i) d (ProgramEntry.setCrc i answers p.expectedCrc d).2 :=
    fun d => (ProgramEntry.setCrc_confined i _).mono
      (Set.Ico_subset_Ico (by omega) (by omega))
  have hlength : ∀ d, Confined (header i) d (ProgramEntry.setLength i answers p.length d).2 :=
    fun d => (ProgramEntry.setLength_confined i _).mono
      (Set.Ico_subset_Ico_right (by omega))
  have hdescribed : ∀ d, Confined (header i) d
      (ProgramEntry.setDescription i answers description 0 d).2 :=
    fun d => (ProgramEntry.setDescription_confined i description (by rw [hlen]; decide) d).mono
      (Set.Ico_subset_Ico (by omega) (by omega))
  have hmarked : ∀ d, Confined (header i) d (ProgramEntry.markAsValid i answers d).2 :=
    fun d => (ProgramEntry.markAsValid_confined i).mono
      (Set.Ico_subset_Ico (by omega) (by omega))
  have hbefore := ((hcrc d).trans (hlength _)).trans (hdescribed _)
  unfold finalizeEntry
  dsimp only
  split
  · exact hbefore
  · have hall := hbefore.trans (hmarked _)
    split_ifs
    · exact hall
    · split
      · exact hall
      · split_ifs
        · exact hall
        · exact hall

theorem handle_confined (parameters : List Byte) (answers : FlashAnswers) (d : FlashDriver) :
    Confined (selectedSlots (parameters.getD 0 0)) d (handle parameters answers d).2 := by
  unfold handle
  split
  · exact Confined.refl d
  · rename_i p hp
    split
    · exact Confined.refl d
    · rename_i description hdescription
      split
      · exact Confined.refl d
      · rw [← read_selectedEntries hp]
        refine forSelected_confined (fun i hi hsel d => ?_) d
        exact (finalizeEntry_confined (length_copyDescription hdescription) i d).mono fun a ha =>
          ⟨i, hi, hsel, header_subset_slot ha⟩

end FinalizeProgramEntry

/-! ## Results -/

/-- **Boot table telecommands and the slots.** Erasing always stays inside the selected slots,
writing exactly if the part fits, and finalising stays in the slots and in its array exactly
if the description fits. The slots hold no copy of the bootloader or of the safe mode. -/
theorem stays_inside_slots (parameters : List Byte) :
    (∀ answers d, Confined (selectedSlots (parameters.getD 0 0)) d
        (EraseBootTableEntry.handle parameters answers d).2) ∧
      ((∀ answers d, Confined (selectedContent (parameters.getD 0 0)) d
          (WriteProgramPart.handle parameters answers d).2) ↔ WriteProgramPart.Fits parameters) ∧
      ((FinalizeProgramEntry.DescriptionTerminated parameters ∧
          ∀ answers d, Confined (selectedSlots (parameters.getD 0 0)) d
            (FinalizeProgramEntry.handle parameters answers d).2) ↔
        FinalizeProgramEntry.DescriptionFits parameters) ∧
      ∀ copy ∈ (List.range 5).map bootloaderCopy ++ (List.range 5).map safeModeCopy,
        Disjoint (selectedSlots (parameters.getD 0 0)) (copyArea copy) := by
  refine ⟨EraseBootTableEntry.handle_confined parameters, WriteProgramPart.confined_iff parameters,
    ?_, fun copy hcopy => disjoint_copyArea _ copy ?_⟩
  · rw [FinalizeProgramEntry.descriptionTerminated_iff]
    exact and_iff_left (FinalizeProgramEntry.handle_confined parameters)
  · rcases List.mem_append.1 hcopy with h | h
    · obtain ⟨k, -, rfl⟩ := List.mem_map.1 h
      exact Nat.le_add_right _ _
    · obtain ⟨k, -, rfl⟩ := List.mem_map.1 h
      exact (Nat.le_add_right _ _).trans (Nat.le_add_right _ _)

/-- One byte behind the content of entry 0 is the first byte of entry 1. -/
theorem next_slot_programmed :
    ¬ ∀ parameters answers d, Confined (selectedContent (parameters.getD 0 0)) d
      (WriteProgramPart.handle parameters answers d).2 := by
  intro h
  have hconf := h [0x01, 0x00, 0xFC, 0x07, 0x00, 0xAA] (fun _ => ⟨.notBusy, fun _ => 0xFF⟩)
    ⟨fun _ => 0xFF, []⟩
  have hflash := hconf.flash 524288 ?_
  · exact absurd hflash (by decide +kernel)
  · rintro ⟨i, hi, hsel, hmem⟩
    have h0 : ∀ i ∈ entries,
        BitVec.getLsbD ([0x01, 0x00, 0xFC, 0x07, 0x00, 0xAA].getD 0 0 : Byte) i.toNat = true →
          i = 0 := by decide
    rw [h0 i hi hsel] at hmem
    exact absurd hmem.2 (by decide)

end PWSat2OBC
