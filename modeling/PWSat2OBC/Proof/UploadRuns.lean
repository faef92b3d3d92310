import PWSat2OBC.Lib.Runs
import PWSat2OBC.Proof.ProgramUpload

/-!
# Valid entries have the right checksum

`Sound i d`: an entry that is marked as valid and has not been written to since it was
marked has the checksum that its header says, over a length inside its slot. What a
telecommand does to the other entries leaves this alone (`Same`), so each telecommand is
followed at one entry (`forSelected_at`).

* `eraseBootTableEntry_sound`, `writeProgramPart_sound`, `finalizeProgramEntry_sound`: one
  telecommand, under the condition on its parameters, the flash before it and the answers
  of the device.
* `valid_entries_check`: whole runs.

The marker is programmed before the content is checked and whatever the calls before it
answered, so without the condition a refused entry is valid (`refused_entry_valid`).
-/

namespace PWSat2OBC

open BootTable ProgramEntry

variable {i : Byte} {d d' d'' : FlashDriver} {answers : FlashAnswers} {parameters : List Byte}

/-! ## Sound entries -/

namespace ProgramEntry

/-- A call that writes to the content of the entry. -/
def isContentWrite (index : Byte) : FlashCall → Bool
  | .eraseSector _ => false
  | .program offset value =>
    decide (inFlashOffset index + 1024 ≤ offset ∧ offset < inFlashOffset index + size) &&
      !value.isEmpty

/-- The call that marks the entry as valid. -/
def isMarking (index : Byte) (call : FlashCall) : Bool := call == markCall index

/-- The content of the entry was written to after the entry was marked last. -/
def writtenSince (index : Byte) (calls : List FlashCall) : Bool :=
  Runs.since (isContentWrite index) (isMarking index) calls

/-- A valid entry has the checksum in its header, unless it was written to. -/
def Checks (index : Byte) (d : FlashDriver) : Prop :=
  isValid d.flash index = true → writtenSince index d.calls = false →
    calculateCrc d.flash index = some (crc d.flash index)

/-- And its length is inside the slot. -/
def Sound (index : Byte) (d : FlashDriver) : Prop :=
  isValid d.flash index = true → writtenSince index d.calls = false →
    calculateCrc d.flash index = some (crc d.flash index) ∧
      (length d.flash index).toNat ≤ size - 1024

theorem Sound.checks (h : Sound i d) : Checks i d := fun hv hw => (h hv hw).1

theorem isValid_eq_false {flash : Flash} (h : flash (inFlashOffset i + 64) ≠ 0xAA) :
    isValid flash i = false := by
  rw [isValid, beq_eq_false_iff_ne]
  exact h

/-- Without the marker there is nothing to show. -/
theorem sound_of_invalid (h : d.flash (inFlashOffset i + 64) ≠ 0xAA) : Sound i d := by
  intro hv
  rw [isValid_eq_false h] at hv
  exact absurd hv Bool.false_ne_true

/-- An entry that was written to has nothing to show either. -/
theorem sound_of_written (h : writtenSince i d.calls = true) : Sound i d := by
  intro _ hw
  rw [h] at hw
  exact absurd hw.symm Bool.false_ne_true

/-! ### What leaves an entry alone -/

/-- The slot is as it was, and so is whether it has been written to. -/
structure Same (index : Byte) (d d' : FlashDriver) : Prop where
  flash : ∀ a ∈ slot index, d'.flash a = d.flash a
  written : writtenSince index d'.calls = writtenSince index d.calls

theorem Same.refl (i : Byte) (d : FlashDriver) : Same i d d := ⟨fun _ _ => rfl, rfl⟩

theorem Same.trans (h : Same i d d') (h' : Same i d' d'') : Same i d d'' :=
  ⟨fun a ha => (h'.flash a ha).trans (h.flash a ha), h'.written.trans h.written⟩

theorem mem_slot {k : ℕ} (hk : k < size) : inFlashOffset i + k ∈ slot i :=
  ⟨Nat.le_add_right _ _, Nat.add_lt_add_left hk _⟩

theorem isValid_same (h : ∀ a ∈ slot i, d'.flash a = d.flash a) :
    isValid d'.flash i = isValid d.flash i := by
  rw [isValid, isValid, h _ (mem_slot (by decide))]

theorem Sound.same (h : Sound i d) (hs : Same i d d') : Sound i d' := by
  intro hv hw
  rw [isValid_same hs.flash] at hv
  rw [hs.written] at hw
  obtain ⟨hcheck, hlen⟩ := h hv hw
  have hlength : length d'.flash i = length d.flash i :=
    length_congr fun a ha => hs.flash a (Set.Ico_subset_Ico_right (by rw [size]; omega) ha)
  have hcrc : crc d'.flash i = crc d.flash i :=
    crc_congr fun a ha => hs.flash a (Set.Ico_subset_Ico (by omega) (by rw [size]; omega) ha)
  rw [calculateCrc, hlength, hcrc, ← hcheck, calculateCrc]
  refine ⟨contentCrc_congr fun a h1 h2 => hs.flash a ⟨by omega, ?_⟩, hlen⟩
  rw [size] at hlen ⊢
  omega

/-- A call that touches nothing of the slot neither writes to the entry nor marks it. -/
theorem not_write_not_mark {call : FlashCall} (h : ∀ a, call.Touches a → a ∉ slot i) :
    isContentWrite i call = false ∧ isMarking i call = false := by
  have hle := inFlashOffset_le i
  have hfirst : ∀ offset value, value ≠ [] → offset < 2 ^ 32 →
      (FlashCall.program offset value).Touches offset := by
    intro offset value hvalue hlt
    refine ⟨hlt, ?_⟩
    change (offset + 2 ^ 32 - offset) % 2 ^ 32 < value.length
    rw [Nat.add_sub_cancel_left]
    exact List.length_pos_of_ne_nil hvalue
  rw [size] at hle
  constructor
  · cases call with
    | eraseSector sectorOffset => rfl
    | program offset value =>
      by_contra hne
      rw [isContentWrite, Bool.not_eq_false, Bool.and_eq_true, decide_eq_true_eq, size] at hne
      obtain ⟨⟨hlow, hhigh⟩, hvalue⟩ := hne
      refine h offset (hfirst offset value (by simpa using hvalue) (by omega)) ⟨by omega, ?_⟩
      rw [size]
      exact hhigh
  · rw [isMarking, beq_eq_false_iff_ne, markCall_eq]
    rintro rfl
    exact h _ (hfirst _ [0xAA] (by simp) (by omega)) (mem_slot (by decide))

/-- What is confined to bytes outside of the slot leaves the entry alone. -/
theorem same_of_confined {area : Set ℕ} (h : Confined area d d') (hdisj : ∀ a ∈ area, a ∉ slot i) :
    Same i d d' where
  flash := fun a ha => h.flash a fun hmem => hdisj a hmem ha
  written := by
    obtain ⟨calls, heq, hcalls⟩ := h.calls
    rw [heq]
    exact Runs.since_append _ _ _ fun call hcall =>
      not_write_not_mark fun a ha => hdisj a (hcalls call hcall a ha)

end ProgramEntry

/-! ## One entry in the loop -/

/-- The state in which the loop comes to an entry: nothing from its slot on has changed. -/
structure Before (i : Byte) (d d' : FlashDriver) : Prop where
  flash : ∀ a, inFlashOffset i ≤ a → d'.flash a = d.flash a
  written : writtenSince i d'.calls = writtenSince i d.calls

theorem Before.same (h : Before i d d') : Same i d d' := ⟨fun a ha => h.flash a ha.1, h.written⟩

section

variable {mask : Byte} {body : FlashDriver → Byte → Option UploadEnding × FlashDriver}

/-- The loop over entries below `i`. -/
theorem firstSome_before {is : List Byte} (hbody : ∀ j d, Confined (slot j) d (body d j).2)
    (his : ∀ j ∈ is, j.toNat < i.toNat) (d : FlashDriver) :
    Before i d (Loops.firstSome (fun d j => if mask.getLsbD j.toNat then body d j else (none, d))
      is d).2 := by
  refine Loops.firstSome_rel (fun _ => ⟨fun _ _ => rfl, rfl⟩)
    (fun h h' => ⟨fun a ha => (h'.flash a ha).trans (h.flash a ha), h'.written.trans h.written⟩)
    (fun j hj d => ?_) d
  have hlt := his j hj
  have houtside : ∀ a ∈ slot j, a < inFlashOffset i := by
    intro a ha
    simp only [slot, inFlashOffset, size, Set.mem_Ico] at ha ⊢
    omega
  split
  · have hconf := hbody j d
    refine ⟨fun a ha => hconf.flash a fun hmem => ?_,
      (same_of_confined hconf fun a hmem hslot => ?_).written⟩
    · exact absurd (houtside a hmem) (Nat.not_lt.2 ha)
    · exact absurd (houtside a hmem) (Nat.not_lt.2 hslot.1)
  · exact ⟨fun _ _ => rfl, rfl⟩

/-- The loop over other entries. -/
theorem firstSome_same {is : List Byte} (hbody : ∀ j d, Confined (slot j) d (body d j).2)
    (his : ∀ j ∈ is, j ≠ i) (d : FlashDriver) :
    Same i d (Loops.firstSome (fun d j => if mask.getLsbD j.toNat then body d j else (none, d))
      is d).2 := by
  refine Loops.firstSome_rel (Same.refl i) Same.trans (fun j hj d => ?_) d
  split
  · exact same_of_confined (hbody j d) fun a ha => Set.disjoint_left.1 (disjoint_slot (his j hj)) ha
  · exact Same.refl i d

/-- An ending that comes from another entry. -/
def FromOther (body : FlashDriver → Byte → Option UploadEnding × FlashDriver) (i : Byte)
    (ending : Option UploadEnding) : Prop :=
  ∀ e, ending = some e → ∃ j ≠ i, ∃ d, (body d j).1 = some e

theorem firstSome_fromOther {is : List Byte} (his : ∀ j ∈ is, j ≠ i) (d : FlashDriver) :
    FromOther body i (Loops.firstSome
      (fun d j => if mask.getLsbD j.toNat then body d j else (none, d)) is d).1 := by
  intro e he
  obtain ⟨j, hj, t, ht⟩ := Loops.firstSome_returns he
  split at ht
  · exact ⟨j, his j hj, t, ht⟩
  · exact absurd ht (by simp)

/-- **The loop at an entry.** Either the loop leaves it alone; or it comes to it, the selected
entries below have gone through, and what happens behind leaves it alone. -/
theorem forSelected_at (hi : i ∈ entries) (hbody : ∀ j d, Confined (slot j) d (body d j).2)
    (d : FlashDriver) :
    (Same i d (forSelected mask body d).2 ∧ FromOther body i (forSelected mask body d).1) ∨
      mask.getLsbD i.toNat = true ∧ ∃ t, Before i d t ∧
        (∀ j ∈ entries, j.toNat < i.toNat → mask.getLsbD j.toNat = true →
          ∃ u, Before j d u ∧ (body u j).1 = none) ∧
        Same i (body t i).2 (forSelected mask body d).2 ∧
        ((forSelected mask body d).1 = (body t i).1 ∨ FromOther body i (forSelected mask body d).1) := by
  obtain ⟨pre, post, hsplit⟩ := List.append_of_mem hi
  have hpairwise := entries_pairwise
  rw [hsplit, List.pairwise_append, List.pairwise_cons] at hpairwise
  obtain ⟨hpre, ⟨hpost, -⟩, hbefore⟩ := hpairwise
  have hpre' : ∀ j ∈ pre, j.toNat < i.toNat := fun j hj => hbefore j hj i List.mem_cons_self
  have hprene : ∀ j ∈ pre, j ≠ i := fun j hj heq => absurd (hpre' j hj) (by rw [heq]; omega)
  have hpostne : ∀ j ∈ post, j ≠ i := fun j hj heq => absurd (hpost j hj) (by rw [heq]; omega)
  set turn := fun (d : FlashDriver) (j : Byte) =>
    if mask.getLsbD j.toNat then body d j else (none, d)
  have heq : forSelected mask body d = Loops.firstSome turn (pre ++ i :: post) d := by
    rw [forSelected, hsplit]
  rw [heq]
  have hpresame := @firstSome_before i mask body pre hbody hpre' d
  have hpreother := @firstSome_fromOther i mask body pre hprene d
  rcases @Loops.firstSome_at _ _ _ turn pre i post d with
    ⟨r, t, hloop, hout⟩ | ⟨t, hloop, hrest⟩
  · -- the loop ends before
    rw [hout, ← hloop]
    exact Or.inl ⟨hpresame.same, hpreother⟩
  rw [hloop] at hpresame
  -- the entries below
  have hlower : ∀ j ∈ pre, mask.getLsbD j.toNat = true → ∃ u, Before j d u ∧ (body u j).1 = none := by
    intro j hj hsel
    obtain ⟨pre₁, pre₂, hsplit₁⟩ := List.append_of_mem hj
    rw [hsplit₁] at hloop hpre
    obtain ⟨u, hu, hnone⟩ := Loops.firstSome_none hloop
    have hbefore₁ := @firstSome_before j mask body pre₁ hbody
      (fun k hk => (List.pairwise_append.1 hpre).2.2 k hk j List.mem_cons_self) d
    rw [hu] at hbefore₁
    have hturn : turn u j = body u j := if_pos hsel
    rw [hturn] at hnone
    exact ⟨u, hbefore₁, hnone⟩
  have hmem : ∀ j ∈ entries, j.toNat < i.toNat → j ∈ pre := by
    intro j hj hlt
    rw [hsplit, List.mem_append, List.mem_cons] at hj
    rcases hj with hj | rfl | hj
    · exact hj
    · exact absurd hlt (Nat.lt_irrefl _)
    · exact absurd (hpost j hj) (Nat.lt_asymm hlt)
  by_cases hsel : mask.getLsbD i.toNat = true
  · refine Or.inr ⟨hsel, t, hpresame, fun j hj hlt => hlower j (hmem j hj hlt), ?_⟩
    have hturn : turn t i = body t i := if_pos hsel
    rcases hrest with ⟨r, u, hu, hout⟩ | ⟨u, hu, hout⟩
    · -- it ends here
      rw [hout, ← hturn, hu]
      exact ⟨Same.refl i u, Or.inl rfl⟩
    · -- it goes on
      rw [hout, ← hturn, hu]
      exact ⟨firstSome_same hbody hpostne u, Or.inr (firstSome_fromOther hpostne u)⟩
  · have hturn : turn t i = (none, t) := if_neg hsel
    rcases hrest with ⟨r, u, hu, -⟩ | ⟨u, hu, hout⟩
    · rw [hturn] at hu
      exact absurd (congrArg Prod.fst hu) (by simp)
    · rw [hturn] at hu
      obtain rfl := congrArg Prod.snd hu
      rw [hout]
      exact Or.inl ⟨hpresame.same.trans (firstSome_same hbody hpostne t),
        firstSome_fromOther hpostne t⟩

end

/-- A finalisation reports an error for the entry. -/
def UploadResponse.reportsFinalizeError (i : Byte) : UploadResponse → Prop
  | finalizeEntryWriteError _ entry => entry = i
  | finalizeEntryCrcError entry _ => entry = i
  | _ => False

/-! ## Erasing -/

namespace EraseBootTableEntry

/-- Where an entry is reached and its first sector fails, the sector is left as it was or
without the marker. -/
def Clean (flash : Flash) (answers : FlashAnswers) (parameters : List Byte) : Prop :=
  ∀ i ∈ entries, (parameters.getD 0 0).getLsbD i.toNat = true →
    (∀ j ∈ entries, j.toNat < i.toNat → (parameters.getD 0 0).getLsbD j.toNat = true →
      ∀ k < 8, (answers ((entrySpan j).erase (k * Flash.largeSectorSize))).status = .notBusy) →
    (answers ((entrySpan i).erase 0)).status = .notBusy ∨
      (∀ a ∈ slot i, ((entrySpan i).erase 0).effect (answers ((entrySpan i).erase 0)) flash a = flash a) ∨
      ((entrySpan i).erase 0).effect (answers ((entrySpan i).erase 0)) flash (inFlashOffset i + 64) ≠ 0xAA

theorem eraseEntry_none {j : Byte} (h : (eraseEntry answers d j).1 = none) :
    ∀ k < 8, (answers ((entrySpan j).erase (k * Flash.largeSectorSize))).status = .notBusy := by
  intro k hk
  have hnone : (erase j answers d).1 = none := by
    unfold eraseEntry at h
    split at h
    · exact absurd h (by simp)
    · rename_i heq
      rw [heq]
  have hsector := eraseFrom_none hnone (k := k) (by rw [size, Flash.largeSectorSize]; omega)
  rwa [Nat.zero_add] at hsector

/-- What a call leaves of the slot depends on the slot only. -/
theorem effect_congr {call : FlashCall} {answer : FlashAnswer} {f g : Flash} {a : ℕ} (h : f a = g a) :
    call.effect answer f a = call.effect answer g a := by
  rw [FlashCall.effect, FlashCall.effect, h]

theorem eraseBootTableEntry_sound (hi : i ∈ entries) (hclean : Clean d.flash answers parameters)
    (h : Sound i d) : Sound i (handle parameters answers d).2 := by
  unfold handle
  split
  · exact h
  dsimp only
  rcases forSelected_at hi (fun j d => eraseEntry_driver d j ▸ erase_confined j d) d with
    ⟨hsame, -⟩ | ⟨hsel, t, hbefore, hlower, hsame, -⟩
  · exact h.same hsame
  have ht := h.same hbefore.same
  refine Sound.same ?_ hsame
  rw [eraseEntry_driver]
  rcases @erase_first answers i t with ⟨hfail, hdriver⟩ | ⟨-, hmarker⟩
  · -- the first sector failed
    have hcases := hclean i hi hsel fun j hj hlt hselj => by
      obtain ⟨u, -, hu⟩ := hlower j hj hlt hselj
      exact eraseEntry_none hu
    rw [hdriver]
    rcases hcases with hok | hleft | hmarker
    · exact absurd hok hfail
    · refine ht.same ⟨fun a ha => ?_, ?_⟩
      · rw [hbefore.flash a ha.1, ← hleft a ha]
        exact effect_congr (hbefore.flash a ha.1)
      · rw [FlashDriver.perform_calls]
        refine Runs.since_append _ _ _ fun call hcall => ?_
        rw [List.mem_singleton.1 hcall, erase_eq i (Nat.zero_le _)]
        exact ⟨rfl, rfl⟩
    · refine sound_of_invalid ?_
      rw [← effect_congr (hbefore.flash _ (Nat.le_add_right _ _))] at hmarker
      exact hmarker
  · exact sound_of_invalid (by rw [hmarker]; decide)

theorem not_reports {response : UploadResponse}
    (h : (handle parameters answers d).1 = .responded response) :
    ¬ response.reportsFinalizeError i := by
  unfold handle at h
  split at h
  · cases h
    exact not_false
  · dsimp only at h
    cases hloop : (forSelected (parameters.getD 0 0) (eraseEntry answers) d).1 with
    | none =>
      rw [hloop] at h
      cases h
      exact not_false
    | some e =>
      rw [hloop] at h
      obtain ⟨j, -, u, hu⟩ := Loops.firstSome_returns hloop
      split at hu
      · unfold eraseEntry at hu
        split at hu
        · cases hu
          cases h
          exact not_false
        · exact absurd hu (by simp)
      · exact absurd hu (by simp)

end EraseBootTableEntry

/-! ## Writing -/

namespace WriteProgramPart

/-- A call that writes some content to an entry is seen as such. -/
theorem contentCall_isContentWrite {p : Parameters} (hcontent : p.content ≠ [])
    (hfits : p.offset.toNat + p.content.length ≤ size - 1024) :
    isContentWrite i (contentCall i p.offset.toNat p.content) = true := by
  have hlen := List.length_pos_of_ne_nil hcontent
  have hcall := @program_spanAt i 1024 p.offset.toNat le_rfl (by omega) p.content
  rw [contentCall, programSpan, hcall, isContentWrite, Bool.and_eq_true, decide_eq_true_eq]
  exact ⟨by rw [size] at hfits ⊢; omega, by simpa using hcontent⟩

theorem writeProgramPart_sound (hi : i ∈ entries) (hfits : Fits parameters) (h : Sound i d) :
    Sound i (handle parameters answers d).2 := by
  unfold handle
  split
  · exact h
  rename_i p hp
  split
  · exact h
  rename_i hs
  rw [Bool.not_eq_true, Bool.not_eq_false'] at hs
  dsimp only
  rcases hfits p hp hs with hnone | hfits
  · -- no entry is selected
    have hconf : Confined ∅ d (forSelected p.selectedEntries (writeEntry p answers) d).2 :=
      forSelected_confined (fun j hj hsel => by
        rw [hnone j hj] at hsel
        exact absurd hsel Bool.false_ne_true) d
    exact h.same (same_of_confined hconf fun a ha => absurd ha (Set.notMem_empty a))
  rcases forSelected_at hi
      (fun j d => (writeEntry_confined j hfits d).mono contentPart_subset_slot) d with
    ⟨hsame, -⟩ | ⟨-, t, hbefore, -, hsame, -⟩
  · exact h.same hsame
  have ht := h.same hbefore.same
  refine Sound.same ?_ hsame
  by_cases hcontent : p.content = []
  · -- an empty part touches nothing
    have hconf : Confined ∅ t (writeEntry p answers t i).2 := by
      rw [writeEntry_driver]
      refine Confined.perform fun a ha => ?_
      have hlt := ha.2
      rw [contentCall_area, hcontent] at hlt
      exact absurd hlt (Nat.not_lt_zero _)
    exact ht.same (same_of_confined hconf fun a ha => absurd ha (Set.notMem_empty a))
  · refine sound_of_written ?_
    rw [writeEntry_driver, FlashDriver.perform_calls, writtenSince, Runs.since_snoc,
      if_pos (contentCall_isContentWrite hcontent (hfits.resolve_left hcontent))]

theorem not_reports {response : UploadResponse}
    (h : (handle parameters answers d).1 = .responded response) :
    ¬ response.reportsFinalizeError i := by
  unfold handle at h
  split at h
  · exact absurd h (by simp)
  rename_i p hp
  split at h
  · cases h
    exact not_false
  · dsimp only at h
    cases hloop : (forSelected p.selectedEntries (writeEntry p answers) d).1 with
    | none =>
      rw [hloop] at h
      cases h
      exact not_false
    | some e =>
      rw [hloop] at h
      obtain ⟨j, -, u, hu⟩ := Loops.firstSome_returns hloop
      split at hu
      · rw [writeEntry] at hu
        split at hu
        · cases hu
          cases h
          exact not_false
        · exact absurd hu (by simp)
      · exact absurd hu (by simp)

end WriteProgramPart

/-! ## Finalising -/

namespace FinalizeProgramEntry

variable {p : Parameters} {description : List Byte}

/-- The calls for the header of an entry. -/
def headerCalls (p : Parameters) (description : List Byte) (i : Byte) : List FlashCall :=
  [crcCall i p.expectedCrc, lengthCall i p.length] ++ descriptionCalls i description 0 ++ [markCall i]

/-- The header is programmed, and the content has the expected checksum over the length that
programming leaves. -/
def Succeeds (flash : Flash) (answers : FlashAnswers) (p : Parameters) (description : List Byte)
    (i : Byte) : Prop :=
  (∀ call ∈ headerCalls p description i, (answers call).status = .notBusy) ∧
    contentCrc flash i (length flash i &&& p.length) = some p.expectedCrc

/-- And the header takes the checksum, and a length inside the slot. -/
def Proper (flash : Flash) (answers : FlashAnswers) (p : Parameters) (description : List Byte)
    (i : Byte) : Prop :=
  Succeeds flash answers p description i ∧ crc flash i &&& p.expectedCrc = p.expectedCrc ∧
    (length flash i &&& p.length).toNat ≤ size - 1024

/-- The description fits, and each entry that is reached either does not get the marker or is
finalised properly. -/
def Clean (flash : Flash) (answers : FlashAnswers) (parameters : List Byte) : Prop :=
  DescriptionFits parameters ∧
    ∀ p, read parameters = some p → p.status = true →
      ∀ description, copyDescription p.description = some description →
        ∀ i ∈ entries, p.selectedEntries.getLsbD i.toNat = true →
          (∀ j ∈ entries, j.toNat < i.toNat → p.selectedEntries.getLsbD j.toNat = true →
            Succeeds flash answers p description j) →
          (markCall i).effect (answers (markCall i)) flash (inFlashOffset i + 64) ≠ 0xAA ∨
            Proper flash answers p description i

theorem worst_eq_notBusy {a b : FlashStatus} : worst a b = .notBusy ↔ a = .notBusy ∧ b = .notBusy := by
  unfold worst
  split
  · rename_i ha
    exact (and_iff_right ha).symm
  · rename_i ha
    exact ⟨fun h => absurd h ha, fun h => absurd h.1 ha⟩

/-- The driver after the header of an entry. -/
def headed (p : Parameters) (description : List Byte) (answers : FlashAnswers) (d : FlashDriver)
    (i : Byte) : FlashDriver :=
  (markAsValid i answers (setDescription i answers description 0
    (setLength i answers p.length (setCrc i answers p.expectedCrc d).2).2).2).2

theorem headerCalls_notBusy {status : FlashStatus} (hdesc : status = .notBusy ↔
      ∀ call ∈ descriptionCalls i description 0, (answers call).status = .notBusy) :
    worst (worst (worst (worst .notBusy (answers (crcCall i p.expectedCrc)).status)
        (answers (lengthCall i p.length)).status) status) (answers (markCall i)).status = .notBusy ↔
      ∀ call ∈ headerCalls p description i, (answers call).status = .notBusy := by
  rw [worst_eq_notBusy, worst_eq_notBusy, worst_eq_notBusy, worst_eq_notBusy, hdesc, headerCalls]
  simp only [List.forall_mem_append, List.forall_mem_cons, List.not_mem_nil, false_imp_iff,
    implies_true, and_true, true_and]

section

variable (hlen : description.length = 30)

include hlen

/-- The fields of the header after all calls, one by one. -/
theorem headed_marker (d : FlashDriver) (i : Byte) :
    (headed p description answers d i).flash (inFlashOffset i + 64) =
      (markCall i).effect (answers (markCall i)) d.flash (inFlashOffset i + 64) := by
  refine EraseBootTableEntry.effect_congr ?_
  rw [(setDescription_confined i description (by rw [hlen]; decide) _).flash _ fun h => by
      have := h.1; omega,
    (setLength_confined i _).flash _ fun h => by have := h.2; omega,
    (setCrc_confined i _).flash _ fun h => by have := h.2; omega]

theorem headed_crc (h : (answers (crcCall i p.expectedCrc)).status = .notBusy) (d : FlashDriver) :
    crc (headed p description answers d i).flash i = crc d.flash i &&& p.expectedCrc := by
  rw [← crc_setCrc h]
  refine crc_congr fun a ha => ?_
  rw [headed, (markAsValid_confined i).flash _ fun h => by have := h.1; have := ha.2; omega,
    (setDescription_confined i description (by rw [hlen]; decide) _).flash _ fun h => by
      have := h.1; have := ha.2; omega,
    (setLength_confined i _).flash _ fun h => by have := h.2; have := ha.1; omega]

theorem headed_length (h : (answers (lengthCall i p.length)).status = .notBusy) (d : FlashDriver) :
    length (headed p description answers d i).flash i = length d.flash i &&& p.length := by
  have hcrc : length (setCrc i answers p.expectedCrc d).2.flash i = length d.flash i :=
    length_congr fun a ha => (setCrc_confined i _).flash _ fun h => by
      have := h.1; have := ha.2; omega
  rw [← hcrc, ← length_setLength h]
  refine length_congr fun a ha => ?_
  rw [headed, (markAsValid_confined i).flash _ fun h => by have := h.1; have := ha.2; omega,
    (setDescription_confined i description (by rw [hlen]; decide) _).flash _ fun h => by
      have := h.1; have := ha.2; omega]

/-- The description, if its field was erased. -/
theorem headed_description (h0 : 0 ∈ description)
    (h : ∀ call ∈ descriptionCalls i description 0, (answers call).status = .notBusy) {d : FlashDriver}
    (herased : ∀ k < 30, d.flash (inFlashOffset i + 128 + k) = 0xFF) :
    ∀ k ≤ (description.takeWhile (· ≠ 0)).length,
      (headed p description answers d i).flash (inFlashOffset i + 128 + k) =
        (description.takeWhile (· ≠ 0)).getD k 0 := by
  intro k hk
  have hprogrammed := setDescription_flash i h0 0 (by rw [hlen]; decide) h
    (d := (setLength i answers p.length (setCrc i answers p.expectedCrc d).2).2) (fun j hj => by
      rw [hlen] at hj
      rw [(setLength_confined i _).flash _ fun hin => by have := hin.2; omega,
        (setCrc_confined i _).flash _ fun hin => by have := hin.2; omega]
      exact herased j hj) k hk
  rw [headed, (markAsValid_confined i).flash _ fun hin => by have := hin.2; omega]
  exact hprogrammed

theorem headed_confined (d : FlashDriver) (i : Byte) :
    Confined (header i) d (headed p description answers d i) :=
  (((setCrc_confined i _).mono (Set.Ico_subset_Ico (by omega) (by omega))).trans
    ((setLength_confined i _).mono (Set.Ico_subset_Ico_right (by omega)))).trans
    ((setDescription_confined i description (by rw [hlen]; decide) _).mono
      (Set.Ico_subset_Ico (by omega) (by omega))) |>.trans
    ((markAsValid_confined i).mono (Set.Ico_subset_Ico (by omega) (by omega)))

/-- The check of the content, if the header is programmed. -/
theorem headed_calculateCrc
    (h : ∀ call ∈ headerCalls p description i, (answers call).status = .notBusy) (d : FlashDriver) :
    calculateCrc (headed p description answers d i).flash i =
      contentCrc d.flash i (length d.flash i &&& p.length) := by
  rw [calculateCrc, headed_length hlen (h _ (by simp [headerCalls])) d]
  exact contentCrc_congr fun a ha _ => (headed_confined hlen d i).flash a fun hmem =>
    absurd hmem.2 (Nat.not_lt.2 ha)

end

/-- **An entry is finalised**: its header is programmed, whatever comes of it. -/
theorem finalizeEntry_driver (h0 : 0 ∈ description) (d : FlashDriver) (i : Byte) :
    (finalizeEntry p description answers d i).2 = headed p description answers d i := by
  obtain ⟨status, hstatus, -⟩ := @setDescription_notBusy answers i description h0 0
    (setLength i answers p.length (setCrc i answers p.expectedCrc d).2).2
  rw [finalizeEntry]
  dsimp only
  rw [hstatus]
  dsimp only
  split_ifs
  · rfl
  · split
    · rfl
    · split_ifs
      · rfl
      · rfl

/-- **And goes through** if the header was programmed and the content has the checksum. -/
theorem finalizeEntry_none (hlen : description.length = 30) (h0 : 0 ∈ description) (d : FlashDriver)
    (i : Byte) :
    (finalizeEntry p description answers d i).1 = none ↔ Succeeds d.flash answers p description i := by
  obtain ⟨status, hstatus, hdesc⟩ := @setDescription_notBusy answers i description h0 0
    (setLength i answers p.length (setCrc i answers p.expectedCrc d).2).2
  have hworst := headerCalls_notBusy (p := p) hdesc
  have hcheck := fun h => @headed_calculateCrc i answers p description hlen h d
  rw [finalizeEntry]
  dsimp only
  rw [hstatus]
  dsimp only
  split_ifs with hw
  · exact ⟨fun h => absurd h (by simp), fun h => absurd (hworst.2 h.1) hw⟩
  · have hcalls := hworst.1 (not_not.1 hw)
    rw [Succeeds, and_iff_right hcalls, ← hcheck hcalls, headed]
    split
    · rename_i hnone
      rw [hnone]
      exact ⟨fun h => absurd h (by simp), fun h => absurd h (by simp)⟩
    · rename_i actual hactual
      rw [hactual, Option.some.injEq]
      split_ifs with hne
      · exact ⟨fun h => absurd h (by simp), fun h => absurd h hne⟩
      · exact iff_of_true rfl (not_not.1 hne)

/-- An error is about the entry at hand. -/
theorem finalizeEntry_reports {j : Byte} {response : UploadResponse}
    (h : (finalizeEntry p description answers d j).1 = some (.responded response))
    (hi : response.reportsFinalizeError i) : j = i := by
  unfold finalizeEntry at h
  dsimp only at h
  split at h
  · exact absurd h (by simp)
  · split_ifs at h
    · cases h
      exact hi
    · split at h
      · exact absurd h (by simp)
      · split_ifs at h
        · cases h
          exact hi

/-- Whether an entry succeeds can be seen from the flash before the loop. -/
theorem succeeds_before {j : Byte} {u : FlashDriver} (hb : Before j d u) :
    Succeeds u.flash answers p description j ↔ Succeeds d.flash answers p description j := by
  have hlength : length u.flash j = length d.flash j := length_congr fun a ha => hb.flash a ha.1
  have hcrc : ∀ n, contentCrc u.flash j n = contentCrc d.flash j n := fun n =>
    contentCrc_congr fun a ha _ => hb.flash a (by omega)
  rw [Succeeds, Succeeds, hlength, hcrc]

/-- **A proper finalisation** leaves a sound entry. -/
theorem Proper.sound (hlen : description.length = 30) {t : FlashDriver} (hb : Before i d t)
    (h : Proper d.flash answers p description i) : Sound i (headed p description answers t i) := by
  obtain ⟨⟨hcalls, hcheck⟩, hcrc, hlength⟩ := h
  have hlength' : length t.flash i = length d.flash i := length_congr fun a ha => hb.flash a ha.1
  have hcrc' : crc t.flash i = crc d.flash i :=
    crc_congr fun a ha => hb.flash a ((Nat.le_add_right _ 32).trans ha.1)
  intro _ _
  rw [headed_calculateCrc hlen hcalls, headed_crc hlen (hcalls _ (by simp [headerCalls])),
    headed_length hlen (hcalls _ (by simp [headerCalls])), hlength', hcrc', hcrc]
  refine ⟨?_, hlength⟩
  rw [← hcheck]
  exact contentCrc_congr fun a ha _ => hb.flash a (by omega)

/-- One telecommand: the entry stays sound, and is not valid if an error is reported for it. -/
theorem finalizeProgramEntry_sound (hi : i ∈ entries) (hclean : Clean d.flash answers parameters)
    (h : Sound i d) :
    Sound i (handle parameters answers d).2 ∧
      ∀ response, (handle parameters answers d).1 = .responded response →
        response.reportsFinalizeError i → isValid (handle parameters answers d).2.flash i = false := by
  unfold handle
  split
  · exact ⟨h, fun _ hr => absurd hr (by simp)⟩
  rename_i p hp
  split
  · exact ⟨h, fun _ hr => absurd hr (by simp)⟩
  rename_i description hdescription
  have hlen := length_copyDescription hdescription
  obtain ⟨hfits, hentries⟩ := hclean
  have h0 : 0 ∈ description := by
    obtain ⟨description', h', hmem⟩ := descriptionTerminated_iff.2 hfits p hp
    obtain rfl := Option.some.inj (h'.symm.trans hdescription)
    exact hmem
  split
  · refine ⟨h, fun response hr hreport => ?_⟩
    cases hr
    exact absurd hreport not_false
  rename_i hs
  rw [Bool.not_eq_true, Bool.not_eq_false'] at hs
  dsimp only
  -- no error for this entry, unless from its own turn
  have hother : ∀ {ending : Option UploadEnding}, FromOther (finalizeEntry p description answers) i ending →
      ∀ response, ending.getD (.responded (.finalizeEntrySuccess (parameters.getD 0 0) p.expectedCrc)) =
        .responded response → ¬ response.reportsFinalizeError i := by
    intro ending hfrom response hr hreport
    cases ending with
    | none => cases hr; exact hreport
    | some e =>
      obtain ⟨j, hj, u, hu⟩ := hfrom e rfl
      rw [Option.getD_some] at hr
      rw [hr] at hu
      exact hj (finalizeEntry_reports hu hreport)
  rcases forSelected_at hi
      (fun j d => (finalizeEntry_confined hlen j d).mono header_subset_slot) d with
    ⟨hsame, hfrom⟩ | ⟨hsel, t, hbefore, hlower, hsame, hfrom⟩
  · exact ⟨h.same hsame, fun response hr hreport => absurd hreport (hother hfrom response hr)⟩
  rw [finalizeEntry_driver h0] at hsame
  have hcases := hentries p hp hs description hdescription i hi hsel fun j hj hlt hselj => by
    obtain ⟨u, hu, hnone⟩ := hlower j hj hlt hselj
    exact (succeeds_before hu).1 ((finalizeEntry_none hlen h0 u j).1 hnone)
  rcases hcases with hmarker | hproper
  · -- the marker is not there
    have hinvalid : (headed p description answers t i).flash (inFlashOffset i + 64) ≠ 0xAA := by
      rw [headed_marker hlen, EraseBootTableEntry.effect_congr (hbefore.flash _ (Nat.le_add_right _ _))]
      exact hmarker
    refine ⟨(sound_of_invalid hinvalid).same hsame, fun _ _ _ => ?_⟩
    rw [isValid_same hsame.flash]
    exact isValid_eq_false hinvalid
  · -- the entry goes through, so no error is reported for it
    refine ⟨(hproper.sound hlen hbefore).same hsame, fun response hr hreport => ?_⟩
    have hgoes : (finalizeEntry p description answers t i).1 = none :=
      (finalizeEntry_none hlen h0 t i).2 ((succeeds_before hbefore).2 hproper.1)
    rcases hfrom with heq | hfrom
    · rw [heq, hgoes] at hr
      cases hr
      exact absurd hreport not_false
    · exact absurd hreport (hother hfrom response hr)

end FinalizeProgramEntry

/-! ## Runs -/

/-- The condition on one telecommand, its answers and the flash before it. -/
def UploadState.Clean (s : UploadState) (e : UploadEvent) : Prop :=
  match e.telecommand with
  | .eraseBootTableEntry parameters => EraseBootTableEntry.Clean s.driver.flash e.answers parameters
  | .writeProgramPart parameters => WriteProgramPart.Fits parameters
  | .finalizeProgramEntry parameters => FinalizeProgramEntry.Clean s.driver.flash e.answers parameters

/-- The boot table is erased. -/
def BootTable.Erased (flash : Flash) : Prop := ∀ i ∈ entries, ∀ a ∈ slot i, flash a = 0xFF

/-- What is to hold after each telecommand. -/
def UploadState.Good (s : UploadState) : Prop :=
  ∀ i ∈ entries, Checks i s.driver ∧
    ∀ response, s.response = some response → response.reportsFinalizeError i →
      isValid s.driver.flash i = false

/-- One telecommand keeps the entries sound. -/
theorem UploadState.step_sound {s t : UploadState} {e : UploadEvent}
    (h : ∀ i ∈ entries, Sound i s.driver) (hclean : s.Clean e) (hstep : s.step e = some t) :
    ∀ i ∈ entries, Sound i t.driver ∧
      ∀ response, t.response = some response → response.reportsFinalizeError i →
        isValid t.driver.flash i = false := by
  intro i hi
  obtain ⟨telecommand, answers⟩ := e
  have hhandle : ∃ response, telecommand.handle answers s.driver = (.responded response, t.driver) ∧
      t.response = some response := by
    unfold UploadState.step at hstep
    split at hstep
    · rename_i response driver heq
      cases hstep
      exact ⟨response, heq, rfl⟩
    · exact absurd hstep (by simp)
  obtain ⟨response, hhandle, hresponse⟩ := hhandle
  have hdriver := congrArg Prod.snd hhandle
  have hending := congrArg Prod.fst hhandle
  dsimp only at hdriver hending
  have hof : ∀ {r}, t.response = some r → r = response := fun hr =>
    Option.some.inj (hr.symm.trans hresponse)
  rw [← hdriver]
  cases telecommand with
  | eraseBootTableEntry parameters =>
    refine ⟨EraseBootTableEntry.eraseBootTableEntry_sound hi hclean (h i hi), ?_⟩
    rintro r hr hreport
    rw [hof hr] at hreport
    exact absurd hreport (EraseBootTableEntry.not_reports hending)
  | writeProgramPart parameters =>
    refine ⟨WriteProgramPart.writeProgramPart_sound hi hclean (h i hi), ?_⟩
    rintro r hr hreport
    rw [hof hr] at hreport
    exact absurd hreport (WriteProgramPart.not_reports hending)
  | finalizeProgramEntry parameters =>
    obtain ⟨hsound, hreports⟩ := FinalizeProgramEntry.finalizeProgramEntry_sound hi hclean (h i hi)
    refine ⟨hsound, ?_⟩
    rintro r hr hreport
    rw [hof hr] at hreport
    exact hreports response hending hreport

/-- In an erased boot table no entry is valid. -/
theorem BootTable.Erased.sound {flash : Flash} {calls : List FlashCall} (h : Erased flash)
    (hi : i ∈ entries) : Sound i ⟨flash, calls⟩ :=
  sound_of_invalid (by
    change flash _ ≠ 0xAA
    rw [h i hi _ (mem_slot (by decide))]
    decide)

/-- **Valid entries have the right checksum**: from an erased boot table, in every run whose
telecommands meet the condition, after each of them every valid entry that has not been
written to since it was marked has the checksum in its header, and an entry for which a
finalisation reports an error is not valid. -/
theorem valid_entries_check {flash : Flash} (herased : BootTable.Erased flash)
    {es : List UploadEvent} {s : UploadState}
    (h : Runs.Run UploadState.step UploadState.Clean ⟨⟨flash, []⟩, none⟩ es s) : s.Good := by
  have hinv : ∀ i ∈ entries, Sound i s.driver ∧
      ∀ response, s.response = some response → response.reportsFinalizeError i →
        isValid s.driver.flash i = false := by
    refine h.inv (I := fun s => ∀ i ∈ entries, Sound i s.driver ∧
      ∀ response, s.response = some response → response.reportsFinalizeError i →
        isValid s.driver.flash i = false) (fun i hi => ⟨herased.sound hi, ?_⟩) ?_
    · intro _ hr
      exact absurd hr (by simp)
    · exact fun s e t hs hclean hstep =>
        UploadState.step_sound (fun i hi => (hs i hi).1) hclean hstep
  exact fun i hi => ⟨(hinv i hi).1.checks, (hinv i hi).2⟩

/-- A step of a telecommand that comes to its end. -/
theorem UploadState.step_of_responded {s : UploadState} {e : UploadEvent} {response : UploadResponse}
    (h : (e.telecommand.handle e.answers s.driver).1 = .responded response) :
    s.step e = some ⟨(e.telecommand.handle e.answers s.driver).2, some response⟩ := by
  rw [UploadState.step]
  rcases heq : e.telecommand.handle e.answers s.driver with ⟨ending, driver⟩
  rw [heq] at h
  dsimp only at h
  rw [h]

namespace UploadExample

/-- A device that answers all calls well. -/
def okAnswers : FlashAnswers := fun _ => ⟨.notBusy, fun _ => 0xFF⟩

def erased : FlashDriver := ⟨fun _ => 0xFF, []⟩

/-- One byte for entry 0. -/
def write : UploadEvent := ⟨.writeProgramPart [0x01, 0x00, 0x00, 0x00, 0x00, 0x42], okAnswers⟩

/-- Entry 0, finalised with the length 1, the CRC of that byte and the description "A". -/
def finalize : UploadEvent :=
  ⟨.finalizeProgramEntry [0x01, 0x01, 0x00, 0x00, 0x00, 0x86, 0x68, 0x41], okAnswers⟩

def written : FlashDriver := (write.telecommand.handle okAnswers erased).2

def finalized : FlashDriver := (finalize.telecommand.handle okAnswers written).2

theorem selected_zero : ∀ i ∈ entries, (1 : Byte).getLsbD i.toNat = true → i = 0 := by decide

theorem write_clean : WriteProgramPart.Fits [0x01, 0x00, 0x00, 0x00, 0x00, 0x42] := by
  intro p hp _
  have hread : WriteProgramPart.read [0x01, 0x00, 0x00, 0x00, 0x00, 0x42] =
      some ⟨0x01, 0, [0x42], true⟩ := by decide +kernel
  obtain rfl := Option.some.inj (hp.symm.trans hread)
  exact Or.inr (Or.inr (by decide))

theorem finalize_clean : FinalizeProgramEntry.Clean written.flash okAnswers
    [0x01, 0x01, 0x00, 0x00, 0x00, 0x86, 0x68, 0x41] := by
  have hread : FinalizeProgramEntry.read [0x01, 0x01, 0x00, 0x00, 0x00, 0x86, 0x68, 0x41] =
      some ⟨0x01, 1, 0x6886, [0x41], true⟩ := by decide +kernel
  refine ⟨fun p hp => ?_, fun p hp _ description _ i hi hsel _ => Or.inr ?_⟩
  · obtain rfl := Option.some.inj (hp.symm.trans hread)
    exact Or.inl (by decide)
  · obtain rfl := Option.some.inj (hp.symm.trans hread)
    obtain rfl := selected_zero i hi hsel
    exact ⟨⟨fun _ _ => rfl, by decide +kernel⟩, by decide +kernel, by decide +kernel⟩

theorem run : Runs.Run UploadState.step UploadState.Clean ⟨erased, none⟩ [write, finalize]
    ⟨finalized, some (.finalizeEntrySuccess 0x01 0x6886)⟩ := by
  have hwrite : Runs.Run UploadState.step UploadState.Clean ⟨erased, none⟩ ([] ++ [write])
      ⟨written, some (.writeProgramSuccess 0x01 0 1)⟩ :=
    .snoc .nil write_clean (UploadState.step_of_responded (by decide +kernel))
  exact .snoc hwrite finalize_clean (UploadState.step_of_responded (by decide +kernel))

end UploadExample

theorem valid_entries_check_example :
    UploadState.Good ⟨UploadExample.finalized, some (.finalizeEntrySuccess 0x01 0x6886)⟩ ∧
      isValid UploadExample.finalized.flash 0 = true :=
  ⟨valid_entries_check (fun _ _ _ _ => rfl) UploadExample.run, by decide +kernel⟩

/-- The content does not have the checksum it is finalised with: the entry is refused, and
valid. -/
theorem refused_entry_valid :
    ¬ ∀ (flash : Flash) (es : List UploadEvent) (s : UploadState), BootTable.Erased flash →
      Runs.Run UploadState.step Runs.always ⟨⟨flash, []⟩, none⟩ es s → s.Good := by
  intro h
  have hstep := @UploadState.step_of_responded ⟨UploadExample.erased, none⟩
    ⟨.finalizeProgramEntry [0x01, 0x00, 0x00, 0x00, 0x00, 0x01, 0x00], UploadExample.okAnswers⟩
    (.finalizeEntryCrcError 0 0) (by decide +kernel)
  have hgood := h _ _ _ (fun _ _ _ _ => rfl) (.snoc .nil trivial hstep) 0 (by decide)
  exact absurd (hgood.2 _ rfl rfl) (by decide +kernel)

end PWSat2OBC
