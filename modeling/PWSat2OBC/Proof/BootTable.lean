import Mathlib.Tactic
import Mathlib.Order.CompletePartialOrder
import PWSat2OBC.Proof.Redundancy
import PWSat2OBC.Spec.BootTable

/-!
# What the operations of an entry do to the flash

`Confined area d d'`: on the way from `d` to `d'` the driver has only made calls inside
`area`, and the flash outside of it is as it was. Each operation of an entry is confined to
its own field, so the fields can be followed one by one:

* `crc_setCrc`, `length_setLength`: programming a number over another leaves the bits that
  both have.
* `setDescription_notBusy`: the description is programmed if each of its calls is answered so.
* `erase_first`: erasing an entry either fails in its first sector, or its marker is gone.
-/

namespace PWSat2OBC

variable {a : ℕ} {d d' d'' : FlashDriver} {answers : FlashAnswers}

namespace FlashCall

variable {call : FlashCall} {answer : FlashAnswer} {flash : Flash}

/-- An area that does not wrap around. -/
theorem touches_iff (h : call.area.1 + call.area.2 ≤ 2 ^ 32) :
    call.Touches a ↔ call.area.1 ≤ a ∧ a < call.area.1 + call.area.2 := by
  unfold Touches index
  omega

theorem effect_of_not_touches (h : ¬ call.Touches a) : call.effect answer flash a = flash a := if_neg h

theorem effect_of_touches (h : call.Touches a) :
    call.effect answer flash a = call.store answer a (flash a) := if_pos h

/-- A call that succeeds does what the flash does when it erases. -/
theorem effect_eraseSector {sectorOffset : ℕ} (hs : answer.status = .notBusy)
    (h : sectorOffset + Flash.largeSectorSize ≤ 2 ^ 32) :
    (eraseSector sectorOffset).effect answer flash = flash.eraseSector sectorOffset := by
  funext a
  have ht := @touches_iff a (eraseSector sectorOffset) h
  unfold Flash.eraseSector
  split
  · rw [effect_of_touches (ht.2 ‹_›), store, if_pos hs]
  · exact effect_of_not_touches fun hn => ‹¬ _› (ht.1 hn)

/-- A call that succeeds does what the flash does when it programs. -/
theorem effect_program {offset : ℕ} {value : List Byte} (hs : answer.status = .notBusy)
    (h : offset + value.length ≤ 2 ^ 32) :
    (program offset value).effect answer flash = flash.program offset value := by
  funext a
  have ht := @touches_iff a (program offset value) h
  unfold Flash.program
  split
  · rename_i ha
    have hindex : (program offset value).index a = a - offset := by
      change (a + 2 ^ 32 - offset) % 2 ^ 32 = a - offset
      omega
    rw [effect_of_touches (ht.2 ha), store, if_pos hs, hindex]
  · exact effect_of_not_touches fun hn => ‹¬ _› (ht.1 hn)

end FlashCall

@[simp] theorem FlashDriver.perform_status (d : FlashDriver) (call : FlashCall) :
    (d.perform answers call).1 = (answers call).status := rfl

@[simp] theorem FlashDriver.perform_calls (d : FlashDriver) (call : FlashCall) :
    (d.perform answers call).2.calls = d.calls ++ [call] := rfl

/-! ## Confined operations -/

/-- From `d` to `d'` the driver has made calls inside `area` only. -/
structure Confined (area : Set ℕ) (d d' : FlashDriver) : Prop where
  calls : ∃ calls, d'.calls = d.calls ++ calls ∧ ∀ call ∈ calls, ∀ a, call.Touches a → a ∈ area
  flash : ∀ a, a ∉ area → d'.flash a = d.flash a

namespace Confined

variable {area area' : Set ℕ}

theorem refl (d : FlashDriver) : Confined area d d where
  calls := ⟨[], (List.append_nil _).symm, by simp⟩
  flash := fun _ _ => rfl

theorem trans (h : Confined area d d') (h' : Confined area d' d'') : Confined area d d'' where
  calls := by
    obtain ⟨calls, heq, hcalls⟩ := h.calls
    obtain ⟨calls', heq', hcalls'⟩ := h'.calls
    refine ⟨calls ++ calls', by rw [heq', heq, List.append_assoc], ?_⟩
    intro call hcall
    rcases List.mem_append.1 hcall with hmem | hmem
    · exact hcalls call hmem
    · exact hcalls' call hmem
  flash := fun a ha => (h'.flash a ha).trans (h.flash a ha)

theorem mono (h : Confined area d d') (hsub : area ⊆ area') : Confined area' d d' where
  calls := by
    obtain ⟨calls, heq, hcalls⟩ := h.calls
    exact ⟨calls, heq, fun call hcall a ha => hsub (hcalls call hcall a ha)⟩
  flash := fun a ha => h.flash a fun hmem => ha (hsub hmem)

/-- One call. -/
theorem perform {call : FlashCall} (h : ∀ a, call.Touches a → a ∈ area) :
    Confined area d (d.perform answers call).2 where
  calls := ⟨[call], rfl, by simpa using h⟩
  flash := fun a ha => FlashCall.effect_of_not_touches fun ht => ha (h a ht)

theorem program {offset n : ℕ} {value : List Byte} (hn : value.length = n)
    (h : offset + n ≤ 2 ^ 32) : Confined (Set.Ico offset (offset + n)) d
      (d.perform answers (.program offset value)).2 := by
  subst hn
  exact Confined.perform fun _ => (@FlashCall.touches_iff _ (.program offset value) h).1

end Confined

/-- **Programming that succeeds** clears the bits that are clear in the value. -/
theorem perform_program {offset n : ℕ} {value : List Byte}
    (hs : (answers (.program offset value)).status = .notBusy) (hn : value.length = n)
    (h : offset + n ≤ 2 ^ 32) {i : ℕ} (hi : i < n) :
    (d.perform answers (.program offset value)).2.flash (offset + i) =
      d.flash (offset + i) &&& value.getD i 0 := by
  subst hn
  change (FlashCall.program offset value).effect _ d.flash (offset + i) = _
  rw [FlashCall.effect_program hs h, Flash.program, if_pos (by omega), Nat.add_sub_cancel_left]

/-! ## Fields of an entry -/

namespace ProgramEntry

variable {index : Byte}

/-- The slot of an entry. -/
def slot (index : Byte) : Set ℕ := Set.Ico (inFlashOffset index) (inFlashOffset index + size)

/-- The content part of the slot. -/
def contentPart (index : Byte) : Set ℕ :=
  Set.Ico (inFlashOffset index + 1024) (inFlashOffset index + size)

theorem contentPart_subset_slot : contentPart index ⊆ slot index :=
  Set.Ico_subset_Ico_left (Nat.le_add_right _ _)

theorem inFlashOffset_le (index : Byte) : inFlashOffset index ≤ 255 * size :=
  Nat.mul_le_mul_right size (Nat.lt_succ_iff.1 index.isLt)

/-- No field of an entry wraps around. -/
theorem fits (index : Byte) {k n : ℕ} (h : k + n ≤ size) :
    inFlashOffset index + k + n ≤ 2 ^ 32 := by
  have hle := inFlashOffset_le index
  rw [size] at hle h
  omega

theorem fits_length (index : Byte) : inFlashOffset index + 4 ≤ 2 ^ 32 := by
  have hle := inFlashOffset_le index
  rw [size] at hle
  omega

/-- Slots of different entries do not overlap. -/
theorem disjoint_slot {j : Byte} (h : j ≠ index) : Disjoint (slot j) (slot index) := by
  have hne : j.toNat ≠ index.toNat := fun heq => h (BitVec.eq_of_toNat_eq heq)
  refine Set.disjoint_left.2 fun a hj hi => ?_
  simp only [slot, inFlashOffset, size, Set.mem_Ico] at hj hi
  omega

theorem baseOffset_spanAt (index : Byte) {k : ℕ} (hk : k ≤ 1024) :
    ((entrySpan index).spanAt k).baseOffset = inFlashOffset index + k := by
  have hle := inFlashOffset_le index
  rw [size] at hle
  change (inFlashOffset index + k) % 2 ^ 32 = inFlashOffset index + k
  omega

/-- A call on the span `k` bytes into the slot. -/
theorem program_spanAt (index : Byte) {k offset : ℕ} (hk : k ≤ 1024) (h : offset ≤ size)
    (value : List Byte) : ((entrySpan index).spanAt k).program offset value =
      .program (inFlashOffset index + k + offset) value := by
  have hle := inFlashOffset_le index
  rw [size] at hle h
  rw [FlashSpan.program, baseOffset_spanAt index hk, Nat.mod_eq_of_lt (by omega)]

theorem crcCall_eq (index : Byte) (value : BitVec 16) : crcCall index value =
    .program (inFlashOffset index + 32) [value.extractLsb' 0 8, value.extractLsb' 8 8] := by
  rw [crcCall, crcSpan, program_spanAt index (by decide) (Nat.zero_le _), Nat.add_zero]

theorem lengthCall_eq (index : Byte) (value : BitVec 32) :
    lengthCall index value = .program (inFlashOffset index) (Redundancy.storeWord value) := by
  rw [lengthCall, lengthSpan, program_spanAt index (by decide) (Nat.zero_le _), Nat.add_zero]

theorem markCall_eq (index : Byte) :
    markCall index = .program (inFlashOffset index + 64) [0xAA] := by
  rw [markCall, isValidSpan, program_spanAt index (by decide) (Nat.zero_le _), Nat.add_zero]

/-! ### Reading -/

section

variable {f g : Flash}

theorem crc_eq (flash : Flash) (index : Byte) :
    crc flash index = flash (inFlashOffset index + 33) ++ flash (inFlashOffset index + 32) := by
  rw [crc, crcSpan, baseOffset_spanAt index (by decide)]

theorem length_eq (flash : Flash) (index : Byte) :
    length flash index = Redundancy.loadWord (flash (inFlashOffset index))
      (flash (inFlashOffset index + 1)) (flash (inFlashOffset index + 2))
      (flash (inFlashOffset index + 3)) := by
  rw [length, lengthSpan, baseOffset_spanAt index (by decide), Nat.add_zero]

theorem crc_congr (h : ∀ a ∈ Set.Ico (inFlashOffset index + 32) (inFlashOffset index + 34), f a = g a) :
    crc f index = crc g index := by
  rw [crc_eq, crc_eq, h _ ⟨by omega, by omega⟩, h _ ⟨by omega, by omega⟩]

theorem length_congr (h : ∀ a ∈ Set.Ico (inFlashOffset index) (inFlashOffset index + 4), f a = g a) :
    length f index = length g index := by
  rw [length_eq, length_eq, h _ ⟨by omega, by omega⟩, h _ ⟨by omega, by omega⟩,
    h _ ⟨by omega, by omega⟩, h _ ⟨by omega, by omega⟩]

/-- The CRC of the content reads no other bytes. -/
theorem contentCrc_congr {length : BitVec 32}
    (h : ∀ a, inFlashOffset index + 1024 ≤ a → a < inFlashOffset index + 1024 + length.toNat →
      f a = g a) : contentCrc f index length = contentCrc g index length := by
  have hbytes : (f.span (inFlashOffset index + 1024) length.toNat).bytes =
      (g.span (inFlashOffset index + 1024) length.toNat).bytes := by
    refine List.map_congr_left fun k hk => h _ (Nat.le_add_right _ _) ?_
    exact Nat.add_lt_add_left (List.mem_range.1 hk) _
  rw [contentCrc, contentCrc, programSpan, baseOffset_spanAt index le_rfl, hbytes]

end

/-! ### Programming the fields -/

theorem setCrc_confined (index : Byte) (value : BitVec 16) :
    Confined (Set.Ico (inFlashOffset index + 32) (inFlashOffset index + 32 + 2)) d
      (setCrc index answers value d).2 := by
  rw [setCrc, crcCall_eq]
  exact Confined.program rfl (fits index (by decide))

theorem setLength_confined (index : Byte) (value : BitVec 32) :
    Confined (Set.Ico (inFlashOffset index) (inFlashOffset index + 4)) d
      (setLength index answers value d).2 := by
  rw [setLength, lengthCall_eq]
  exact Confined.program rfl (fits_length index)

theorem markAsValid_confined (index : Byte) :
    Confined (Set.Ico (inFlashOffset index + 64) (inFlashOffset index + 64 + 1)) d
      (markAsValid index answers d).2 := by
  rw [markAsValid, markCall_eq]
  exact Confined.program rfl (fits index (by decide))

/-- **The CRC over an older one**. -/
theorem crc_setCrc {value : BitVec 16} (hs : (answers (crcCall index value)).status = .notBusy) :
    crc (setCrc index answers value d).2.flash index = crc d.flash index &&& value := by
  rw [crcCall_eq] at hs
  have hbyte := fun i => @perform_program d answers _ 2 _ hs rfl (fits index (by decide)) i
  rw [crc_eq, crc_eq, setCrc, crcCall_eq]
  have h0 := hbyte 0 (by decide)
  have h1 := hbyte 1 (by decide)
  rw [Nat.add_zero] at h0
  rw [Nat.add_assoc] at h1
  rw [h0, h1, ← BitVec.and_append]
  congr 1
  exact BitVec.extractLsb'_append_extractLsb'

/-- **The length over an older one**. -/
theorem length_setLength {value : BitVec 32}
    (hs : (answers (lengthCall index value)).status = .notBusy) :
    length (setLength index answers value d).2.flash index = length d.flash index &&& value := by
  rw [lengthCall_eq] at hs
  have hbyte := fun i => @perform_program d answers _ 4 _ hs rfl (fits_length index) i
  rw [length_eq, length_eq, setLength, lengthCall_eq]
  have h0 := hbyte 0 (by decide)
  rw [Nat.add_zero] at h0
  rw [h0, hbyte 1 (by decide), hbyte 2 (by decide), hbyte 3 (by decide)]
  unfold Redundancy.loadWord
  rw [← BitVec.and_append, ← BitVec.and_append, ← BitVec.and_append]
  congr 1
  exact Redundancy.loadWord_storeWord value

/-! ### The description -/

/-- The calls that program a description, up to its NUL character. -/
def descriptionCalls (index : Byte) : List Byte → ℕ → List FlashCall
  | [], _ => []
  | c :: cs, offset =>
    (descriptionSpan index).program offset [c] ::
      if c = 0 then [] else descriptionCalls index cs (offset + 1)

theorem setDescription_confined (index : Byte) (cs : List Byte) {offset : ℕ}
    (h : 128 + offset + cs.length ≤ size) (d : FlashDriver) :
    Confined (Set.Ico (inFlashOffset index + 128 + offset)
        (inFlashOffset index + 128 + offset + cs.length)) d
      (setDescription index answers cs offset d).2 := by
  induction cs generalizing offset d with
  | nil => exact Confined.refl d
  | cons c cs ih =>
    rw [List.length_cons] at h ⊢
    have hcall : Confined (Set.Ico (inFlashOffset index + 128 + offset)
        (inFlashOffset index + 128 + offset + (cs.length + 1))) d
        (d.perform answers ((descriptionSpan index).program offset [c])).2 := by
      rw [descriptionSpan, program_spanAt index (by decide) (by omega)]
      have hfits := @fits index (128 + offset) 1 (by omega)
      rw [← Nat.add_assoc] at hfits
      exact (Confined.program (List.length_singleton) hfits).mono
        (Set.Ico_subset_Ico_right (by omega))
    rw [setDescription]
    split_ifs with hc hs
    · exact hcall
    · exact hcall
    · exact hcall.trans ((ih (by omega) _).mono (Set.Ico_subset_Ico (by omega) (by omega)))

/-- **The description is programmed** if all its calls succeed. -/
theorem setDescription_notBusy {cs : List Byte} (h : 0 ∈ cs) (offset : ℕ) (d : FlashDriver) :
    ∃ status, (setDescription index answers cs offset d).1 = some status ∧
      (status = .notBusy ↔
        ∀ call ∈ descriptionCalls index cs offset, (answers call).status = .notBusy) := by
  induction cs generalizing offset d with
  | nil => exact absurd h List.not_mem_nil
  | cons c cs ih =>
    rw [setDescription, descriptionCalls, FlashDriver.perform_status]
    by_cases hc : c = 0
    · rw [if_pos hc, if_pos hc]
      exact ⟨_, rfl, by rw [List.forall_mem_singleton]⟩
    rw [if_neg hc, if_neg hc]
    have hmem : 0 ∈ cs := (List.mem_cons.1 h).resolve_left fun heq => hc heq.symm
    by_cases hs : (answers ((descriptionSpan index).program offset [c])).status = .notBusy
    · obtain ⟨status, hstatus, hiff⟩ := ih hmem (offset + 1)
        (d.perform answers ((descriptionSpan index).program offset [c])).2
      refine ⟨status, ?_, ?_⟩
      · rw [if_neg (not_not.2 hs)]
        exact hstatus
      · rw [List.forall_mem_cons, hiff]
        exact (and_iff_right hs).symm
    · -- the first call that fails is the last one made
      refine ⟨_, by rw [if_pos hs], ?_⟩
      rw [List.forall_mem_cons]
      exact ⟨fun h => absurd h hs, fun h => absurd h.1 hs⟩

/-- **What is programmed** into an erased field: the characters before the first NUL character, and
that one. -/
theorem setDescription_flash (index : Byte) {cs : List Byte} (h : 0 ∈ cs) (offset : ℕ)
    (hfits : 128 + offset + cs.length ≤ size) {d : FlashDriver}
    (hs : ∀ call ∈ descriptionCalls index cs offset, (answers call).status = .notBusy)
    (herased : ∀ k < cs.length, d.flash (inFlashOffset index + (128 + offset) + k) = 0xFF) :
    ∀ k ≤ (cs.takeWhile (· ≠ 0)).length,
      (setDescription index answers cs offset d).2.flash (inFlashOffset index + (128 + offset) + k) =
        (cs.takeWhile (· ≠ 0)).getD k 0 := by
  induction cs generalizing offset d with
  | nil => exact absurd h List.not_mem_nil
  | cons c cs ih =>
    rw [List.length_cons] at hfits herased
    rw [descriptionCalls, List.forall_mem_cons] at hs
    have hcall : (descriptionSpan index).program offset [c] =
        .program (inFlashOffset index + (128 + offset)) [c] := by
      rw [descriptionSpan, program_spanAt index (by decide) (by omega), Nat.add_assoc]
    have hwrap := @fits index (128 + offset) 1 (by omega)
    have hstatus := hs.1
    rw [hcall] at hstatus
    set d' := (d.perform answers ((descriptionSpan index).program offset [c])).2
    have hbyte : d'.flash (inFlashOffset index + (128 + offset) + 0) = c := by
      change (d.perform answers ((descriptionSpan index).program offset [c])).2.flash _ = c
      rw [hcall, perform_program hstatus List.length_singleton hwrap Nat.one_pos, herased 0 (Nat.succ_pos _)]
      exact BitVec.allOnes_and
    rw [setDescription, FlashDriver.perform_status]
    by_cases hc : c = 0
    · -- the NUL character
      rw [if_pos hc, List.takeWhile_cons_of_neg (by simp [hc])]
      intro k hk
      obtain rfl := Nat.le_zero.1 hk
      rw [hbyte, hc]
      rfl
    · have hmem : 0 ∈ cs := (List.mem_cons.1 h).resolve_left fun heq => hc heq.symm
      rw [if_neg hc] at hs
      have htake : (c :: cs).takeWhile (· ≠ 0) = c :: cs.takeWhile (· ≠ 0) :=
        List.takeWhile_cons_of_pos (decide_eq_true hc)
      rw [if_neg hc, if_neg (not_not.2 hs.1), htake]
      have hother : ∀ a, inFlashOffset index + (128 + offset) + 1 ≤ a → d'.flash a = d.flash a := by
        intro a ha
        change (d.perform answers ((descriptionSpan index).program offset [c])).2.flash a = _
        rw [hcall]
        exact (Confined.program List.length_singleton hwrap).flash a fun hin => by have := hin.2; omega
      have hrest := ih hmem (offset + 1) (by omega) hs.2 (d := d') fun k hk => by
        rw [hother _ (by omega), ← herased (k + 1) (by omega)]
        congr 1
        omega
      intro k hk
      cases k with
      | zero =>
        rw [(setDescription_confined index cs (by omega) _).flash _ fun hin => by have := hin.1; omega]
        exact hbyte
      | succ k =>
        rw [List.length_cons, Nat.add_le_add_iff_right] at hk
        rw [List.getD_cons_succ, ← hrest k hk]
        congr 1
        omega

/-! ### Erasing -/

theorem erase_eq (index : Byte) {sectorOffset : ℕ} (h : sectorOffset ≤ size) :
    (entrySpan index).erase sectorOffset = .eraseSector (inFlashOffset index + sectorOffset) := by
  have hle := inFlashOffset_le index
  rw [size] at hle h
  exact congrArg FlashCall.eraseSector (Nat.mod_eq_of_lt (show inFlashOffset index + sectorOffset < _ by omega))

theorem eraseFrom_confined (index : Byte) {left sectorOffset : ℕ}
    (h : sectorOffset + left * Flash.largeSectorSize ≤ size) (d : FlashDriver) :
    Confined (Set.Ico (inFlashOffset index + sectorOffset)
        (inFlashOffset index + sectorOffset + left * Flash.largeSectorSize)) d
      (eraseFrom index answers left sectorOffset d).2 := by
  induction left generalizing sectorOffset d with
  | zero => exact Confined.refl d
  | succ left ih =>
    rw [Nat.succ_mul] at h ⊢
    have hcall : Confined (Set.Ico (inFlashOffset index + sectorOffset)
        (inFlashOffset index + sectorOffset +
          (left * Flash.largeSectorSize + Flash.largeSectorSize))) d
        (d.perform answers ((entrySpan index).erase sectorOffset)).2 := by
      rw [erase_eq index (by omega)]
      refine Confined.perform fun a ha => ?_
      have harea := (FlashCall.touches_iff (fits index (by rw [FlashCall.area]; omega))).1 ha
      rw [FlashCall.area] at harea
      exact ⟨harea.1, by omega⟩
    rw [eraseFrom]
    split_ifs
    · exact hcall
    · exact hcall.trans ((ih (by omega) _).mono (Set.Ico_subset_Ico (by omega) (by omega)))

/-- Erasing goes through if each sector does. -/
theorem eraseFrom_none {left sectorOffset : ℕ} {d : FlashDriver}
    (h : (eraseFrom index answers left sectorOffset d).1 = none) {k : ℕ} (hk : k < left) :
    (answers ((entrySpan index).erase (sectorOffset + k * Flash.largeSectorSize))).status =
      .notBusy := by
  induction left generalizing sectorOffset d k with
  | zero => exact absurd hk (Nat.not_lt_zero k)
  | succ left ih =>
    rw [eraseFrom] at h
    split_ifs at h with hs
    cases k with
    | zero =>
      rw [Nat.zero_mul, Nat.add_zero]
      exact not_not.1 hs
    | succ k =>
      have hnext := ih h (Nat.lt_of_succ_lt_succ hk)
      rwa [Nat.add_assoc, Nat.add_comm Flash.largeSectorSize, ← Nat.succ_mul] at hnext

/-- If each sector can be erased, erasing goes through and leaves all bits set. -/
theorem eraseFrom_erased (index : Byte) {left sectorOffset : ℕ}
    (h : sectorOffset + left * Flash.largeSectorSize ≤ size) (d : FlashDriver)
    (hs : ∀ k < left, (answers ((entrySpan index).erase
      (sectorOffset + k * Flash.largeSectorSize))).status = .notBusy) :
    (eraseFrom index answers left sectorOffset d).1 = none ∧
      ∀ a, inFlashOffset index + sectorOffset ≤ a →
        a < inFlashOffset index + sectorOffset + left * Flash.largeSectorSize →
        (eraseFrom index answers left sectorOffset d).2.flash a = 0xFF := by
  induction left generalizing sectorOffset d with
  | zero => exact ⟨rfl, fun a hle hlt => absurd hlt (by omega)⟩
  | succ left ih =>
    rw [Nat.succ_mul] at h
    have hfirst := hs 0 (Nat.succ_pos left)
    rw [Nat.zero_mul, Nat.add_zero] at hfirst
    have hnextFits : sectorOffset + Flash.largeSectorSize + left * Flash.largeSectorSize ≤ size := by omega
    have hrest := ih hnextFits
      (d.perform answers ((entrySpan index).erase sectorOffset)).2 (by
        intro k hk
        have hnext := hs (k + 1) (Nat.succ_lt_succ hk)
        rwa [Nat.succ_mul, Nat.add_comm (k * _), ← Nat.add_assoc] at hnext)
    rw [eraseFrom, FlashDriver.perform_status, if_neg (not_not.2 hfirst)]
    refine ⟨hrest.1, ?_⟩
    intro a hle hlt
    rw [Nat.succ_mul] at hlt
    rcases Nat.lt_or_ge a (inFlashOffset index + (sectorOffset + Flash.largeSectorSize)) with hin | hbehind
    · -- the first sector, which the calls for the others leave as it is
      have hconf := @eraseFrom_confined answers index left (sectorOffset + Flash.largeSectorSize)
        (by omega) (d.perform answers ((entrySpan index).erase sectorOffset)).2
      rw [hconf.flash a fun hmem => absurd hmem.1 (by omega)]
      change ((entrySpan index).erase sectorOffset).effect _ d.flash a = _
      rw [erase_eq index (by omega)] at hfirst ⊢
      rw [FlashCall.effect_eraseSector hfirst (fits index (by omega)), Flash.eraseSector]
      exact if_pos ⟨hle, by omega⟩
    · exact hrest.2 a hbehind (by omega)

theorem erase_confined (index : Byte) (d : FlashDriver) :
    Confined (slot index) d (erase index answers d).2 := by
  have h := @eraseFrom_confined answers index (size / Flash.largeSectorSize) 0 (by decide) d
  have hsize : size / Flash.largeSectorSize * Flash.largeSectorSize = size := by decide
  rw [hsize, Nat.add_zero] at h
  exact h

/-- **Erasing an entry** that goes through leaves all bits of the slot set; else a sector could
not be erased. -/
theorem erase_cases (index : Byte) (d : FlashDriver) :
    ((erase index answers d).1 = none ∧
        (∀ k < size / Flash.largeSectorSize,
          (answers (.eraseSector (inFlashOffset index + k * Flash.largeSectorSize))).status = .notBusy) ∧
        ∀ a ∈ slot index, (erase index answers d).2.flash a = 0xFF) ∨
      (∃ status offset, (erase index answers d).1 = some (status, offset)) ∧
        ∃ k < size / Flash.largeSectorSize,
          (answers (.eraseSector (inFlashOffset index + k * Flash.largeSectorSize))).status ≠ .notBusy := by
  have hsize : size / Flash.largeSectorSize * Flash.largeSectorSize = size := by decide
  have hcall : ∀ k < size / Flash.largeSectorSize,
      (entrySpan index).erase (0 + k * Flash.largeSectorSize) =
        .eraseSector (inFlashOffset index + k * Flash.largeSectorSize) := by
    intro k hk
    have hle := Nat.mul_le_mul_right Flash.largeSectorSize hk.le
    rw [Nat.zero_add, erase_eq index (hsize ▸ hle)]
  by_cases hs : ∀ k < size / Flash.largeSectorSize,
      (answers (.eraseSector (inFlashOffset index + k * Flash.largeSectorSize))).status = .notBusy
  · left
    have h := @eraseFrom_erased answers index (size / Flash.largeSectorSize) 0 (by decide) d (by
      intro k hk
      rw [hcall k hk]
      exact hs k hk)
    rw [hsize, Nat.add_zero] at h
    exact ⟨h.1, hs, fun a ha => h.2 a ha.1 ha.2⟩
  · right
    refine ⟨?_, by simpa using hs⟩
    rcases he : (erase index answers d).1 with _ | ⟨status, offset⟩
    · refine absurd ?_ hs
      intro k hk
      have hk' := eraseFrom_none he hk
      rwa [hcall k hk] at hk'
    · exact ⟨status, offset, rfl⟩

/-- **Erasing an entry** fails in its first sector, or its marker is gone. -/
theorem erase_first (index : Byte) (d : FlashDriver) :
    ((answers ((entrySpan index).erase 0)).status ≠ .notBusy ∧
        (erase index answers d).2 = (d.perform answers ((entrySpan index).erase 0)).2) ∨
      (answers ((entrySpan index).erase 0)).status = .notBusy ∧
        (erase index answers d).2.flash (inFlashOffset index + 64) = 0xFF := by
  have hsectors : size / Flash.largeSectorSize = 7 + 1 := by decide
  rw [erase, hsectors, eraseFrom, FlashDriver.perform_status]
  by_cases hs : (answers ((entrySpan index).erase 0)).status = .notBusy
  · rw [if_neg (not_not.2 hs)]
    refine Or.inr ⟨hs, ?_⟩
    -- the other sectors are behind the marker
    have hrest := @eraseFrom_confined answers index 7 (0 + Flash.largeSectorSize) (by decide)
      (d.perform answers ((entrySpan index).erase 0)).2
    rw [hrest.flash _ fun hmem => by
      have := hmem.1
      rw [Flash.largeSectorSize] at this
      omega]
    change ((entrySpan index).erase 0).effect _ d.flash _ = _
    have hfits := @fits index 0 Flash.largeSectorSize (by decide)
    rw [erase_eq index (Nat.zero_le _)] at hs ⊢
    rw [FlashCall.effect_eraseSector hs hfits, Flash.eraseSector, Flash.largeSectorSize]
    exact if_pos (by omega)
  · rw [if_pos hs]
    exact Or.inl ⟨hs, rfl⟩

end ProgramEntry

end PWSat2OBC
