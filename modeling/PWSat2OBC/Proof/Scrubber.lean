import PWSat2OBC.Proof.ProgramFlash
import PWSat2OBC.Spec.Scrubber

/-!
# Eight scrubs restore the three slots

`Voted flash slots D f`: in the flash `f` the blocks `D` of the slots hold the majority of
what `flash` held there, and everything else is as in `flash`. A call that gets the lock
adds one block to `D` (`scrubSlots_locked`, `Voted.overwrite`), a call that does not changes nothing, and
eight calls with the lock go through all blocks (`eight_scrubs`).
-/

namespace PWSat2OBC.ProgramScrubber

open Voting ProgramEntry

variable (flash : Flash) (slots : List Byte)

/-- The majority of the slots at an offset in the entry. -/
def majorityAt (i : ℕ) : Byte := vote (slots.map fun t => flash (inFlashOffset t + i))

/-- The majority of a 64 KB block. -/
def majorityBlock (offset : ℕ) : List Byte :=
  (List.range scrubSize).map fun i => majorityAt flash slots (offset + i)

/-- The number of slots whose block at `offset` differs from the majority. -/
def differing (offset : ℕ) : ℕ :=
  slots.countP fun t => flash.block (inFlashOffset t + offset) ≠ majorityBlock flash slots offset

/-- In `f` the blocks `D` of the slots are the majority of `flash`, all the rest is `flash`. -/
structure Voted (D : Finset ℕ) (f : Flash) : Prop where
  inside : ∀ t ∈ slots, ∀ j < 8, ∀ i < scrubSize,
    f (inFlashOffset t + (j * scrubSize + i)) =
      if j ∈ D then majorityAt flash slots (j * scrubSize + i)
      else flash (inFlashOffset t + (j * scrubSize + i))
  outside : ∀ a, (∀ t ∈ slots, a < inFlashOffset t ∨ inFlashOffset t + size ≤ a) → f a = flash a

theorem Voted.nil : Voted flash slots ∅ flash :=
  ⟨fun _ _ _ _ _ _ => by simp, fun _ _ => rfl⟩

theorem length_majorityBlock (offset : ℕ) : (majorityBlock flash slots offset).length = scrubSize := by
  simp [majorityBlock]

/-! ## One call -/

/-- Blocks at one offset of different entries do not meet. -/
theorem entries_disjoint {t u : Byte} (h : t ≠ u) (offset : ℕ) :
    inFlashOffset t + offset + size ≤ inFlashOffset u + offset ∨
      inFlashOffset u + offset + size ≤ inFlashOffset t + offset := by
  have hne : t.toNat ≠ u.toNat := fun he => h (BitVec.eq_of_toNat_eq he)
  unfold inFlashOffset size
  omega

theorem rewrite_eq (f : Flash) (n : BitVec 32) (offset : ℕ) (t : Byte) {buffer : List Byte}
    (hbuf : buffer.length = scrubSize)
    (hf : f.block (inFlashOffset t + offset) = flash.block (inFlashOffset t + offset)) :
    rewrite offset buffer (f, n) (t, flash.block (inFlashOffset t + offset) == buffer) =
      (f.overwrite (inFlashOffset t + offset) buffer,
        n + BitVec.ofNat 32 (if flash.block (inFlashOffset t + offset) ≠ buffer then 1 else 0)) := by
  unfold rewrite
  by_cases h : flash.block (inFlashOffset t + offset) = buffer
  · rw [f.overwrite_self (hf.trans h)]
    simp [h]
  · simp [h, f.program_eraseSector _ hbuf]

/-- The loop over the entries overwrites their blocks and counts the differing ones. -/
theorem foldl_rewrite (offset : ℕ) {buffer : List Byte} (hbuf : buffer.length = scrubSize)
    (hnd : slots.Nodup) (f : Flash) (n : BitVec 32)
    (hf : ∀ t ∈ slots, f.block (inFlashOffset t + offset) = flash.block (inFlashOffset t + offset)) :
    (slots.zip (slots.map fun t => flash.block (inFlashOffset t + offset) == buffer)).foldl
        (rewrite offset buffer) (f, n) =
      (slots.foldl (fun f t => f.overwrite (inFlashOffset t + offset) buffer) f,
        n + BitVec.ofNat 32 (slots.countP fun t => flash.block (inFlashOffset t + offset) ≠ buffer)) := by
  induction slots generalizing f n with
  | nil => simp
  | cons t slots ih =>
    obtain ⟨ht, hnd⟩ := List.nodup_cons.1 hnd
    rw [List.map_cons, List.zip_cons_cons, List.foldl_cons,
      rewrite_eq flash f n offset t hbuf (hf t List.mem_cons_self), ih hnd, List.foldl_cons,
      List.countP_cons, BitVec.add_assoc, ← BitVec.ofNat_add]
    · simp only [decide_eq_true_eq, Nat.add_comm (List.countP _ _)]
    · intro u hu
      have hne : t ≠ u := by rintro rfl; exact ht hu
      rw [f.block_overwrite_of_disjoint, hf u (List.mem_cons_of_mem t hu)]
      have := entries_disjoint hne offset
      unfold size at this
      unfold Flash.largeSectorSize
      omega

/-- Nothing else changes. -/
theorem foldl_overwrite_of_not_mem (offset : ℕ) (buffer : List Byte) (f : Flash) {a : ℕ}
    (h : ∀ t ∈ slots, a < inFlashOffset t + offset ∨ inFlashOffset t + offset + scrubSize ≤ a) :
    slots.foldl (fun f t => f.overwrite (inFlashOffset t + offset) buffer) f a = f a := by
  induction slots generalizing f with
  | nil => rfl
  | cons t slots ih =>
    rw [List.foldl_cons, ih _ fun u hu => h u (List.mem_cons_of_mem t hu)]
    exact f.overwrite_of_not_mem (h t List.mem_cons_self)

/-- The overwritten blocks hold the buffer. -/
theorem foldl_overwrite_of_mem (offset : ℕ) (buffer : List Byte) (f : Flash) {t : Byte}
    (ht : t ∈ slots) {i : ℕ} (hi : i < scrubSize) :
    slots.foldl (fun f t => f.overwrite (inFlashOffset t + offset) buffer) f
      (inFlashOffset t + offset + i) = buffer.getD i 0 := by
  induction slots generalizing f with
  | nil => exact absurd ht List.not_mem_nil
  | cons u slots ih =>
    rw [List.foldl_cons]
    by_cases hmem : t ∈ slots
    · exact ih _ hmem
    obtain rfl : t = u := (List.mem_cons.1 ht).resolve_right hmem
    rw [foldl_overwrite_of_not_mem, f.overwrite_of_mem hi]
    intro v hv
    have hne : t ≠ v := by rintro rfl; exact hmem hv
    have := entries_disjoint hne offset
    unfold size at this
    unfold scrubSize Flash.largeSectorSize at *
    omega

/-- What the constructor and the calls keep of the scrubber. -/
structure OK (s : ProgramScrubber) : Prop where
  buffer : s.buffer.length = scrubSize
  offset : ∃ k < 8, s.offset = k * scrubSize

theorem subspan_wholeEntry (t : Byte) {offset : ℕ} (h : offset + scrubSize ≤ size) :
    ((wholeEntry flash t).subspan offset scrubSize) =
      ⟨Flash.flashBase + inFlashOffset t + offset, flash.block (inFlashOffset t + offset)⟩ := by
  simp only [wholeEntry, Flash.span, Span.subspan, Flash.block, Span.mk.injEq, true_and]
  apply List.ext_getElem
  · unfold scrubSize at *; simp; omega
  · intro i h1 h2
    simp [Nat.add_assoc]

/-- The mapped address of a block is aligned. -/
theorem block_aligned (t : Byte) {offset : ℕ} (h : offset % 4 = 0) :
    (Flash.flashBase + inFlashOffset t + offset) % 4 = 0 := by
  unfold Flash.flashBase inFlashOffset size
  omega

/-- The vote of three blocks is accepted and yields their majority. -/
theorem correctBufferTo_blocks (out : Span) (hout : out.length = scrubSize) {offset : ℕ}
    (h4 : offset % 4 = 0) (hlen : slots.length = 3) :
    let spans := slots.map fun t => (⟨Flash.flashBase + inFlashOffset t + offset,
      flash.block (inFlashOffset t + offset)⟩ : Span)
    (Redundancy.correctBufferTo out (spans.getD 0 ⟨0, []⟩) (spans.getD 1 ⟨0, []⟩)
      (spans.getD 2 ⟨0, []⟩)).2 = majorityBlock flash slots offset := by
  match slots, hlen with
  | [a, b, c], _ =>
    simp only [List.map_cons, List.map_nil, List.getD_cons_zero, List.getD_cons_succ, Flash.block]
    rw [Redundancy.correctBufferTo_map _ _ _ _ out (by rw [hout, List.length_range]; rfl)
      (by rw [List.length_range]; rfl) (block_aligned a h4) (block_aligned b h4) (block_aligned c h4)]
    simp only [majorityBlock, majorityAt, List.map_cons, List.map_nil, vote_three, Nat.add_assoc]
    rfl

/-- **A call with the lock** overwrites the block at the offset with the majority in the
three slots and moves on. -/
theorem scrubSlots_locked {s : ProgramScrubber} (hs : s.OK)
    (h3 : popcount (s.slotsMask &&& 0b00111111) = 3) :
    let slots := decodeSlotsMask s.slotsMask
    let buffer := majorityBlock flash slots s.offset
    scrubSlots flash s true =
      (slots.foldl (fun f t => f.overwrite (inFlashOffset t + s.offset) buffer) flash,
        { s with
          buffer
          offset := if scrubAreaSize ≤ s.offset + scrubSize then 0 else s.offset + scrubSize
          slotsCorrected := s.slotsCorrected + BitVec.ofNat 32 (differing flash slots s.offset)
          iterationsCount := s.iterationsCount + 1
          inProgress := false }) := by
  intro slots buffer
  obtain ⟨k, hk, hoff⟩ := hs.offset
  have hle : s.offset + scrubSize ≤ size := by
    rw [hoff]; unfold scrubSize Flash.largeSectorSize size; omega
  have h4 : s.offset % 4 = 0 := by rw [hoff]; unfold scrubSize Flash.largeSectorSize; omega
  have hnd : slots.Nodup := BootTable.nodup_selectEntries h3
  have hlen : slots.length = 3 := BootTable.length_selectEntries h3
  have hspans : (slots.map fun slot => (wholeEntry flash slot).subspan s.offset scrubSize) =
      slots.map fun t => ⟨Flash.flashBase + inFlashOffset t + s.offset,
        flash.block (inFlashOffset t + s.offset)⟩ :=
    List.map_congr_left fun t _ => subspan_wholeEntry flash t hle
  have hvote := correctBufferTo_blocks flash slots ⟨s.bufferAddr, s.buffer⟩ hs.buffer h4 hlen
  have hloop := foldl_rewrite flash slots s.offset (length_majorityBlock flash slots s.offset) hnd flash
    s.slotsCorrected fun _ _ => rfl
  simp only [scrubSlots, Bool.not_true, Bool.false_eq_true, if_false]
  rw [show decodeSlotsMask s.slotsMask = slots from rfl, hspans, hvote, List.map_map]
  simp only [Function.comp_def]
  rw [hloop]
  rfl

/-- **A call without the lock** changes nothing. -/
theorem scrubSlots_unlocked (s : ProgramScrubber) : scrubSlots flash s false = (flash, s) := rfl

/-! ## Progress -/

theorem majorityBlock_congr {f g : Flash} {offset : ℕ}
    (h : ∀ t ∈ slots, ∀ i < scrubSize, f (inFlashOffset t + (offset + i)) = g (inFlashOffset t + (offset + i))) :
    majorityBlock f slots offset = majorityBlock g slots offset := by
  refine List.map_congr_left fun i hi => ?_
  unfold majorityAt
  rw [List.map_congr_left fun t ht => h t ht i (List.mem_range.1 hi)]

theorem getD_majorityBlock (offset : ℕ) {i : ℕ} (hi : i < scrubSize) :
    (majorityBlock flash slots offset).getD i 0 = majorityAt flash slots (offset + i) := by
  rw [majorityBlock, List.getD_eq_getElem?_getD, List.getElem?_map, List.getElem?_range hi]
  rfl

variable {flash slots}

/-- A block not voted yet holds what it held at the start. -/
theorem Voted.untouched {D : Finset ℕ} {f : Flash} (h : Voted flash slots D f) {k : ℕ} (hk : k < 8)
    (hD : k ∉ D) {t : Byte} (ht : t ∈ slots) {i : ℕ} (hi : i < scrubSize) :
    f (inFlashOffset t + (k * scrubSize + i)) = flash (inFlashOffset t + (k * scrubSize + i)) := by
  rw [h.inside t ht k hk i hi, if_neg hD]

theorem Voted.differing_eq {D : Finset ℕ} {f : Flash} (h : Voted flash slots D f) {k : ℕ} (hk : k < 8)
    (hD : k ∉ D) : differing f slots (k * scrubSize) = differing flash slots (k * scrubSize) := by
  unfold differing
  rw [majorityBlock_congr slots fun t ht i hi => h.untouched hk hD ht hi]
  refine List.countP_congr fun t ht => ?_
  have hb : f.block (inFlashOffset t + k * scrubSize) = flash.block (inFlashOffset t + k * scrubSize) := by
    refine List.map_congr_left fun i hi => ?_
    rw [Nat.add_assoc]
    exact h.untouched hk hD ht (List.mem_range.1 hi)
  rw [hb]

/-- **One more block voted.** -/
theorem Voted.overwrite {D : Finset ℕ} {f : Flash} (h : Voted flash slots D f) {k : ℕ} (hk : k < 8)
    (hD : k ∉ D) :
    Voted flash slots (insert k D) (slots.foldl
      (fun g t => g.overwrite (inFlashOffset t + k * scrubSize) (majorityBlock f slots (k * scrubSize))) f) := by
  have hvote := majorityBlock_congr slots fun t ht i hi => h.untouched hk hD ht (i := i) hi
  constructor
  · intro t ht j hj i hi
    by_cases hjk : j = k
    · subst hjk
      rw [if_pos (Finset.mem_insert_self j D), ← Nat.add_assoc,
        foldl_overwrite_of_mem slots (j * scrubSize) _ f ht hi, hvote, getD_majorityBlock _ _ _ hi]
    · -- another block, of this slot or of another one
      rw [foldl_overwrite_of_not_mem, h.inside t ht j hj i hi]
      · simp only [Finset.mem_insert, hjk, false_or]
      · intro u hu
        unfold scrubSize Flash.largeSectorSize at *
        by_cases htu : t = u
        · subst htu; omega
        · have := entries_disjoint htu 0
          unfold size at this
          omega
  · intro a ha
    rw [foldl_overwrite_of_not_mem, h.outside a ha]
    intro t ht
    have := ha t ht
    unfold scrubSize Flash.largeSectorSize size at *
    omega

/-- The blocks the next `n` calls with the lock go through, from block `k` on. -/
def upcoming (k n : ℕ) : Finset ℕ := (Finset.range n).image fun i => (k + i) % 8

theorem upcoming_succ (k n : ℕ) : upcoming k (n + 1) = insert ((k + n) % 8) (upcoming k n) := by
  rw [upcoming, Finset.range_add_one, Finset.image_insert]; rfl

theorem next_not_mem_upcoming {k n : ℕ} (hn : n < 8) : (k + n) % 8 ∉ upcoming k n := by
  simp only [upcoming, Finset.mem_image, Finset.mem_range, not_exists, not_and]
  omega

theorem mem_upcoming_eight {k j : ℕ} (hj : j < 8) : j ∈ upcoming k 8 := by
  simp only [upcoming, Finset.mem_image, Finset.mem_range]
  exact ⟨(j + 8 - k % 8) % 8, by omega, by omega⟩

/-- The sum over eight calls is the sum over all blocks. -/
theorem sum_upcoming (g : ℕ → ℕ) (k : ℕ) :
    ∑ i ∈ Finset.range 8, g ((k + i) % 8) = ∑ j ∈ Finset.range 8, g j := by
  refine Finset.sum_bij (fun i _ => (k + i) % 8) ?_ ?_ ?_ fun _ _ => rfl
  · intro i _
    exact Finset.mem_range.2 (Nat.mod_lt _ (by omega))
  · intro i hi j hj h
    rw [Finset.mem_range] at hi hj
    omega
  · intro j hj
    rw [Finset.mem_range] at hj
    exact ⟨(j + 8 - k % 8) % 8, Finset.mem_range.2 (by omega), by omega⟩

/-! ## Runs -/

/-- The state after calls of which `n ≤ 8` got the lock, started at block `k`. -/
structure Progress (flash : Flash) (s : ProgramScrubber) (k n : ℕ) (st : Flash × ProgramScrubber) : Prop where
  voted : Voted flash (decodeSlotsMask s.slotsMask) (upcoming k n) st.1
  ok : st.2.OK
  slotsMask : st.2.slotsMask = s.slotsMask
  offset : st.2.offset = (k + n) % 8 * scrubSize
  slotsCorrected : st.2.slotsCorrected = s.slotsCorrected + BitVec.ofNat 32
    (∑ i ∈ Finset.range n, differing flash (decodeSlotsMask s.slotsMask) ((k + i) % 8 * scrubSize))

theorem Progress.step {s : ProgramScrubber} (h3 : popcount (s.slotsMask &&& 0b00111111) = 3) {k n : ℕ}
    (hn : n < 8) {st : Flash × ProgramScrubber} (h : Progress flash s k n st) :
    Progress flash s k (n + 1) (scrubSlots st.1 st.2 true) := by
  obtain ⟨f, s'⟩ := st
  obtain ⟨hv, hok, hmask, hoff, hcorr⟩ := h
  simp only at hv hok hmask hoff hcorr
  have hlt : (k + n) % 8 < 8 := Nat.mod_lt _ (by omega)
  -- the offset goes on to the next of the eight blocks
  have hoff' : (if scrubAreaSize ≤ (k + n) % 8 * scrubSize + scrubSize then 0
      else (k + n) % 8 * scrubSize + scrubSize) = (k + (n + 1)) % 8 * scrubSize := by
    unfold scrubAreaSize size scrubSize Flash.largeSectorSize
    split_ifs <;> omega
  have hlocked := scrubSlots_locked f hok (by rw [hmask]; exact h3)
  simp only [hmask, hoff] at hlocked
  rw [hlocked, hoff']
  have hnext := next_not_mem_upcoming (k := k) hn
  constructor
  · rw [upcoming_succ]
    exact hv.overwrite hlt hnext
  · refine ⟨?_, (k + (n + 1)) % 8, Nat.mod_lt _ (by omega), rfl⟩
    simp only [length_majorityBlock]
  · rfl
  · rfl
  · simp only
    rw [hcorr, hv.differing_eq hlt hnext, Finset.sum_range_succ, BitVec.ofNat_add, BitVec.add_assoc]

theorem Progress.run {s : ProgramScrubber} (h3 : popcount (s.slotsMask &&& 0b00111111) = 3) {k : ℕ}
    (locks : List Bool) {n : ℕ} (hn : n + locks.count true ≤ 8) {st : Flash × ProgramScrubber}
    (h : Progress flash s k n st) :
    Progress flash s k (n + locks.count true)
      (locks.foldl (fun st locked => scrubSlots st.1 st.2 locked) st) := by
  induction locks generalizing n st with
  | nil => exact h
  | cons locked locks ih =>
    rw [List.foldl_cons]
    cases locked with
    | false =>
      rw [scrubSlots_unlocked, List.count_cons_of_ne (by decide)]
      rw [List.count_cons_of_ne (by decide)] at hn
      exact ih hn h
    | true =>
      rw [List.count_cons_self] at hn ⊢
      rw [← Nat.add_assoc, Nat.add_right_comm]
      exact ih (by omega) (h.step h3 (by omega))

/-- The scrubbers there can be: made by the constructor, and used on any flash. -/
inductive Reachable : ProgramScrubber → Prop
  | init (bufferAddr : ℕ) {buffer : List Byte} (h : buffer.length = scrubSize) (slotsMask : Byte) :
    Reachable (init bufferAddr buffer slotsMask)
  | scrub {s : ProgramScrubber} (flash : Flash) (locked : Bool) : Reachable s →
    Reachable (scrubSlots flash s locked).2

theorem slotsMask_scrubSlots (f : Flash) (s : ProgramScrubber) (locked : Bool) :
    (scrubSlots f s locked).2.slotsMask = s.slotsMask := by
  cases locked with
  | false => rfl
  | true => simp only [scrubSlots, Bool.not_true, Bool.false_eq_true, if_false]

theorem OK.scrubSlots {s : ProgramScrubber} (hs : s.OK)
    (h3 : popcount (s.slotsMask &&& 0b00111111) = 3) (f : Flash) (locked : Bool) :
    (scrubSlots f s locked).2.OK := by
  cases locked with
  | false => exact hs
  | true =>
    obtain ⟨k, hk, hoff⟩ := hs.offset
    rw [scrubSlots_locked f hs h3]
    refine ⟨?_, (k + 1) % 8, Nat.mod_lt _ (by omega), ?_⟩
    · simp only [length_majorityBlock]
    · simp only [hoff]
      unfold scrubAreaSize size scrubSize Flash.largeSectorSize
      split_ifs <;> omega

theorem Reachable.ok {s : ProgramScrubber} (h : Reachable s)
    (h3 : popcount (s.slotsMask &&& 0b00111111) = 3) : s.OK := by
  induction h with
  | init bufferAddr h slotsMask => exact ⟨h, 0, by omega, by rw [Nat.zero_mul]; rfl⟩
  | scrub f locked h ih =>
    rw [slotsMask_scrubSlots] at h3
    exact (ih h3).scrubSlots h3 f locked

/-- **Eight scrubs with the lock restore the slots**, however the calls without it fall in
between: the three slots of the mask hold the majority, nothing else has changed, the offset is
back where it was, and the counter has grown by the number of blocks that differed. -/
theorem eight_scrubs (flash : Flash) {s : ProgramScrubber} (hs : Reachable s)
    (h3 : popcount (s.slotsMask &&& 0b00111111) = 3) (locks : List Bool) (h8 : locks.count true = 8) :
    let slots := decodeSlotsMask s.slotsMask
    let r := scrubAll flash s locks
    (slots.length = 3 ∧ slots.Nodup ∧ ∀ t, t ∈ slots ↔ t.toNat < 6 ∧ s.slotsMask.getLsbD t.toNat = true) ∧
    (∀ t ∈ slots, ∀ i < size, r.1 (inFlashOffset t + i) = majorityAt flash slots i) ∧
    (∀ a, (∀ t ∈ slots, a < inFlashOffset t ∨ inFlashOffset t + size ≤ a) → r.1 a = flash a) ∧
    r.2.offset = s.offset ∧
    r.2.slotsCorrected = s.slotsCorrected +
      BitVec.ofNat 32 (∑ j ∈ Finset.range 8, differing flash slots (j * scrubSize)) := by
  obtain ⟨k, hk, hoff⟩ := (hs.ok h3).offset
  have hstart : Progress flash s k 0 (flash, s) :=
    { voted := Voted.nil flash _
      ok := hs.ok h3
      slotsMask := rfl
      offset := by rw [hoff, Nat.add_zero, Nat.mod_eq_of_lt hk]
      slotsCorrected := by simp }
  have hend : Progress flash s k 8 (scrubAll flash s locks) := by
    have h := hstart.run h3 locks (by omega)
    rwa [h8, Nat.zero_add] at h
  refine ⟨⟨BootTable.length_selectEntries h3, BootTable.nodup_selectEntries h3, BootTable.mem_selectEntries h3⟩,
    fun t ht i hi => ?_, hend.voted.outside, ?_, ?_⟩
  · have hdiv : i / scrubSize < 8 := by
      unfold size at hi; unfold scrubSize Flash.largeSectorSize; omega
    have hmod : i % scrubSize < scrubSize := Nat.mod_lt _ (by decide)
    have hsplit : i / scrubSize * scrubSize + i % scrubSize = i := Nat.div_add_mod' i scrubSize
    have hin := hend.voted.inside t ht _ hdiv _ hmod
    rwa [if_pos (mem_upcoming_eight hdiv), hsplit] at hin
  · rw [hend.offset, hoff, Nat.add_mod_right, Nat.mod_eq_of_lt hk]
  · rw [hend.slotsCorrected, sum_upcoming fun j => differing flash _ (j * scrubSize)]

/-- A scrubber of slots 0, 1 and 2 as the constructor makes it. -/
def freshScrubber : ProgramScrubber := init 1024 (List.replicate scrubSize 0) 0b111

theorem reachable_freshScrubber : Reachable freshScrubber := .init 1024 List.length_replicate 0b111

/-- Nine calls of a fresh scrubber, one of them without the lock. -/
theorem eight_scrubs_fresh :
    (∀ t ∈ decodeSlotsMask freshScrubber.slotsMask, ∀ i < size,
      (scrubAll (fun a => if a < 100 then 1 else 3) freshScrubber
        [true, true, false, true, true, true, true, true, true]).1 (inFlashOffset t + i) =
          majorityAt (fun a => if a < 100 then 1 else 3) (decodeSlotsMask freshScrubber.slotsMask) i) ∧
      (scrubAll (fun a => if a < 100 then 1 else 3) freshScrubber
        [true, true, false, true, true, true, true, true, true]).2.offset = freshScrubber.offset := by
  have h3 : popcount (freshScrubber.slotsMask &&& 0b00111111) = 3 := by
    show popcount (0b111 &&& 0b00111111) = 3
    decide
  have h := eight_scrubs (fun a => if a < 100 then 1 else 3) reachable_freshScrubber h3
    [true, true, false, true, true, true, true, true, true] (by decide)
  exact ⟨h.2.1, h.2.2.2.1⟩

end PWSat2OBC.ProgramScrubber
