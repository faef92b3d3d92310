import PWSat2OBC.Proof.Redundancy
import PWSat2OBC.Proof.Writer
import PWSat2OBC.Spec.Reader

/-!
# What a reader has ahead of it

`At r xs`: the reader is valid and `xs` are the bytes it has not read yet. Every
operation that is covered by these bytes returns the value they hold and goes on behind
them. `Holds` says the same of a writer, so a value survives a write and a read.

`Consumed r xs k`: the reader of `xs` was asked for `k` bytes, whether they were there or not.
A reader that is asked for more than it has reads zeros and remembers it in its status.
-/

namespace PWSat2OBC

namespace Reader

structure At (r : Reader) (ahead : List Byte) : Prop where
  isValid : r.isValid = true
  small : r.buffer.length < 2 ^ 16
  position : r.position + ahead.length = r.buffer.length
  ahead : r.buffer.drop r.position = ahead

variable {r : Reader} {xs rest : List Byte} {n : ℕ}

theorem at_init (hxs : xs ≠ []) (hs : xs.length < 2 ^ 16) : (init xs).At xs where
  isValid := by simpa [init] using hxs
  small := hs
  position := Nat.zero_add _
  ahead := List.drop_zero

/-- **The common step of the reads**: the reader goes on behind the bytes asked for. -/
theorem At.updateState (h : r.At (xs ++ rest)) (hn : xs.length = n) :
    (r.updateState n).At rest ∧ (r.updateState n).position = r.position + n ∧
      (r.updateState n).buffer = r.buffer := by
  have hpos := h.position
  have hsmall := h.small
  rw [List.length_append, hn] at hpos
  have hle : r.position + n ≤ r.buffer.length := by omega
  have hmod : (r.position + n) % 2 ^ 16 = r.position + n := Nat.mod_eq_of_lt (by omega)
  have heq : r.updateState n = { r with position := r.position + n } := by
    rw [Reader.updateState, if_pos h.isValid, hmod]
    dsimp only
    rw [decide_eq_true hle, ← h.isValid]
  rw [heq]
  refine ⟨⟨h.isValid, hsmall, ?_, ?_⟩, rfl, rfl⟩
  · change r.position + n + rest.length = r.buffer.length
    omega
  · change r.buffer.drop (r.position + n) = rest
    rw [← List.drop_drop, h.ahead, ← hn, List.drop_left]

/-- The bytes asked for, counted back from the new position. -/
theorem At.back (h : r.At (xs ++ rest)) (hn : xs.length = n) {i : ℕ} (h0 : 0 < i) (hi : i ≤ n) :
    (r.updateState n).at' ((r.updateState n).position - i) = xs.getD (n - i) 0 := by
  obtain ⟨-, hpos, hbuf⟩ := h.updateState hn
  have hsub : r.position + n - i = r.position + (n - i) := by omega
  rw [at', hpos, hbuf, List.getD_eq_getElem?_getD, List.getD_eq_getElem?_getD, hsub,
    ← List.getElem?_drop, h.ahead, List.getElem?_append_left (by omega)]

/-! ## One lemma for each read -/

theorem At.readByte {b : Byte} (h : r.At ([b] ++ rest)) :
    r.readByte.1 = b ∧ r.readByte.2.At rest := by
  have hstep := (h.updateState (n := 1) rfl).1
  have hback := @At.back r _ rest 1 h rfl
  refine ⟨?_, hstep⟩
  unfold Reader.readByte
  dsimp only
  rw [if_pos hstep.isValid, hback (by decide) (by decide)]
  rfl

theorem At.readWordLE {word : BitVec 16}
    (h : r.At ([word.extractLsb' 0 8, word.extractLsb' 8 8] ++ rest)) :
    r.readWordLE.1 = word ∧ r.readWordLE.2.At rest := by
  have hstep := (h.updateState (n := 2) rfl).1
  have hback := @At.back r _ rest 2 h rfl
  refine ⟨?_, hstep⟩
  unfold Reader.readWordLE
  dsimp only
  rw [if_pos hstep.isValid, hback (by decide) (by decide), hback (by decide) (by decide)]
  exact BitVec.extractLsb'_append_extractLsb'

theorem At.readDoubleWordLE {word : BitVec 32} (h : r.At (Redundancy.storeWord word ++ rest)) :
    r.readDoubleWordLE.1 = word ∧ r.readDoubleWordLE.2.At rest := by
  have hstep := (h.updateState (n := 4) rfl).1
  have hback := @At.back r _ rest 4 h rfl
  refine ⟨?_, hstep⟩
  unfold Reader.readDoubleWordLE
  dsimp only
  rw [if_pos hstep.isValid, hback (by decide) (by decide), hback (by decide) (by decide),
    hback (by decide) (by decide), hback (by decide) (by decide)]
  exact Redundancy.loadWord_storeWord word

theorem At.readQuadWordLE {word : BitVec 64}
    (h : r.At (((List.range 8).map fun i => word.extractLsb' (8 * i) 8) ++ rest)) :
    r.readQuadWordLE.1 = word ∧ r.readQuadWordLE.2.At rest := by
  have hstep := (h.updateState (n := 8) (by simp)).1
  have hback := fun i => @At.back r _ rest 8 h (by simp) i
  refine ⟨?_, hstep⟩
  unfold Reader.readQuadWordLE
  dsimp only
  rw [if_pos hstep.isValid, hback 1 (by decide) (by decide), hback 2 (by decide) (by decide),
    hback 3 (by decide) (by decide), hback 4 (by decide) (by decide),
    hback 5 (by decide) (by decide), hback 6 (by decide) (by decide),
    hback 7 (by decide) (by decide), hback 8 (by decide) (by decide)]
  -- the eight bytes, highest first
  change word.extractLsb' 56 8 ++ (word.extractLsb' 48 8 ++ (word.extractLsb' 40 8 ++
    (word.extractLsb' 32 8 ++ (word.extractLsb' 24 8 ++ (word.extractLsb' 16 8 ++
      (word.extractLsb' 8 8 ++ word.extractLsb' 0 8)))))) = word
  rw [BitVec.extractLsb'_append_extractLsb'_eq_extractLsb' (show 8 = 0 + 8 from rfl),
    BitVec.extractLsb'_append_extractLsb'_eq_extractLsb' (show 16 = 0 + (8 + 8) from rfl),
    BitVec.extractLsb'_append_extractLsb'_eq_extractLsb' (show 24 = 0 + (8 + (8 + 8)) from rfl),
    BitVec.extractLsb'_append_extractLsb'_eq_extractLsb' (show 32 = 0 + 32 from rfl),
    BitVec.extractLsb'_append_extractLsb'_eq_extractLsb' (show 40 = 0 + 40 from rfl),
    BitVec.extractLsb'_append_extractLsb'_eq_extractLsb' (show 48 = 0 + 48 from rfl)]
  exact BitVec.extractLsb'_append_extractLsb'

theorem At.readArray (h : r.At (xs ++ rest)) (hn : xs.length = n) :
    (r.readArray n).1 = xs ∧ (r.readArray n).2.At rest := by
  obtain ⟨hstep, hpos, hbuf⟩ := h.updateState hn
  refine ⟨?_, hstep⟩
  unfold Reader.readArray
  dsimp only
  rw [if_pos hstep.isValid, hpos, hbuf, Nat.add_sub_cancel, h.ahead, ← hn, List.take_left]

/-- Everything ahead. -/
theorem At.readToEnd (h : r.At rest) : ∃ r', r.readToEnd = some (rest, r') ∧ r'.At [] := by
  have hposition := h.position
  have hsmall := h.small
  have hremaining : (r.remainingSize % 2 ^ 16).toNat = rest.length := by
    unfold Reader.remainingSize
    omega
  have h' : r.At (rest ++ []) := by rwa [List.append_nil]
  obtain ⟨hstep, hpos, -⟩ := h'.updateState (n := rest.length) rfl
  obtain ⟨hvalue, hrest⟩ := h'.readArray (n := rest.length) rfl
  refine ⟨(r.readArray rest.length).2, ?_, hrest⟩
  unfold Reader.readToEnd
  dsimp only
  rw [hremaining, if_neg (by omega)]
  exact congrArg some (Prod.ext hvalue rfl)

end Reader

/-! ## Readers that run out -/

/-- The reader of `xs` has been asked for `k` bytes. -/
structure Reader.Consumed (r : Reader) (xs : List Byte) (k : ℕ) : Prop where
  buffer : r.buffer = xs
  position : r.isValid = true → r.position = k
  isValid : r.isValid = true ↔ xs ≠ [] ∧ k ≤ xs.length

namespace Reader.Consumed

variable {r : Reader} {xs : List Byte} {k n : ℕ}

theorem init (xs : List Byte) : (Reader.init xs).Consumed xs 0 where
  buffer := rfl
  position _ := rfl
  isValid := by
    unfold Reader.init
    cases xs <;> simp

theorem updateState (h : r.Consumed xs k) (hsmall : k + n < 2 ^ 16) :
    (r.updateState n).Consumed xs (k + n) := by
  by_cases hvalid : r.isValid = true
  · have hposition := h.position hvalid
    have hle := h.isValid.1 hvalid
    have hnext : r.updateState n =
        { r with position := k + n, isValid := decide (k + n ≤ xs.length) } := by
      rw [Reader.updateState, if_pos hvalid, hposition, Nat.mod_eq_of_lt hsmall, h.buffer]
    rw [hnext]
    refine ⟨h.buffer, fun _ => rfl, ?_⟩
    rw [decide_eq_true_iff]
    exact ⟨fun hlt => ⟨hle.1, hlt⟩, fun hlt => hlt.2⟩
  · have hnext : r.updateState n = r := by rw [Reader.updateState, if_neg hvalid]
    rw [hnext]
    refine ⟨h.buffer, fun hv => absurd hv hvalid, fun hv => absurd hv hvalid, ?_⟩
    rintro ⟨hne, hlt⟩
    exact h.isValid.2 ⟨hne, by omega⟩

/-- A reader asked for no more than it has is valid. -/
theorem valid_of_le (h : r.Consumed xs k) (h0 : 0 < k) (hle : k ≤ xs.length) : r.isValid = true := by
  refine h.isValid.2 ⟨?_, hle⟩
  rintro rfl
  rw [List.length_nil] at hle
  omega

/-- A reader asked for more than it has is not valid. -/
theorem status_eq_false (h : r.Consumed xs k) (hlt : xs.length < k) : r.status = false := by
  rw [Reader.status, ← Bool.not_eq_true, h.isValid]
  omega

theorem readByte (h : r.Consumed xs k) (hsmall : k + 1 < 2 ^ 16) :
    r.readByte.1 = if k + 1 ≤ xs.length then xs.getD k 0 else 0 := by
  have hnext := h.updateState hsmall
  unfold Reader.readByte
  dsimp only
  by_cases hlt : k + 1 ≤ xs.length
  · have hvalid := hnext.valid_of_le (by omega) hlt
    rw [if_pos hvalid, if_pos hlt, Reader.at', hnext.buffer, hnext.position hvalid]
    rfl
  · have hvalid : ¬ (r.updateState 1).isValid = true := fun hv => hlt (hnext.isValid.1 hv).2
    rw [if_neg hvalid, if_neg hlt]

theorem readWordLE (h : r.Consumed xs k) (hsmall : k + 2 < 2 ^ 16) :
    r.readWordLE.1 = if k + 2 ≤ xs.length then xs.getD (k + 1) 0 ++ xs.getD k 0 else 0 := by
  have hnext := h.updateState hsmall
  unfold Reader.readWordLE
  dsimp only
  by_cases hlt : k + 2 ≤ xs.length
  · have hvalid := hnext.valid_of_le (by omega) hlt
    rw [if_pos hvalid, if_pos hlt, Reader.at', Reader.at', hnext.buffer, hnext.position hvalid]
    rfl
  · have hvalid : ¬ (r.updateState 2).isValid = true := fun hv => hlt (hnext.isValid.1 hv).2
    rw [if_neg hvalid, if_neg hlt]

theorem readDoubleWordLE (h : r.Consumed xs k) (hsmall : k + 4 < 2 ^ 16) :
    r.readDoubleWordLE.1 = if k + 4 ≤ xs.length then
      Redundancy.loadWord (xs.getD k 0) (xs.getD (k + 1) 0) (xs.getD (k + 2) 0) (xs.getD (k + 3) 0) else 0 := by
  have hnext := h.updateState hsmall
  unfold Reader.readDoubleWordLE
  dsimp only
  by_cases hlt : k + 4 ≤ xs.length
  · have hvalid := hnext.valid_of_le (by omega) hlt
    rw [if_pos hvalid, if_pos hlt]
    unfold Reader.at'
    rw [hnext.buffer, hnext.position hvalid]
    rfl
  · have hvalid : ¬ (r.updateState 4).isValid = true := fun hv => hlt (hnext.isValid.1 hv).2
    rw [if_neg hvalid, if_neg hlt]

end Reader.Consumed

/-- Nothing is left to read for a reader that is not valid. -/
theorem Reader.readToEnd_of_not_valid {r : Reader} (h : r.status = false) :
    r.readToEnd = some ([], r) := by
  rw [Reader.status] at h
  have hsame : ∀ n, r.updateState n = r := by
    intro n
    rw [Reader.updateState, h]
    rfl
  unfold Reader.readToEnd Reader.readArray
  dsimp only
  rw [hsame, h]
  rfl

end PWSat2OBC
