import PWSat2OBC.Spec.Redundancy

/-!
# The buffer votes compute the bytewise majority

* `correctWords_map`: the word loop votes byte by byte.
* `correctBuffer_map`: `CorrectBuffer` leaves the majority of three buffers of equal
  length when that length and the three addresses are multiples of 4, and its first
  argument otherwise.
-/

namespace PWSat2OBC.Redundancy

open Voting

variable {w : ℕ}

/-- `Correct` is the bitwise majority vote. -/
theorem correct_eq_vote (a b c : BitVec w) : correct a b c = vote [a, b, c] :=
  (vote_three a b c).symm

theorem getLsbD_loadWord (b0 b1 b2 b3 : Byte) (i : ℕ) :
    (loadWord b0 b1 b2 b3).getLsbD i =
      if i < 8 then b0.getLsbD i else if i < 16 then b1.getLsbD (i - 8)
      else if i < 24 then b2.getLsbD (i - 16) else b3.getLsbD (i - 24) := by
  unfold loadWord
  rw [BitVec.getLsbD_append (x := b3), BitVec.getLsbD_append (x := b2), BitVec.getLsbD_append (x := b1)]
  split_ifs <;> first | omega | rfl

theorem storeWord_loadWord (b0 b1 b2 b3 : Byte) :
    storeWord (loadWord b0 b1 b2 b3) = [b0, b1, b2, b3] := by
  unfold storeWord
  simp only [List.cons.injEq, and_true]
  refine ⟨?_, ?_, ?_, ?_⟩ <;> apply BitVec.eq_of_getLsbD_eq <;> intro i hi <;>
    rw [BitVec.getLsbD_extractLsb', getLsbD_loadWord]
  · simp [hi]
  · simp [hi, show 8 + i < 16 by omega]
  · simp [hi, show ¬ 16 + i < 8 by omega, show ¬ 16 + i < 16 by omega, show 16 + i < 24 by omega]
  · simp [hi, show ¬ 24 + i < 8 by omega, show ¬ 24 + i < 16 by omega, show ¬ 24 + i < 24 by omega]

theorem loadWord_storeWord (x : BitVec 32) :
    loadWord (x.extractLsb' 0 8) (x.extractLsb' 8 8) (x.extractLsb' 16 8) (x.extractLsb' 24 8) =
      x := by
  unfold loadWord
  rw [BitVec.extractLsb'_append_extractLsb'_eq_extractLsb' (show 8 = 0 + 8 from rfl),
    BitVec.extractLsb'_append_extractLsb'_eq_extractLsb' (show 16 = 0 + (8 + 8) from rfl)]
  exact BitVec.extractLsb'_append_extractLsb'

theorem correct_loadWord (a0 a1 a2 a3 b0 b1 b2 b3 c0 c1 c2 c3 : Byte) :
    correct (loadWord a0 a1 a2 a3) (loadWord b0 b1 b2 b3) (loadWord c0 c1 c2 c3) =
      loadWord (majority3 a0 b0 c0) (majority3 a1 b1 c1) (majority3 a2 b2 c2)
        (majority3 a3 b3 c3) := by
  show majority3 _ _ _ = _
  simp only [loadWord, majority3_append]

/-- **The word loop votes byte by byte**, over any list of indices whose number is a
multiple of 4. -/
theorem correctWords_map {ι : Type*} (f g h : ι → Byte) (l : List ι) (hl : l.length % 4 = 0) :
    correctWords (l.map f) (l.map g) (l.map h) = l.map fun i => majority3 (f i) (g i) (h i) := by
  match l, hl with
  | [], _ => rfl
  | [_], hl | [_, _], hl | [_, _, _], hl => simp at hl
  | w :: x :: y :: z :: l, hl =>
    have ih := correctWords_map f g h l (by simp only [List.length_cons] at hl; omega)
    simp only [List.map_cons, correctWords, correct_loadWord, storeWord_loadWord, ih,
      List.cons_append, List.nil_append]

theorem isAligned4_iff (a : ℕ) : isAligned4 a = true ↔ a % 4 = 0 := by
  unfold isAligned4
  rw [show (3 : ℕ) = 2 ^ 2 - 1 from rfl, Nat.and_two_pow_sub_one_eq_mod, beq_iff_eq]

/-- **The in-place buffer vote.** -/
theorem correctBuffer_map {ι : Type*} (f g h : ι → Byte) (l : List ι) (a b c : ℕ)
    (hb : b % 4 = 0) (hc : c % 4 = 0) :
    (correctBuffer ⟨a, l.map f⟩ ⟨b, l.map g⟩ ⟨c, l.map h⟩).2 =
      if l.length % 4 = 0 ∧ a % 4 = 0 then l.map fun i => majority3 (f i) (g i) (h i)
      else l.map f := by
  unfold correctBuffer
  have hb' := (isAligned4_iff b).2 hb
  have hc' := (isAligned4_iff c).2 hc
  rw [if_neg (by simp [Span.length])]
  simp only [Span.length, List.length_map, hb', hc', Bool.and_true]
  by_cases hl : l.length % 4 = 0
  · by_cases ha : a % 4 = 0
    · rw [(isAligned4_iff a).2 ha]
      simp [hl, ha, correctWords_map f g h l hl]
    · have ha' : isAligned4 a = false := by rw [← Bool.not_eq_true, isAligned4_iff]; exact ha
      simp [hl, ha, ha']
  · simp [hl]

/-- **The buffer vote into a separate output**, for inputs of its length. -/
theorem correctBufferTo_map {ι : Type*} (f g h : ι → Byte) (l : List ι) (out : Span)
    (hout : out.length = l.length) (hl : l.length % 4 = 0) {a b c : ℕ} (ha : a % 4 = 0)
    (hb : b % 4 = 0) (hc : c % 4 = 0) :
    correctBufferTo out ⟨a, l.map f⟩ ⟨b, l.map g⟩ ⟨c, l.map h⟩ =
      (true, l.map fun i => majority3 (f i) (g i) (h i)) := by
  unfold correctBufferTo
  rw [(isAligned4_iff a).2 ha, (isAligned4_iff b).2 hb, (isAligned4_iff c).2 hc, hout]
  simp [Span.length, hl, correctWords_map f g h l hl]

/-! ## Five inputs -/

theorem correct5_loadWord (a b c d e : Fin 4 → Byte) :
    correct5 (loadWord (a 0) (a 1) (a 2) (a 3)) (loadWord (b 0) (b 1) (b 2) (b 3))
        (loadWord (c 0) (c 1) (c 2) (c 3)) (loadWord (d 0) (d 1) (d 2) (d 3))
        (loadWord (e 0) (e 1) (e 2) (e 3)) =
      loadWord (majority5 (a 0) (b 0) (c 0) (d 0) (e 0)) (majority5 (a 1) (b 1) (c 1) (d 1) (e 1))
        (majority5 (a 2) (b 2) (c 2) (d 2) (e 2)) (majority5 (a 3) (b 3) (c 3) (d 3) (e 3)) := by
  show majority5 _ _ _ _ _ = _
  simp only [loadWord, majority5_append]

/-- A word of the bytes `f 0`, `f 1`, … -/
theorem wordAt_map (f : ℕ → Byte) {n i : ℕ} (h : 4 * i + 3 < n) :
    wordAt ((List.range n).map f) i =
      loadWord (f (4 * i)) (f (4 * i + 1)) (f (4 * i + 2)) (f (4 * i + 3)) := by
  have hget : ∀ j < n, ((List.range n).map f).getD j 0 = f j := by
    intro j hj
    simp [List.getD_eq_getElem?_getD, hj]
  unfold wordAt
  rw [hget _ (by omega), hget _ (by omega), hget _ (by omega), hget _ h]

/-- **The five-way loop votes byte by byte.** -/
theorem correctWords5_map (a b c d e : ℕ → Byte) {n k : ℕ} (h : 4 * k ≤ n) :
    correctWords5 k ((List.range n).map a) ((List.range n).map b) ((List.range n).map c)
        ((List.range n).map d) ((List.range n).map e) =
      (List.range (4 * k)).map fun i => majority5 (a i) (b i) (c i) (d i) (e i) := by
  induction k with
  | zero => rfl
  | succ k ih =>
    have hrange : List.range (4 * (k + 1)) =
        List.range (4 * k) ++ [4 * k, 4 * k + 1, 4 * k + 2, 4 * k + 3] := by
      simp only [Nat.mul_succ, List.range_succ, List.append_assoc]
      rfl
    have hword := correct5_loadWord (fun j => a (4 * k + j)) (fun j => b (4 * k + j))
      (fun j => c (4 * k + j)) (fun j => d (4 * k + j)) fun j => e (4 * k + j)
    unfold correctWords5 at ih ⊢
    rw [List.range_succ, List.flatMap_append, ih (by omega), hrange, List.map_append,
      List.flatMap_cons, List.flatMap_nil, List.append_nil, wordAt_map a (by omega),
      wordAt_map b (by omega), wordAt_map c (by omega), wordAt_map d (by omega),
      wordAt_map e (by omega)]
    exact congrArg _ ((congrArg storeWord hword).trans (storeWord_loadWord _ _ _ _))

theorem correctBuffer5_map (a b c d e : ℕ → Byte) (n : ℕ) (hn : n % 4 = 0) (result : Span)
    (hresult : result.length = n) (pa pb pc pd pe : ℕ) (ha : pa % 4 = 0) (hb : pb % 4 = 0)
    (hc : pc % 4 = 0) (hd : pd % 4 = 0) (he : pe % 4 = 0) :
    (correctBuffer5 result ⟨pa, (List.range n).map a⟩ ⟨pb, (List.range n).map b⟩
        ⟨pc, (List.range n).map c⟩ ⟨pd, (List.range n).map d⟩ ⟨pe, (List.range n).map e⟩).2 =
      (List.range n).map fun i => vote [a i, b i, c i, d i, e i] := by
  have hk : 4 * (n / 4) = n := by omega
  have hlen : ∀ (p : ℕ) (f : ℕ → Byte), (⟨p, (List.range n).map f⟩ : Span).length = n := by
    intro p f
    simp [Span.length]
  have halign : (isAligned4 pa && isAligned4 pb && isAligned4 pc && isAligned4 pd &&
      isAligned4 pe) = true := by
    simp only [Bool.and_eq_true, isAligned4_iff]
    exact ⟨⟨⟨⟨ha, hb⟩, hc⟩, hd⟩, he⟩
  unfold correctBuffer5
  simp only [hlen, hresult, ne_eq, not_true_eq_false, or_self, if_false, hn, halign, Bool.not_true,
    Bool.false_eq_true, vote_five]
  rw [correctWords5_map a b c d e (by omega), hk]

end PWSat2OBC.Redundancy
