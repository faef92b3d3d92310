import Mathlib.Tactic

/-!
# Bitwise majority vote

`vote l` has a bit set exactly when more than half of the words of `l` have it
set. A value held by more than half of the voters wins the vote (`vote_of_count`),
and voting commutes with cutting words into pieces (`vote_append`), so words and
bytes may be voted in any grouping.

`majority3` is the usual gate-level form for three voters, `vote_three` shows it
is the vote. `dissent a b c` marks the bits on which `a` is outvoted. `majority5` is the
form for five voters.
-/

namespace Voting

variable {w v : ℕ}

/-- The words of `l` that have bit `i` set. -/
def ayes (l : List (BitVec w)) (i : ℕ) : ℕ := l.countP (·.getLsbD i)

/-- Bitwise majority: a bit is set when more than half of the voters have it. -/
def vote (l : List (BitVec w)) : BitVec w :=
  (BitVec.ofBoolListLE ((List.range w).map fun i => decide (l.length < 2 * ayes l i))).cast
    (by simp)

theorem getLsbD_vote (l : List (BitVec w)) {i : ℕ} (hi : i < w) :
    (vote l).getLsbD i = decide (l.length < 2 * ayes l i) := by
  unfold vote
  rw [BitVec.getLsbD_cast, BitVec.getLsbD_ofBoolListLE]
  simp [List.getD, hi]

/-- **A value held by more than half of the voters wins.** -/
theorem vote_of_count {l : List (BitVec w)} {x : BitVec w} (h : l.length < 2 * l.count x) :
    vote l = x := by
  apply BitVec.eq_of_getLsbD_eq
  intro i hi
  rw [getLsbD_vote l hi]
  cases hx : x.getLsbD i with
  | true =>
    have hle : l.count x ≤ ayes l i := by
      apply List.countP_mono_left
      intro y _ hy
      rw [beq_iff_eq] at hy
      rw [hy, hx]
    simpa using by omega
  | false =>
    have hsum : l.count x + ayes l i ≤ l.length := by
      rw [List.length_eq_countP_add_countP (p := (· == x)) (l := l), List.count]
      apply Nat.add_le_add_left
      apply List.countP_mono_left
      intro y _ hy
      have hyx : y ≠ x := by rintro rfl; rw [hx] at hy; exact Bool.noConfusion hy
      simpa using hyx
    simpa using by omega

/-- **A bit that few voters have wrong** does not matter: the vote is right where more than
half of the voters are. -/
theorem vote_of_few_wrong {l : List (BitVec w)} {x : BitVec w}
    (h : ∀ i < w, 2 * l.countP (fun y => decide (y.getLsbD i ≠ x.getLsbD i)) < l.length) :
    vote l = x := by
  apply BitVec.eq_of_getLsbD_eq
  intro i hi
  have hwrong := h i hi
  have hsum := List.length_eq_countP_add_countP (p := fun y : BitVec w => y.getLsbD i) (l := l)
  rw [getLsbD_vote l hi]
  unfold ayes
  cases hx : x.getLsbD i with
  | true =>
    simp only [hx, ne_eq, Bool.not_eq_true] at hwrong hsum
    simpa using by omega
  | false =>
    simp only [hx, ne_eq, Bool.not_eq_false, Bool.decide_eq_true] at hwrong
    simpa using by omega

/-- At most one of the voters is one of those that are all the same. -/
theorem countP_le_one {α : Type*} {p : α → Bool} {l : List α} (hl : l.Nodup)
    (h : ∀ a ∈ l, ∀ b ∈ l, p a = true → p b = true → a = b) : l.countP p ≤ 1 := by
  rw [List.countP_eq_length_filter]
  have hnodup := hl.filter p
  have hmem : ∀ a ∈ l.filter p, ∀ b ∈ l.filter p, a = b := by
    intro a ha b hb
    rw [List.mem_filter] at ha hb
    exact h a ha.1 b hb.1 ha.2 hb.2
  rcases hfilter : l.filter p with _ | ⟨a, _ | ⟨b, rest⟩⟩
  · exact Nat.zero_le _
  · exact le_rfl
  · rw [hfilter] at hnodup hmem
    have heq := hmem a (by simp) b (by simp)
    exact absurd (by simp [heq]) (List.nodup_cons.1 hnodup).1

/-- **Where no bit is wrong with two voters**, the vote is right. -/
theorem vote_of_lone_wrong {α : Type*} {l : List α} (hl : l.Nodup) (h3 : 3 ≤ l.length)
    {f : α → BitVec w} {x : BitVec w}
    (h : ∀ i < w, ∀ a ∈ l, ∀ b ∈ l, (f a).getLsbD i ≠ x.getLsbD i → (f b).getLsbD i ≠ x.getLsbD i → a = b) :
    vote (l.map f) = x := by
  apply vote_of_few_wrong
  intro i hi
  have hone := @countP_le_one α (fun a => decide ((f a).getLsbD i ≠ x.getLsbD i)) l hl
    fun a ha b hb hpa hpb => h i hi a ha b hb (of_decide_eq_true hpa) (of_decide_eq_true hpb)
  rw [List.countP_map, List.length_map]
  simp only [Function.comp_def]
  omega

/-- Voting commutes with concatenation. -/
theorem vote_append (l : List (BitVec w × BitVec v)) :
    vote (l.map fun p => p.1 ++ p.2) = vote (l.map Prod.fst) ++ vote (l.map Prod.snd) := by
  apply BitVec.eq_of_getLsbD_eq
  intro i hi
  rw [getLsbD_vote _ hi, BitVec.getLsbD_append]
  simp only [ayes, List.countP_map, List.length_map]
  split
  · rename_i h
    rw [getLsbD_vote _ h]
    simp [ayes, List.countP_map, Function.comp_def, BitVec.getLsbD_append, h]
  · rename_i h
    rw [getLsbD_vote _ (by omega)]
    simp [ayes, List.countP_map, Function.comp_def, BitVec.getLsbD_append, h]

/-! ## Three voters -/

/-- Majority of three, as gates. -/
def majority3 (a b c : BitVec w) : BitVec w := (a &&& b) ||| (b &&& c) ||| (a &&& c)

@[simp] theorem getLsbD_majority3 (a b c : BitVec w) (i : ℕ) :
    (majority3 a b c).getLsbD i =
      (a.getLsbD i && b.getLsbD i || b.getLsbD i && c.getLsbD i || a.getLsbD i && c.getLsbD i) := by
  simp [majority3]

/-- The gates compute the vote. -/
theorem vote_three (a b c : BitVec w) : vote [a, b, c] = majority3 a b c := by
  apply BitVec.eq_of_getLsbD_eq
  intro i hi
  rw [getLsbD_vote _ hi, getLsbD_majority3]
  cases ha : a.getLsbD i <;> cases hb : b.getLsbD i <;> cases hc : c.getLsbD i <;>
    simp [ayes, ha, hb, hc]

theorem majority3_append (a b c : BitVec w) (a' b' c' : BitVec v) :
    majority3 (a ++ a') (b ++ b') (c ++ c') = majority3 a b c ++ majority3 a' b' c' := by
  rw [← vote_three, ← vote_three, ← vote_three]
  exact vote_append [(a, a'), (b, b'), (c, c')]

/-- Two equal voters decide. -/
@[simp] theorem majority3_left (a c : BitVec w) : majority3 a a c = a := by
  rw [← vote_three]
  exact vote_of_count (by rw [List.count_cons_self, List.count_cons_self]; simp; omega)

/-- The bits on which `b` and `c` agree against `a`. -/
def dissent (a b c : BitVec w) : BitVec w := (a ^^^ b) &&& (a ^^^ c)

/-- `a` is the majority exactly when it is outvoted nowhere. -/
theorem majority3_eq_left (a b c : BitVec w) : majority3 a b c = a ↔ dissent a b c = 0#w := by
  simp only [BitVec.eq_of_getLsbD_eq_iff, getLsbD_majority3, dissent, BitVec.getLsbD_and,
    BitVec.getLsbD_xor, BitVec.getLsbD_zero]
  refine forall_congr' fun i => imp_congr_right fun _ => ?_
  cases a.getLsbD i <;> cases b.getLsbD i <;> cases c.getLsbD i <;> simp

/-! ## Five voters -/

/-- Majority of five, as gates. -/
def majority5 (a b c d e : BitVec w) : BitVec w :=
  (c &&& d &&& e) ||| (b &&& d &&& e) ||| (b &&& c &&& e) ||| (b &&& c &&& d) |||
    (a &&& d &&& e) ||| (a &&& c &&& e) ||| (a &&& c &&& d) ||| (a &&& b &&& e) |||
    (a &&& b &&& d) ||| (a &&& b &&& c)

theorem vote_five (a b c d e : BitVec w) : vote [a, b, c, d, e] = majority5 a b c d e := by
  apply BitVec.eq_of_getLsbD_eq
  intro i hi
  rw [getLsbD_vote _ hi]
  simp only [majority5, BitVec.getLsbD_or, BitVec.getLsbD_and]
  cases ha : a.getLsbD i <;> cases hb : b.getLsbD i <;> cases hc : c.getLsbD i <;>
    cases hd : d.getLsbD i <;> cases he : e.getLsbD i <;>
    simp [ayes, ha, hb, hc, hd, he]

theorem majority5_append (a b c d e : BitVec w) (a' b' c' d' e' : BitVec v) :
    majority5 (a ++ a') (b ++ b') (c ++ c') (d ++ d') (e ++ e') =
      majority5 a b c d e ++ majority5 a' b' c' d' e' := by
  rw [← vote_five, ← vote_five, ← vote_five]
  exact vote_append [(a, a'), (b, b'), (c, c'), (d, d'), (e, e')]

end Voting
