import PWSat2OBC.Lib.Chunks

/-!
# Putting pieces together

A list is cut into pieces of one size, and the pieces arrive in any order, some of them more than
once. Each is written where it belongs, as into a file: what lies between the end and the place
of the piece is filled up.

`Partly target c arrived l`: `l` agrees with `target` on all pieces that have arrived and is no
longer. A piece that arrives keeps this (`Partly.put`), and once all have arrived the lists are
equal (`Partly.eq`).
-/

namespace Reassembly

variable {α : Type*}

/-- Write `xs` at `offset`, with `fill` in a gap before it. -/
def put (fill : α) (offset : ℕ) (xs l : List α) : List α :=
  (l ++ List.replicate (offset - l.length) fill).take offset ++ xs ++ l.drop (offset + xs.length)

variable {fill : α} {offset : ℕ} {xs l : List α}

theorem length_put : (put fill offset xs l).length = max l.length (offset + xs.length) := by
  unfold put
  simp only [List.length_append, List.length_take, List.length_replicate, List.length_drop]
  omega

/-- The part before the place. -/
theorem length_front : ((l ++ List.replicate (offset - l.length) fill).take offset).length = offset := by
  rw [List.length_take, List.length_append, List.length_replicate]
  omega

theorem getElem?_put_inside {j : ℕ} (h : j < xs.length) : (put fill offset xs l)[offset + j]? = xs[j]? := by
  unfold put
  rw [List.append_assoc, List.getElem?_append_right (by rw [length_front]; omega), length_front,
    Nat.add_sub_cancel_left, List.getElem?_append_left h]

/-- Elsewhere the list is what it was. -/
theorem getElem?_put_outside {j : ℕ} (hj : j < l.length) (h : j < offset ∨ offset + xs.length ≤ j) :
    (put fill offset xs l)[j]? = l[j]? := by
  unfold put
  rcases h with h | h
  · rw [List.append_assoc, List.getElem?_append_left (by rw [length_front]; exact h), List.getElem?_take_of_lt h,
      List.getElem?_append_left hj]
  · have hfront : ((l ++ List.replicate (offset - l.length) fill).take offset ++ xs).length = offset + xs.length := by
      rw [List.length_append, length_front]
    rw [List.getElem?_append_right (by rw [hfront]; exact h), hfront, List.getElem?_drop, Nat.add_sub_cancel' h]

/-! ## Pieces -/

/-- The pieces that have arrived are there. -/
structure Partly (target : List α) (c : ℕ) (arrived : ℕ → Prop) (l : List α) : Prop where
  length : l.length ≤ target.length
  same : ∀ j < target.length, arrived (j / c) → l[j]? = target[j]?

variable {target : List α} {c : ℕ} {arrived : ℕ → Prop}

theorem partly_nil (h : ∀ i, ¬ arrived i) : Partly target c arrived [] where
  length := Nat.zero_le _
  same := fun j _ hj => absurd hj (h (j / c))

/-- Only pieces inside the list count. -/
theorem Partly.imp (h : Partly target c arrived l) {arrived' : ℕ → Prop}
    (himp : ∀ j < target.length, arrived' (j / c) → arrived (j / c)) : Partly target c arrived' l where
  length := h.length
  same := fun j hj hk => h.same j hj (himp j hj hk)

/-- **A piece arrives**, for the first time or again. -/
theorem Partly.put (h : Partly target c arrived l) (hc : 0 < c) {i : ℕ} (hi : i * c ≤ target.length)
    {arrived' : ℕ → Prop} (harrived : ∀ k, arrived' k → arrived k ∨ k = i) :
    Partly target c arrived' (put fill (i * c) ((target.drop (i * c)).take c) l) where
  length := by
    have := h.length
    rw [length_put, List.length_take, List.length_drop]
    omega
  same := by
    intro j hj hk
    have hpiece : ((target.drop (i * c)).take c).length = min c (target.length - i * c) := by
      rw [List.length_take, List.length_drop]
    by_cases hinside : j / c = i
    · have hdiv := Nat.div_add_mod j c
      have hmod := Nat.mod_lt j hc
      rw [hinside, Nat.mul_comm] at hdiv
      rw [← hdiv] at hj ⊢
      rw [getElem?_put_inside (by omega), List.getElem?_take_of_lt hmod, List.getElem?_drop]
    · have hsame := h.same j hj ((harrived _ hk).resolve_right hinside)
      have hlength : j < l.length := by
        by_contra hge
        rw [List.getElem?_eq_none (by omega), List.getElem?_eq_getElem hj] at hsame
        contradiction
      have hplace : j < i * c ∨ (i + 1) * c ≤ j := by
        rcases Nat.lt_or_gt_of_ne hinside with hlt | hgt
        · exact .inl ((Nat.div_lt_iff_lt_mul hc).1 hlt)
        · exact .inr ((Nat.le_div_iff_mul_le hc).1 hgt)
      rw [Nat.succ_mul] at hplace
      rw [getElem?_put_outside hlength (by omega), hsame]

/-- **All pieces have arrived.** -/
theorem Partly.eq (h : Partly target c arrived l) (hall : ∀ j < target.length, arrived (j / c)) : l = target := by
  apply List.ext_getElem?
  intro j
  rcases Nat.lt_or_ge j target.length with hj | hj
  · exact h.same j hj (hall j hj)
  · rw [List.getElem?_eq_none hj, List.getElem?_eq_none (h.length.trans hj)]

end Reassembly
