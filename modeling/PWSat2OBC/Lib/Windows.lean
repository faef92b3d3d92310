import Mathlib.Tactic

/-!
# Sums that are cut off at zero

A sum that never goes below zero forgets what came before its last zero, so it is the largest sum of
a window that ends now: it stays below a bound exactly if each of these windows does (`reflect_le_iff`).
-/

namespace Windows

/-- Adds the amounts, and goes on from zero where the sum is negative. -/
def reflect (xs : List ℤ) : ℤ := xs.foldl (fun value x => max 0 (value + x)) 0

@[simp] theorem reflect_nil : reflect [] = 0 := rfl

@[simp] theorem reflect_snoc (xs : List ℤ) (x : ℤ) : reflect (xs ++ [x]) = max 0 (reflect xs + x) := by
  rw [reflect, List.foldl_append]
  rfl

/-- **Windows**: the sum is bounded by what bounds all windows up to its end. -/
theorem reflect_le_iff (xs : List ℤ) (b : ℤ) : reflect xs ≤ b ↔ ∀ ys, ys <:+ xs → ys.sum ≤ b := by
  induction xs using List.reverseRecOn generalizing b with
  | nil =>
    constructor
    · intro h ys hys
      rw [List.suffix_nil.1 hys]
      exact h
    · intro h
      exact h [] (List.suffix_refl [])
  | append_singleton xs x ih =>
    rw [reflect_snoc, max_le_iff]
    constructor
    · rintro ⟨hzero, hle⟩ ys hys
      rcases List.suffix_concat_iff.1 hys with rfl | ⟨zs, rfl, hzs⟩
      · exact hzero
      · have hsum := (ih (b - x)).1 (by omega) zs hzs
        rw [List.sum_append, List.sum_singleton]
        omega
    · intro h
      refine ⟨h [] (List.nil_suffix), ?_⟩
      have hle : reflect xs ≤ b - x := by
        refine (ih (b - x)).2 fun zs hzs => ?_
        have hsum := h (zs ++ [x]) (List.suffix_concat_iff.2 (Or.inr ⟨zs, rfl, hzs⟩))
        rw [List.sum_append, List.sum_singleton] at hsum
        omega
      omega

/-- The sum comes to a level exactly if a window does. -/
theorem le_reflect_iff (xs : List ℤ) (b : ℤ) : b ≤ reflect xs ↔ ∃ ys, ys <:+ xs ∧ b ≤ ys.sum := by
  have h := reflect_le_iff xs (b - 1)
  constructor
  · intro hle
    have hnot : ¬ ∀ ys, ys <:+ xs → ys.sum ≤ b - 1 := fun hall => absurd (h.2 hall) (by omega)
    push Not at hnot
    obtain ⟨ys, hys, hsum⟩ := hnot
    exact ⟨ys, hys, by omega⟩
  · rintro ⟨ys, hys, hsum⟩
    by_contra hlt
    have hle := h.1 (by omega) ys hys
    omega

end Windows
