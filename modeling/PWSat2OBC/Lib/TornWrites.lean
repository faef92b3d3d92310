import Mathlib.Tactic

/-!
# Writes that were cut

A write that is cut after `k` elements leaves the first `k` of the new list before the rest of the
old one. What both lists have in the same place is then still there: a torn write goes part by part
(`torn_append`), and a part that is the same in both stays (`torn_self`).
-/

namespace TornWrites

variable {α : Type*} {k : ℕ} {x x' y y' : List α}

/-- The first elements of one list before the rest of another. -/
def torn (k : ℕ) (new old : List α) : List α := new.take k ++ old.drop k

theorem torn_self (k : ℕ) (x : List α) : torn k x x = x := List.take_append_drop k x

theorem length_torn (h : x.length = x'.length) : (torn k x x').length = x.length := by
  rw [torn, List.length_append, List.length_take, List.length_drop]
  omega

theorem torn_append (h : x.length = x'.length) :
    torn k (x ++ y) (x' ++ y') = torn k x x' ++ torn (k - x.length) y y' := by
  rw [torn, torn, torn, List.take_append, List.drop_append, h]
  by_cases hk : k ≤ x'.length
  · have hzero : k - x'.length = 0 := by omega
    rw [hzero, List.take_zero, List.drop_zero, List.append_nil, List.nil_append, List.append_assoc]
  · have hdrop : x'.drop k = [] := List.drop_eq_nil_of_le (by omega)
    rw [hdrop, List.nil_append, List.append_nil, List.append_assoc]

theorem getElem?_torn (h : x.length = x'.length) (i : ℕ) :
    (torn k x x')[i]? = if i < k then x[i]? else x'[i]? := by
  rw [torn, List.getElem?_append, List.length_take]
  by_cases hi : i < k
  · rw [if_pos hi]
    by_cases hx : i < x.length
    · rw [if_pos (by omega), List.getElem?_take_of_lt hi]
    · rw [if_neg (by omega), List.getElem?_drop, List.getElem?_eq_none (by omega),
        List.getElem?_eq_none (by omega)]
  · rw [if_neg hi]
    by_cases hx : i < x.length
    · rw [if_neg (by omega), List.getElem?_drop]
      congr 1
      omega
    · rw [if_neg (by omega), List.getElem?_drop, List.getElem?_eq_none (by omega),
        List.getElem?_eq_none (by omega)]

end TornWrites
