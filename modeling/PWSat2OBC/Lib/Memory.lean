import Mathlib.Tactic

/-!
# Memories, NOR flash and page-wise repair

A memory is what it returns at each address. `overwrite m o xs` replaces the cells from
`o` on by `xs`; overwriting with what is there already does nothing (`overwrite_block`).

In a NOR flash a cell is a word, erasing sets all its bits and programming can only clear
bits, so erasing and programming is an overwrite (`program_erase`).

A memory is repaired page by page: pages equal to the wanted contents are left alone, the
others are overwritten. All together overwrite the whole area (`foldl_pages`).
-/

namespace Memory

variable {α : Type*} (m : ℕ → α)

/-- The `n` cells from `o` on. -/
def block (o n : ℕ) : List α := (List.range n).map fun i => m (o + i)

/-- The memory with the cells from `o` on replaced by `xs`. -/
def overwrite (o : ℕ) (xs : List α) : ℕ → α := fun a =>
  if o ≤ a then xs.getD (a - o) (m a) else m a

@[simp] theorem length_block (o n : ℕ) : (block m o n).length = n := by simp [block]

theorem getElem_block {o n i : ℕ} (hi : i < (block m o n).length) :
    (block m o n)[i] = m (o + i) := by
  simp [block]

theorem take_block (o n k : ℕ) : (block m o n).take k = block m o (min k n) := by
  unfold block
  rw [← List.map_take, List.take_range]

theorem drop_block (o n k : ℕ) : (block m o n).drop k = block m (o + k) (n - k) := by
  apply List.ext_getElem
  · rw [List.length_drop, length_block, length_block]
  · intro i h1 h2
    rw [List.getElem_drop, getElem_block, getElem_block, Nat.add_assoc]

theorem overwrite_add {o i : ℕ} {xs : List α} (hi : i < xs.length) :
    overwrite m o xs (o + i) = xs[i] := by
  rw [overwrite, if_pos (Nat.le_add_right o i), Nat.add_sub_cancel_left,
    List.getD_eq_getElem?_getD, List.getElem?_eq_getElem hi, Option.getD_some]

theorem overwrite_of_disjoint {o a : ℕ} {xs : List α} (h : a < o ∨ o + xs.length ≤ a) :
    overwrite m o xs a = m a := by
  unfold overwrite
  split
  · rw [List.getD_eq_getElem?_getD, List.getElem?_eq_none (by omega), Option.getD_none]
  · rfl

/-- Overwriting with what is there already does nothing. -/
theorem overwrite_block (o n : ℕ) : overwrite m o (block m o n) = m := by
  funext a
  by_cases ha : o ≤ a ∧ a < o + n
  · obtain ⟨i, rfl⟩ : ∃ i, a = o + i := ⟨a - o, by omega⟩
    have hi : i < (block m o n).length := by rw [length_block]; omega
    rw [overwrite_add m hi, getElem_block]
  · exact overwrite_of_disjoint m (by rw [length_block]; omega)

theorem overwrite_singleton (o : ℕ) (x : α) : overwrite m o [x] = Function.update m o x := by
  funext a
  by_cases ha : a = o
  · rw [ha, Function.update_self]
    exact @overwrite_add _ m o 0 [x] (by simp)
  · rw [Function.update_of_ne ha]
    exact overwrite_of_disjoint m (by rw [List.length_singleton]; omega)

/-- An overwrite behind another continues it. -/
theorem overwrite_append (o : ℕ) (xs ys : List α) :
    overwrite (overwrite m o xs) (o + xs.length) ys = overwrite m o (xs ++ ys) := by
  funext a
  rcases Nat.lt_or_ge a (o + xs.length) with ha | ha
  · rw [overwrite_of_disjoint _ (Or.inl ha)]
    rcases Nat.lt_or_ge a o with hlt | hge
    · rw [overwrite_of_disjoint _ (Or.inl hlt), overwrite_of_disjoint _ (Or.inl hlt)]
    · obtain ⟨i, rfl⟩ : ∃ i, a = o + i := ⟨a - o, by omega⟩
      have hi : i < xs.length := by omega
      rw [overwrite_add m hi, overwrite_add m (by rw [List.length_append]; omega),
        List.getElem_append_left hi]
  · obtain ⟨i, rfl⟩ : ∃ i, a = o + xs.length + i := ⟨a - (o + xs.length), by omega⟩
    rcases Nat.lt_or_ge i ys.length with hi | hi
    · rw [overwrite_add _ hi, Nat.add_assoc, overwrite_add m (by rw [List.length_append]; omega),
        List.getElem_append_right (by omega)]
      simp
    · rw [overwrite_of_disjoint _ (Or.inr (by omega)), overwrite_of_disjoint _ (Or.inr (by omega)),
        overwrite_of_disjoint _ (Or.inr (by rw [List.length_append]; omega))]

/-- Overwriting elsewhere leaves a block as it is. -/
theorem block_overwrite_of_disjoint {o n o' : ℕ} {xs : List α}
    (h : o + n ≤ o' ∨ o' + xs.length ≤ o) : block (overwrite m o' xs) o n = block m o n := by
  apply List.map_congr_left
  intro i hi
  rw [List.mem_range] at hi
  exact overwrite_of_disjoint m (by omega)

/-! ## The same contents at several places -/

theorem foldl_overwrite_of_disjoint (os : List ℕ) (xs : List α) {a : ℕ}
    (h : ∀ o ∈ os, a < o ∨ o + xs.length ≤ a) :
    os.foldl (fun m o => overwrite m o xs) m a = m a := by
  induction os generalizing m with
  | nil => rfl
  | cons o os ih =>
    rw [List.foldl_cons, ih _ fun o' ho' => h o' (List.mem_cons_of_mem o ho')]
    exact overwrite_of_disjoint m (h o List.mem_cons_self)

/-- Each place holds the contents, if the places do not overlap. -/
theorem foldl_overwrite_of_mem (os : List ℕ) (xs : List α) {o i : ℕ} (ho : o ∈ os)
    (hi : i < xs.length)
    (hos : ∀ o' ∈ os, o' ≠ o → o' + xs.length ≤ o ∨ o + xs.length ≤ o') :
    os.foldl (fun m o => overwrite m o xs) m (o + i) = xs[i] := by
  induction os generalizing m with
  | nil => exact absurd ho List.not_mem_nil
  | cons o' os ih =>
    rw [List.foldl_cons]
    by_cases hmem : o ∈ os
    · exact ih _ hmem fun o'' h'' => hos o'' (List.mem_cons_of_mem o' h'')
    -- the last place that is `o` is the head
    obtain rfl : o = o' := (List.mem_cons.1 ho).resolve_right hmem
    rw [foldl_overwrite_of_disjoint, overwrite_add m hi]
    intro o'' h''
    have hne : o'' ≠ o := by rintro rfl; exact hmem h''
    have := hos o'' (List.mem_cons_of_mem o h'') hne
    omega

/-! ## NOR flash -/

section

variable {w : ℕ} (f : ℕ → BitVec w)

/-- Erasing sets all bits of the `n` cells from `o` on. -/
def erase (o n : ℕ) : ℕ → BitVec w := fun a =>
  if o ≤ a ∧ a < o + n then BitVec.allOnes w else f a

/-- Programming clears the bits that are clear in `xs`. -/
def program (o : ℕ) (xs : List (BitVec w)) : ℕ → BitVec w := fun a =>
  if o ≤ a ∧ a < o + xs.length then f a &&& xs.getD (a - o) 0 else f a

/-- **Erasing and programming** stores the words and leaves the rest of the sector erased. -/
theorem program_erase (o : ℕ) {n : ℕ} {xs : List (BitVec w)} (h : xs.length ≤ n) :
    program (erase f o n) o xs =
      overwrite f o (xs ++ List.replicate (n - xs.length) (BitVec.allOnes w)) := by
  funext a
  have hlength : (xs ++ List.replicate (n - xs.length) (BitVec.allOnes w)).length = n := by
    rw [List.length_append, List.length_replicate]; omega
  by_cases ha : o ≤ a ∧ a < o + n
  · obtain ⟨i, rfl⟩ : ∃ i, a = o + i := ⟨a - o, by omega⟩
    rw [overwrite_add f (by rw [hlength]; omega), program, erase, if_pos ha]
    split
    · have hi : i < xs.length := by omega
      rw [List.getElem_append_left hi, BitVec.allOnes_and, Nat.add_sub_cancel_left,
        List.getD_eq_getElem?_getD, List.getElem?_eq_getElem hi, Option.getD_some]
    · rw [List.getElem_append_right (by omega), List.getElem_replicate]
  · rw [overwrite_of_disjoint f (by rw [hlength]; omega), program, erase, if_neg ha,
      if_neg (by omega)]

end

/-! ## Page-wise repair -/

section

/-- Leaving alone what is right is overwriting it. -/
theorem overwrite_unless [DecidableEq α] (o n : ℕ) (xs : List α) :
    (if block m o n = xs then m else overwrite m o xs) = overwrite m o xs := by
  split
  · rename_i h
    rw [← h, overwrite_block]
  · rfl

variable (c : ℕ) (target : List α)

/-- The page `i` of the wanted contents. -/
def page (i : ℕ) : List α := (target.drop (i * c)).take c

theorem length_page {k i : ℕ} (hk : k * c ≤ target.length) (hi : i < k) :
    (page c target i).length = c := by
  have hle : (i + 1) * c ≤ k * c := Nat.mul_le_mul_right c hi
  rw [Nat.succ_mul] at hle
  rw [page, List.length_take, List.length_drop]
  omega

/-- **All pages together**: a loop that overwrites one page in each turn, whatever else it
counts, leaves the wanted contents in the area. -/
theorem foldl_pages {β : Type*} (step : (ℕ → α) × β → ℕ → (ℕ → α) × β) (st : (ℕ → α) × β) {k : ℕ}
    (hk : k * c ≤ target.length)
    (hstep : ∀ st, ∀ i < k, (step st i).1 = overwrite st.1 (i * c) (page c target i)) :
    ((List.range k).foldl step st).1 = overwrite st.1 0 (target.take (k * c)) := by
  induction k with
  | zero =>
    rw [Nat.zero_mul, List.take_zero]
    exact (overwrite_block st.1 0 0).symm
  | succ k ih =>
    rw [Nat.succ_mul] at hk
    have hlength : (target.take (k * c)).length = k * c := by rw [List.length_take]; omega
    have hnext := overwrite_append st.1 0 (target.take (k * c)) (page c target k)
    rw [hlength, Nat.zero_add] at hnext
    rw [List.range_succ, List.foldl_append, List.foldl_cons, List.foldl_nil,
      hstep _ k (Nat.lt_succ_self k), ih (by omega) fun st i hi => hstep st i (by omega), hnext, page,
      Nat.succ_mul, ← List.take_add]

end

end Memory
