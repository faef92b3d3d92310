import Mathlib.Tactic

/-!
# Cutting a range into chunks

`range_chunks`: the indices below `n` are those of the chunks of size `c`, in order.
`pieces`: a list in pieces of one size.
`flatMap_inj`: two concatenations of pieces of the same lengths agree exactly when all
pieces agree.
-/

namespace Chunks

/-- The number of chunks of size `c` in `n` elements. -/
def count (n c : ℕ) : ℕ := (n + c - 1) / c

theorem count_zero {c : ℕ} (hc : 0 < c) : count 0 c = 0 := Nat.div_eq_of_lt (by omega)

theorem count_succ {n c : ℕ} (hc : 0 < c) (hn : 0 < n) : count n c = count (n - c) c + 1 := by
  unfold count
  rcases Nat.lt_or_ge n c with h | h
  · have h0 : n - c = 0 := by omega
    have h1 : n + c - 1 = (n - 1) + c := by omega
    rw [h0, h1, Nat.add_div_right _ hc, Nat.div_eq_of_lt (by omega), Nat.zero_add,
      Nat.div_eq_of_lt (by omega)]
  · have h1 : n + c - 1 = (n - c + c - 1) + c := by omega
    rw [h1, Nat.add_div_right _ hc]

/-- Chunk `i` starts inside the range. -/
theorem start_lt {n c i : ℕ} (hc : 0 < c) (h : i < count n c) : i * c < n := by
  unfold count at h
  have h1 : (i + 1) * c ≤ n + c - 1 := by
    calc (i + 1) * c ≤ ((n + c - 1) / c) * c := Nat.mul_le_mul_right c h
      _ ≤ n + c - 1 := Nat.div_mul_le_self _ _
  rw [Nat.succ_mul] at h1
  omega

/-- The chunks reach the end of the range. -/
theorem le_count_mul (n : ℕ) {c : ℕ} (hc : 0 < c) : n ≤ count n c * c := by
  have hlt := Nat.lt_mul_div_succ (n + c - 1) hc
  rw [Nat.mul_succ] at hlt
  rw [count, Nat.mul_comm]
  omega

/-- **The indices below `n`, chunk by chunk.** -/
theorem range_chunks {c : ℕ} (hc : 0 < c) (n : ℕ) :
    List.range n =
      (List.range (count n c)).flatMap fun i => (List.range (min (n - i * c) c)).map (i * c + ·) := by
  induction n using Nat.strong_induction_on with
  | _ n ih =>
    rcases Nat.eq_zero_or_pos n with rfl | hn
    · simp [count_zero hc]
    rw [count_succ hc hn, List.range_succ_eq_map, List.flatMap_cons, List.flatMap_map]
    have hfirst : (List.range (min (n - 0 * c) c)).map (0 * c + ·) = List.range (min n c) := by
      simp
    have hrest : ((List.range (count (n - c) c)).flatMap fun i =>
        (List.range (min (n - (i + 1) * c) c)).map ((i + 1) * c + ·)) =
          (List.range (n - c)).map (c + ·) := by
      rw [ih (n - c) (by omega), List.map_flatMap]
      congr 1
      funext i
      have e : n - (i + 1) * c = n - c - i * c := by rw [Nat.succ_mul]; omega
      rw [e, List.map_map]
      congr 1
      funext j
      simp only [Function.comp_apply, Nat.succ_mul]
      omega
    rw [hfirst, hrest]
    rcases Nat.le_total n c with h | h
    · rw [min_eq_left h, Nat.sub_eq_zero_of_le h, List.range_zero, List.map_nil, List.append_nil]
    · rw [min_eq_right h, ← List.range_add, Nat.add_sub_cancel' h]

/-- **Concatenations agree piece by piece**, when the pieces have equal lengths. -/
theorem flatMap_inj {α β : Type*} {f g : α → List β} {l : List α}
    (hlen : ∀ x ∈ l, (f x).length = (g x).length) :
    l.flatMap f = l.flatMap g ↔ ∀ x ∈ l, f x = g x := by
  induction l with
  | nil => simp
  | cons x xs ih =>
    have hx := hlen x List.mem_cons_self
    have ih := ih fun y hy => hlen y (List.mem_cons_of_mem x hy)
    rw [List.flatMap_cons, List.flatMap_cons, List.forall_mem_cons, ← ih]
    constructor
    · intro h; exact List.append_inj h hx
    · rintro ⟨h1, h2⟩; rw [h1, h2]

/-- A list in pieces of `c` elements, the last one shorter where it does not come out even. -/
def pieces {α : Type*} (c : ℕ) (l : List α) : List (List α) :=
  (List.range (count l.length c)).map fun i => (l.drop (i * c)).take c

theorem pieces_nil {α : Type*} {c : ℕ} (hc : 0 < c) : pieces c ([] : List α) = [] := by
  rw [pieces, List.length_nil, count_zero hc, List.range_zero, List.map_nil]

/-- The first piece, and those of the rest. -/
theorem pieces_eq_cons {α : Type*} {c : ℕ} (hc : 0 < c) {l : List α} (hl : 0 < l.length) :
    pieces c l = l.take c :: pieces c (l.drop c) := by
  unfold pieces
  rw [count_succ hc hl, List.range_succ_eq_map, List.map_cons, List.map_map, Nat.zero_mul, List.drop_zero,
    List.length_drop]
  congr 1
  apply List.map_congr_left
  intro i _
  rw [Function.comp_apply, Nat.succ_mul, Nat.add_comm, ← List.drop_drop]

theorem length_pieces {α : Type*} (c : ℕ) (l : List α) : (pieces c l).length = count l.length c := by
  rw [pieces, List.length_map, List.length_range]

theorem length_le_of_mem_pieces {α : Type*} {c : ℕ} {l p : List α} (h : p ∈ pieces c l) : p.length ≤ c := by
  obtain ⟨i, -, rfl⟩ := List.mem_map.1 h
  exact List.length_take_le _ _

/-- **All pieces but the last are full.** -/
theorem length_getElem_pieces {α : Type*} {c : ℕ} (hc : 0 < c) {l : List α} {i : ℕ}
    (hi : i + 1 < (pieces c l).length) : (pieces c l)[i].length = c := by
  have hstart := start_lt hc (length_pieces c l ▸ hi)
  rw [Nat.succ_mul] at hstart
  unfold pieces
  rw [List.getElem_map, List.getElem_range, List.length_take, List.length_drop]
  omega

/-- **The pieces of a list concatenate to it.** -/
theorem flatten_pieces {α : Type*} {c : ℕ} (hc : 0 < c) (l : List α) : (pieces c l).flatten = l := by
  induction hn : l.length using Nat.strong_induction_on generalizing l with
  | _ n ih =>
    rcases Nat.eq_zero_or_pos l.length with h0 | hpos
    · rw [List.length_eq_zero_iff] at h0
      rw [h0, pieces_nil hc, List.flatten_nil]
    · have hrest := ih (l.drop c).length (by rw [List.length_drop]; omega) (l.drop c) rfl
      rw [pieces_eq_cons hc hpos, List.flatten_cons, hrest, List.take_append_drop]

/-- **Pieces put together come apart again.** -/
theorem pieces_flatten {α : Type*} {c : ℕ} (hc : 0 < c) {ps : List (List α)}
    (h : ∀ p ∈ ps, p.length = c) : pieces c ps.flatten = ps := by
  induction ps with
  | nil => exact pieces_nil hc
  | cons p ps ih =>
    have hp : p.length = c := h p List.mem_cons_self
    have ih := ih fun q hq => h q (List.mem_cons_of_mem p hq)
    have hlen : (p :: ps).flatten.length = c + ps.flatten.length := by
      rw [List.flatten_cons, List.length_append, hp]
    rw [pieces_eq_cons hc (by omega), List.flatten_cons, List.take_left' hp, List.drop_left' hp, ih]

theorem length_flatten {α : Type*} {c : ℕ} {ps : List (List α)} (h : ∀ p ∈ ps, p.length = c) :
    ps.flatten.length = c * ps.length := by
  rw [List.length_flatten, List.map_congr_left h, List.map_const', List.sum_replicate, smul_eq_mul, Nat.mul_comm]

/-- An element of a piece. -/
theorem getD_flatten {α : Type*} {c : ℕ} {ps : List (List α)} (h : ∀ p ∈ ps, p.length = c) (i : ℕ) {j : ℕ}
    (hj : j < c) (d : α) : ps.flatten.getD (c * i + j) d = (ps.getD i []).getD j d := by
  induction ps generalizing i with
  | nil => simp
  | cons p ps ih =>
    have hp : p.length = c := h p List.mem_cons_self
    have ih := ih fun q hq => h q (List.mem_cons_of_mem p hq)
    rw [List.flatten_cons]
    cases i with
    | zero =>
      rw [Nat.mul_zero, Nat.zero_add, List.getD_eq_getElem?_getD, List.getElem?_append_left (by omega),
        List.getD_cons_zero, List.getD_eq_getElem?_getD]
    | succ i =>
      have hsub : c * (i + 1) + j - p.length = c * i + j := by
        rw [hp, Nat.mul_succ]
        omega
      rw [List.getD_eq_getElem?_getD, List.getElem?_append_right (by rw [hp, Nat.mul_succ]; omega), hsub,
        List.getD_cons_succ, ← ih i, List.getD_eq_getElem?_getD]

/-- A function after one that numbers the elements. -/
theorem map_mapIdx {α β γ : Type*} (f : ℕ → α → β) (g : β → γ) (l : List α) :
    (l.mapIdx f).map g = l.mapIdx fun i x => g (f i x) := by
  apply List.ext_getElem
  · rw [List.length_map, List.length_mapIdx, List.length_mapIdx]
  · intro i h1 h2
    rw [List.getElem_map, List.getElem_mapIdx, List.getElem_mapIdx]

end Chunks
