import Mathlib.Tactic

/-!
# Executions of a list of steps

`Executions steps k log`: the log consists of complete executions of `steps`, and of the
first `k` steps of one more. A step performed in turn keeps it (`Executions.next`), and so
does a start from the first step where none is under way (`Executions.restart`).

What the log does to a state depends on `k` alone when a complete execution leaves the
state as it was (`Executions.foldl`).
-/

namespace Sequences

variable {σ τ : Type*} {steps : List σ} {k : ℕ} {log : List σ}

def Executions (steps : List σ) (k : ℕ) (log : List σ) : Prop :=
  ∃ n, log = (List.replicate n steps).flatten ++ steps.take k

theorem executions_nil : Executions steps 0 [] := ⟨0, by simp⟩

theorem Executions.next (h : Executions steps k log) {x : σ} (hx : steps[k]? = some x) :
    Executions steps (k + 1) (log ++ [x]) := by
  obtain ⟨n, rfl⟩ := h
  refine ⟨n, ?_⟩
  rw [List.take_add_one, hx, List.append_assoc]
  rfl

theorem Executions.restart (h : Executions steps k log) (hk : k = 0 ∨ steps.length ≤ k) :
    Executions steps 0 log := by
  obtain ⟨n, rfl⟩ := h
  rcases hk with rfl | hk
  · exact ⟨n, rfl⟩
  · refine ⟨n + 1, ?_⟩
    rw [List.take_of_length_le hk, List.replicate_succ', List.flatten_append, List.flatten_singleton,
      List.take_zero, List.append_nil]

/-- Between two executions the last step was the last of the list. -/
theorem Executions.getLast? (h : Executions steps k log) (hk : k = 0 ∨ steps.length ≤ k) {x : σ}
    (hx : log.getLast? = some x) : steps.getLast? = some x := by
  obtain ⟨n, rfl⟩ := h.restart hk
  rw [List.take_zero, List.append_nil] at hx
  cases n with
  | zero => simp at hx
  | succ n =>
    rw [List.replicate_succ', List.flatten_append, List.flatten_singleton] at hx
    cases hs : steps.getLast? with
    | none =>
      obtain rfl := List.getLast?_eq_none_iff.1 hs
      have hnil : (List.replicate n ([] : List σ)).flatten = [] := by simp
      rw [hnil] at hx
      simp at hx
    | some y =>
      rw [List.getLast?_append, hs] at hx
      exact hx

/-- **Complete executions do not show.** -/
theorem Executions.foldl (h : Executions steps k log) {f : τ → σ → τ} {t : τ}
    (hcomplete : steps.foldl f t = t) : log.foldl f t = (steps.take k).foldl f t := by
  obtain ⟨n, rfl⟩ := h
  rw [List.foldl_append]
  congr 1
  induction n with
  | zero => rfl
  | succ n ih => rw [List.replicate_succ, List.flatten_cons, List.foldl_append, hcomplete, ih]

end Sequences
