import Mathlib.Tactic

/-!
# Runs of partial step functions

A system is a partial step function `step : σ → ε → Option σ` (`none`: the event is
not enabled). `Run step ok s₀ es s`: the events `es` lead from `s₀` to `s`, and each
of them satisfied the side condition `ok` in the state it was taken in. `exec` runs
a concrete list of events.

* `Run.inv`, `Run.inv_trace`: what every step preserves holds at the end of every run,
  for invariants of the state and for invariants that also read the events so far.
* `since p r es`: a `p`-event occurred and no `r`-event after it.
* `Guarded q p r es`: no `q`-event happens while `since p r`. Conditions of this kind speak
  of the order of steps alone, and they hold of every prefix too (`Guarded.of_snoc`).
* `Run.inv_of_prefix`: invariants of the runs whose events are in such an order.
-/

namespace Runs

variable {σ ε : Type*} {step : σ → ε → Option σ} {ok : σ → ε → Prop}

/-- The events `es` lead from `s₀` to the final state, all under the condition `ok`. -/
inductive Run (step : σ → ε → Option σ) (ok : σ → ε → Prop) (s₀ : σ) : List ε → σ → Prop
  | nil : Run step ok s₀ [] s₀
  | snoc {es : List ε} {s t : σ} {e : ε} : Run step ok s₀ es s → ok s e → step s e = some t →
      Run step ok s₀ (es ++ [e]) t

/-- No side condition. -/
def always (_ : σ) (_ : ε) : Prop := True

instance (s : σ) (e : ε) : Decidable (always s e) := inferInstanceAs (Decidable True)

/-- **Invariants of states.** -/
theorem Run.inv {I : σ → Prop} {s₀ : σ} (h0 : I s₀)
    (hstep : ∀ s e t, I s → ok s e → step s e = some t → I t) {es : List ε} {s : σ}
    (h : Run step ok s₀ es s) : I s := by
  induction h with
  | nil => exact h0
  | snoc _ hok hs ih => exact hstep _ _ _ ih hok hs

/-- **Invariants of states and events.** -/
theorem Run.inv_trace {I : List ε → σ → Prop} {s₀ : σ} (h0 : I [] s₀)
    (hstep : ∀ es s e t, I es s → ok s e → step s e = some t → I (es ++ [e]) t) {es : List ε} {s : σ}
    (h : Run step ok s₀ es s) : I es s := by
  induction h with
  | nil => exact h0
  | snoc _ hok hs ih => exact hstep _ _ _ _ ih hok hs

/-- **Invariants under a condition on the order of events** that holds of every prefix. -/
theorem Run.inv_of_prefix {I : List ε → σ → Prop} {C : List ε → Prop} {s₀ : σ}
    (hclosed : ∀ es e, C (es ++ [e]) → C es) (h0 : I [] s₀)
    (hstep : ∀ es s e t, C (es ++ [e]) → I es s → ok s e → step s e = some t → I (es ++ [e]) t)
    {es : List ε} {s : σ} (h : Run step ok s₀ es s) (hC : C es) : I es s := by
  induction h with
  | nil => exact h0
  | snoc _ hok hs ih => exact hstep _ _ _ _ hC (ih (hclosed _ _ hC)) hok hs

/-- Runs compose. -/
theorem Run.trans {s₀ s t : σ} {es es' : List ε} (h : Run step ok s₀ es s)
    (h' : Run step ok s es' t) : Run step ok s₀ (es ++ es') t := by
  induction h' with
  | nil => rwa [List.append_nil]
  | snoc _ hok hs ih => rw [← List.append_assoc]; exact .snoc ih hok hs

/-- A run after a first event. -/
theorem Run.cons {s t u : σ} {e : ε} {es : List ε} (hok : ok s e) (hs : step s e = some t)
    (h : Run step ok t es u) : Run step ok s (e :: es) u :=
  (Run.nil.snoc hok hs).trans h

theorem Run.eq_of_nil {s₀ s : σ} (h : Run step ok s₀ [] s) : s = s₀ := by
  generalize hes : [] = es at h
  cases h with
  | nil => rfl
  | snoc _ _ _ => exact absurd hes (by simp)

/-- The last event of a run. -/
theorem Run.unsnoc {s₀ s : σ} {es : List ε} {e : ε} (h : Run step ok s₀ (es ++ [e]) s) :
    ∃ t, Run step ok s₀ es t ∧ ok t e ∧ step t e = some s := by
  generalize hes : es ++ [e] = es' at h
  cases h with
  | nil => exact absurd hes (by simp)
  | snoc hrun hok hs =>
    obtain ⟨rfl, he⟩ := List.append_inj' hes rfl
    obtain rfl := List.singleton_inj.1 he
    exact ⟨_, hrun, hok, hs⟩

/-- A run passes through a state after each of its events. -/
theorem Run.split {s₀ s : σ} {es es' : List ε} (h : Run step ok s₀ (es ++ es') s) :
    ∃ t, Run step ok s₀ es t ∧ Run step ok t es' s := by
  induction es' using List.reverseRecOn generalizing s with
  | nil =>
    rw [List.append_nil] at h
    exact ⟨s, h, .nil⟩
  | append_singleton es' e ih =>
    rw [← List.append_assoc] at h
    obtain ⟨t, hrun, hok, hs⟩ := h.unsnoc
    obtain ⟨u, h1, h2⟩ := ih hrun
    exact ⟨u, h1, .snoc h2 hok hs⟩

/-- The first event of a run. -/
theorem Run.uncons {s₀ s : σ} {e : ε} {es : List ε} (h : Run step ok s₀ (e :: es) s) :
    ∃ t, ok s₀ e ∧ step s₀ e = some t ∧ Run step ok t es s := by
  obtain ⟨t, h1, h2⟩ := Run.split (show Run step ok s₀ ([e] ++ es) s from h)
  obtain ⟨u, hnil, hok, hs⟩ := Run.unsnoc (show Run step ok s₀ ([] ++ [e]) t from h1)
  obtain rfl := hnil.eq_of_nil
  exact ⟨t, hok, hs, h2⟩

/-- Run a concrete list of events, checking `ok` at each. -/
def exec (step : σ → ε → Option σ) (ok : σ → ε → Prop) [∀ s e, Decidable (ok s e)] :
    σ → List ε → Option σ
  | s, [] => some s
  | s, e :: es => if ok s e then (step s e).bind fun t => exec step ok t es else none

/-- A successful execution is a run. -/
theorem run_of_exec [∀ s e, Decidable (ok s e)] {s₀ : σ} (es : List ε) {t : σ}
    (h : exec step ok s₀ es = some t) : Run step ok s₀ es t := by
  induction es generalizing s₀ with
  | nil => rw [exec, Option.some.injEq] at h; subst h; exact .nil
  | cons e es ih =>
    rw [exec] at h
    split at h
    · rename_i hok
      obtain ⟨s, hs, ht⟩ := Option.bind_eq_some_iff.1 h
      have h1 : Run step ok s₀ ([] ++ [e]) s := .snoc .nil hok hs
      exact h1.trans (ih ht)
    · exact absurd h (by simp)

/-- The same where only a property of the final state matters. -/
theorem exists_run_of_exec [∀ s e, Decidable (ok s e)] {s₀ : σ} (es : List ε) {P : σ → Prop}
    (h : ∃ t ∈ exec step ok s₀ es, P t) : ∃ t, Run step ok s₀ es t ∧ P t := by
  obtain ⟨t, ht, hP⟩ := h
  exact ⟨t, run_of_exec es ht, hP⟩

/-! ## Events since -/

/-- A `p`-event occurred, and no `r`-event after the last one. -/
def since (p r : ε → Bool) (es : List ε) : Bool :=
  es.foldl (fun b e => if p e then true else if r e then false else b) false

@[simp] theorem since_nil (p r : ε → Bool) : since p r [] = false := rfl

@[simp] theorem since_snoc (p r : ε → Bool) (es : List ε) (e : ε) :
    since p r (es ++ [e]) = if p e then true else if r e then false else since p r es := by
  simp [since, List.foldl_append]

/-- Other events change nothing. -/
theorem since_append (p r : ε → Bool) (es : List ε) {es' : List ε}
    (h : ∀ e ∈ es', p e = false ∧ r e = false) : since p r (es ++ es') = since p r es := by
  induction es' using List.reverseRecOn with
  | nil => rw [List.append_nil]
  | append_singleton es' e ih =>
    obtain ⟨hp, hr⟩ := h e (List.mem_append_right _ (List.mem_singleton_self e))
    rw [← List.append_assoc, since_snoc, hp, hr]
    exact ih fun e' he' => h e' (List.mem_append_left _ he')

/-- No `q`-event happens after a `p`-event before an `r`-event has intervened. -/
def Guarded (q p r : ε → Bool) (es : List ε) : Prop :=
  ∀ pre e post, es = pre ++ e :: post → q e = true → since p r pre = false

theorem guarded_nil (q p r : ε → Bool) : Guarded q p r [] := by
  intro pre e post h; exact absurd h (by simp)

/-- `Guarded` grows by one event. -/
theorem Guarded.snoc {q p r : ε → Bool} {es : List ε} {e : ε} (h : Guarded q p r es)
    (he : q e = true → since p r es = false) : Guarded q p r (es ++ [e]) := by
  intro pre e' post heq hq
  rcases List.eq_nil_or_concat post with rfl | ⟨post', x, rfl⟩
  · obtain ⟨rfl, h2⟩ := List.append_inj' heq rfl
    rw [List.cons.injEq] at h2
    rw [← h2.1] at hq
    exact he hq
  · rw [List.concat_eq_append, ← List.cons_append, ← List.append_assoc] at heq
    exact h pre e' post' (List.append_inj' heq rfl).1 hq

/-- The order holds of the events before the last one, and the last one obeys it. -/
theorem Guarded.of_snoc {q p r : ε → Bool} {es : List ε} {e : ε} (h : Guarded q p r (es ++ [e])) :
    Guarded q p r es ∧ (q e = true → since p r es = false) := by
  refine ⟨fun pre e' post heq hq => ?_, h es e [] rfl⟩
  exact h pre e' (post ++ [e]) (by rw [heq]; simp) hq

/-- The order of a concrete list of events, position by position. -/
theorem guarded_iff {q p r : ε → Bool} {es : List ε} :
    Guarded q p r es ↔ ∀ n : Fin es.length, q (es.get n) = true → since p r (es.take n) = false := by
  constructor
  · intro h n hq
    refine h (es.take n) (es.get n) (es.drop (n + 1)) ?_ hq
    rw [List.get_eq_getElem, List.getElem_cons_drop, List.take_append_drop]
  · intro h pre e post heq hq
    subst heq
    have hn := h ⟨pre.length, by simp⟩
    simp only [List.get_eq_getElem, List.getElem_append_right le_rfl, Nat.sub_self,
      List.getElem_cons_zero, List.take_left'] at hn
    exact hn hq

instance (q p r : ε → Bool) (es : List ε) : Decidable (Guarded q p r es) :=
  decidable_of_iff _ guarded_iff.symm

/-- A `p`-event followed by no `r`-event. -/
theorem since_of_mem {p r : ε → Bool} {pre post : List ε} {e : ε} (he : p e = true)
    (hpost : ∀ x ∈ post, r x = false) : since p r (pre ++ e :: post) = true := by
  induction post using List.reverseRecOn with
  | nil => simp [he]
  | append_singleton post x ih =>
    have hx := hpost x (by simp)
    have ih := ih fun y hy => hpost y (by simp [hy])
    rw [← List.cons_append, ← List.append_assoc, since_snoc, ih, hx]
    simp

/-- After a `p`-event there is no `q`-event up to the next `r`-event. -/
theorem Guarded.none_after {q p r : ε → Bool} {es : List ε} (h : Guarded q p r es)
    {pre post : List ε} {e : ε} (heq : es = pre ++ e :: post) (he : p e = true)
    (hpost : ∀ x ∈ post, r x = false) : ∀ x ∈ post, q x = false := by
  intro x hx
  obtain ⟨before, after, rfl⟩ := List.append_of_mem hx
  by_contra hq
  have hsince := h (pre ++ e :: before) x after (by rw [heq]; simp) (by simpa using hq)
  rw [since_of_mem he fun y hy => hpost y (by simp [hy])] at hsince
  exact Bool.noConfusion hsince

end Runs
