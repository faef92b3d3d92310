import PWSat2OBC.Proof.Deployment
import PWSat2OBC.Spec.DeploySolarArray

/-!
# Solar array deployment

`Kept` is the invariant: the steps are performed in order, a new execution starts only
when none is under way, and a step is performed only when it is due. `deployment_sequenced`
puts it together for every run.
-/

namespace PWSat2OBC

open Runs Sequences

namespace DeploySolarArrayTask

structure Kept (s : DeploySolarArrayTask) : Prop where
  inOrder : s.deployment.InOrder steps
  spaced : s.deployment.Spaced
  calls : ∀ p ∈ s.deployment.log, p.call = call p.step
  rest : s.isDeploying = false → s.deployment.step = 0 ∨ steps.length ≤ s.deployment.step
  due : s.pc ≠ .idle → s.deployment.nextStepAfter ≤ s.time

theorem agrees_call (step : DeploymentStep) : Agrees step (call step) := by
  intro k
  cases step <;> rfl

theorem kept_init (time : ℤ) : (init time).Kept where
  inOrder := Deployment.inOrder_init
  spaced := Deployment.spaced_init
  calls := by
    intro p hp
    simp [init, Deployment.init] at hp
  rest := fun _ => .inl rfl
  due := fun h => absurd rfl h

variable {s t : DeploySolarArrayTask}

/-- No execution ends with a wait. -/
theorem Kept.last_ne_wait (h : s.Kept) (hk : s.deployment.step = 0 ∨ steps.length ≤ s.deployment.step) :
    ∀ p, s.deployment.log.getLast? = some p → p.step ≠ .waitFor2mins := by
  intro p hp hwait
  have hlast : (s.deployment.log.map (·.step)).getLast? = some .waitFor2mins := by
    rw [List.getLast?_map, hp, Option.map_some, hwait]
  have := h.inOrder.executions.getLast? hk hlast
  exact absurd this (by decide)

/-- What `Update` does to the deployment: nothing, or a start when none is in progress. -/
theorem update_cases (s : DeploySolarArrayTask) :
    (s.update.deployment = s.deployment ∧
        (s.update.isDeploying = s.isDeploying ∨
          s.update.isDeploying = false ∧ steps.length ≤ s.deployment.step)) ∨
      (s.update.deployment = s.deployment.restart ∧ s.update.isDeploying = true ∧
        (s.isDeploying = false ∨ steps.length ≤ s.deployment.step)) := by
  unfold update
  by_cases hfin : steps.length ≤ s.deployment.step ∧ s.isDeploying
  · obtain ⟨hfull, -⟩ := id hfin
    dsimp only
    rw [if_pos hfin]
    split
    · exact .inr ⟨rfl, rfl, .inr hfull⟩
    · exact .inl ⟨rfl, .inr ⟨rfl, hfull⟩⟩
  · dsimp only
    rw [if_neg hfin]
    split
    · rename_i hstart
      exact .inr ⟨rfl, rfl, .inl (by simpa using hstart.2)⟩
    · exact .inl ⟨rfl, .inl rfl⟩

theorem update_frame (s : DeploySolarArrayTask) : s.update.pc = s.pc ∧ s.update.time = s.time := by
  unfold update
  dsimp only
  split_ifs <;> exact ⟨rfl, rfl⟩

theorem Kept.update (h : s.Kept) (hpc : s.pc = .idle) : s.update.Kept := by
  obtain ⟨hpc', -⟩ := update_frame s
  rcases update_cases s with ⟨hd, hdep⟩ | ⟨hd, hdep, hfree⟩
  · exact
      { inOrder := by rw [hd]; exact h.inOrder
        spaced := by rw [hd]; exact h.spaced
        calls := by rw [hd]; exact h.calls
        rest := by
          intro hoff
          rw [hd]
          rcases hdep with hsame | ⟨-, hfull⟩
          · exact h.rest (hsame ▸ hoff)
          · exact .inr hfull
        due := fun hne => absurd (hpc'.trans hpc) hne }
  · -- an execution starts
    have hk : s.deployment.step = 0 ∨ steps.length ≤ s.deployment.step := by
      rcases hfree with hoff | hfull
      · exact h.rest hoff
      · exact .inr hfull
    exact
      { inOrder := by rw [hd]; exact h.inOrder.restart hk
        spaced := by rw [hd]; exact h.spaced.restart (h.last_ne_wait hk)
        calls := by rw [hd]; exact h.calls
        rest := by
          intro hoff
          rw [hdep] at hoff
          exact Bool.noConfusion hoff
        due := fun hne => absurd (hpc'.trans hpc) hne }

theorem Kept.turn (h : s.Kept) (hpc : s.pc ≠ .idle) (hdep : s.isDeploying = true) :
    ({ s with
        deployment := (s.deployment.turn steps call s.time).1
        pc := if (s.deployment.turn steps call s.time).2 then .acting else .idle } :
      DeploySolarArrayTask).Kept where
  inOrder := h.inOrder.turn agrees_call
  spaced := h.spaced.turn (h.due hpc)
  calls := by
    rcases Deployment.turn_cases steps call s.time s.deployment with ⟨-, heq⟩ | ⟨step, -, -, heq⟩
    · rw [heq]
      exact h.calls
    · rw [heq]
      intro p hp
      rcases List.mem_append.1 hp with hp | hp
      · exact h.calls p hp
      · obtain rfl := List.mem_singleton.1 hp
        rfl
  rest := by
    intro hoff
    rw [hdep] at hoff
    exact Bool.noConfusion hoff
  due := by
    intro hne
    rcases Deployment.turn_cases steps call s.time s.deployment with ⟨-, heq⟩ | ⟨step, -, -, heq⟩
    · rw [heq] at hne
      exact absurd rfl hne
    · rw [heq] at hne ⊢
      by_contra hlt
      exact hne (if_neg (by simpa using hlt))

/-- The loop acts only while a deployment is on. -/
structure Active (s : DeploySolarArrayTask) : Prop where
  kept : s.Kept
  deploying : s.pc ≠ .idle → s.isDeploying = true

theorem Active.step (h : s.Active) {e : DeploySolarArrayEvent} (hs : s.step e = some t) : t.Active := by
  obtain ⟨hk, hdep⟩ := h
  cases e with
  | deploySolarArray =>
    obtain rfl := Option.some.inj hs
    exact ⟨⟨hk.inOrder, hk.spaced, hk.calls, hk.rest, hk.due⟩, hdep⟩
  | setTime time =>
    obtain ⟨hpc, heq⟩ := Option.ite_none_right_eq_some.1 hs
    obtain rfl := Option.some.inj heq
    exact ⟨⟨hk.inOrder, hk.spaced, hk.calls, hk.rest, fun hne => absurd hpc hne⟩, hdep⟩
  | correctTime elapsed c =>
    obtain ⟨-, heq⟩ := Option.ite_none_right_eq_some.1 hs
    obtain rfl := Option.some.inj heq
    refine ⟨⟨hk.inOrder.timeChanged c, hk.spaced.timeChanged c, hk.calls, hk.rest, ?_⟩, hdep⟩
    intro hne
    have := hk.due hne
    simp only [Deployment.timeChanged]
    omega
  | update =>
    obtain ⟨hpc, heq⟩ := Option.ite_none_right_eq_some.1 hs
    obtain rfl := Option.some.inj heq
    obtain ⟨hpc', -⟩ := update_frame s
    exact ⟨hk.update hpc, fun hne => absurd (hpc'.trans hpc) hne⟩
  | condition =>
    obtain ⟨hpc, heq⟩ := Option.ite_none_right_eq_some.1 hs
    obtain rfl := Option.some.inj heq
    -- the loop goes on to `Action` only if the condition held
    have hcond : ∀ {p : Prop} [Decidable p],
        (if p then DeploySolarArrayPc.ready else .idle) ≠ .idle → p := by
      intro p _ hne
      by_contra hp
      exact hne (if_neg hp)
    refine ⟨⟨hk.inOrder, hk.spaced, hk.calls, hk.rest, fun hne => ?_⟩, fun hne => (hcond hne).1⟩
    have hdue := (hcond hne).2
    simp only [Deployment.isDue, decide_eq_true_eq] at hdue
    exact hdue.1
  | turn =>
    obtain ⟨hpc, heq⟩ := Option.ite_none_right_eq_some.1 hs
    obtain rfl := Option.some.inj heq
    have hne : s.pc ≠ .idle := by
      rcases hpc with hpc | hpc <;> rw [hpc] <;> decide
    exact ⟨hk.turn hne (hdep hne), fun _ => hdep hne⟩

/-- The knives are never on together before any step. -/
theorem knives_apart : ∀ k ≤ steps.length,
    ¬ (((steps.take k).foldl DeploymentStep.knives Knives.off).main = true ∧
      ((steps.take k).foldl DeploymentStep.knives Knives.off).redundant = true) := by decide

end DeploySolarArrayTask

end PWSat2OBC
