import PWSat2OBC.Lib.Sequences
import PWSat2OBC.Spec.Deployment

/-!
# Executions, knives and waits of the deployment tasks

* `InOrder`: the log is made of complete executions of the steps and the steps before the
  current one. The knives then depend on the current step alone (`InOrder.knives_eq`).
* `Spaced`: behind each wait of two minutes the next step came at least two minutes of
  mission time later, net of the corrections between them.
-/

namespace PWSat2OBC

open Sequences

/-- What a step does to the knives. -/
def DeploymentStep.knives (k : Knives) : DeploymentStep → Knives
  | .enableMainThermalKnife => { k with main := true }
  | .disableMainThermalKnife => { k with main := false }
  | .enableRedundantThermalKnife => { k with redundant := true }
  | .disableRedundantThermalKnife => { k with redundant := false }
  | _ => k

/-- The call of a step does that and nothing else to the knives. -/
def Agrees (step : DeploymentStep) (call : Option PowerCall) : Prop :=
  ∀ k, (call.toList.foldl Knives.after k) = step.knives k

namespace Deployment

variable {steps : List DeploymentStep} {d : Deployment} {call : DeploymentStep → Option PowerCall}
  {time : ℤ}

structure InOrder (steps : List DeploymentStep) (d : Deployment) : Prop where
  executions : Executions steps d.step (d.log.map (·.step))
  step_le : d.step ≤ steps.length
  agrees : ∀ p ∈ d.log, Agrees p.step p.call

theorem inOrder_init : InOrder steps Deployment.init where
  executions := executions_nil
  step_le := Nat.zero_le _
  agrees := by
    intro p hp
    simp [Deployment.init] at hp

theorem InOrder.timeChanged (h : InOrder steps d) (c : ℤ) : InOrder steps (d.timeChanged c) :=
  ⟨h.executions, h.step_le, h.agrees⟩

theorem InOrder.restart (h : InOrder steps d) (hk : d.step = 0 ∨ steps.length ≤ d.step) :
    InOrder steps d.restart :=
  ⟨h.executions.restart hk, Nat.zero_le _, h.agrees⟩

/-- The two cases of a turn. -/
theorem turn_cases (steps : List DeploymentStep) (call : DeploymentStep → Option PowerCall) (time : ℤ)
    (d : Deployment) :
    (steps.length ≤ d.step ∧ d.turn steps call time = (d, false)) ∨
      ∃ step, steps[d.step]? = some step ∧ d.step < steps.length ∧
        d.turn steps call time =
          ({ d with
              step := d.step + 1
              nextStepAfter := step.nextStepAfter time
              log := d.log ++ [⟨step, time, d.corrections, call step⟩] },
            decide (step.nextStepAfter time ≤ time)) := by
  cases hs : steps[d.step]? with
  | none =>
    refine .inl ⟨List.getElem?_eq_none_iff.1 hs, ?_⟩
    rw [turn, hs]
  | some step =>
    obtain ⟨hlt, -⟩ := List.getElem?_eq_some_iff.1 hs
    refine .inr ⟨step, rfl, hlt, ?_⟩
    rw [turn, hs]

theorem InOrder.turn (h : InOrder steps d) (hcall : ∀ step, Agrees step (call step)) :
    InOrder steps (d.turn steps call time).1 := by
  rcases turn_cases steps call time d with ⟨-, heq⟩ | ⟨step, hs, hlt, heq⟩
  · rw [heq]
    exact h
  · rw [heq]
    refine ⟨?_, hlt, ?_⟩
    · rw [List.map_append]
      exact h.executions.next hs
    · intro p hp
      rcases List.mem_append.1 hp with hp | hp
      · exact h.agrees p hp
      · obtain rfl := List.mem_singleton.1 hp
        exact hcall step

/-- The steps performed explain the knives. -/
theorem knives_eq_foldl (hagrees : ∀ p ∈ d.log, Agrees p.step p.call) :
    d.knives = (d.log.map (·.step)).foldl DeploymentStep.knives Knives.off := by
  rw [Deployment.knives, calls]
  generalize Knives.off = k
  revert hagrees
  induction d.log generalizing k with
  | nil => intro _; rfl
  | cons p log ih =>
    intro hagrees
    have hp := hagrees p List.mem_cons_self k
    have ih := fun k => ih k fun q hq => hagrees q (List.mem_cons_of_mem p hq)
    rw [List.map_cons, List.foldl_cons, ← hp, ← ih]
    cases hc : p.call with
    | none => rw [List.filterMap_cons_none hc]; rfl
    | some c => rw [List.filterMap_cons_some hc]; rfl

/-- **The knives depend on the current step alone.** -/
theorem InOrder.knives_eq (h : InOrder steps d)
    (hoff : steps.foldl DeploymentStep.knives Knives.off = Knives.off) :
    d.knives = (steps.take d.step).foldl DeploymentStep.knives Knives.off := by
  rw [knives_eq_foldl h.agrees, h.executions.foldl hoff]

/-! ## Waits -/

/-- Two minutes, in milliseconds. -/
def twoMinutes : ℤ := 120000

structure Spaced (d : Deployment) : Prop where
  spaced : ∀ pre a b post, d.log = pre ++ a :: b :: post → a.step = .waitFor2mins →
    twoMinutes ≤ (b.time - a.time) - (b.corrections - a.corrections)
  waiting : ∀ p, d.log.getLast? = some p → p.step = .waitFor2mins →
    p.time + twoMinutes + (d.corrections - p.corrections) ≤ d.nextStepAfter

theorem spaced_init : Spaced Deployment.init where
  spaced := by
    intro pre a b post h
    simp [Deployment.init] at h
  waiting := by
    intro p h
    simp [Deployment.init] at h

/-- The deadline moves with the corrections. -/
theorem Spaced.timeChanged (h : Spaced d) (c : ℤ) : Spaced (d.timeChanged c) where
  spaced := h.spaced
  waiting := by
    intro p hp hwait
    have := h.waiting p hp hwait
    simp only [Deployment.timeChanged]
    omega

theorem Spaced.restart (h : Spaced d) (hlast : ∀ p, d.log.getLast? = some p → p.step ≠ .waitFor2mins) :
    Spaced d.restart where
  spaced := h.spaced
  waiting := fun p hp hwait => absurd hwait (hlast p hp)

/-- A step performed when it is due. -/
theorem Spaced.turn (h : Spaced d) (hdue : d.nextStepAfter ≤ time) :
    Spaced (d.turn steps call time).1 := by
  rcases turn_cases steps call time d with ⟨-, heq⟩ | ⟨step, hs, hlt, heq⟩
  · rw [heq]
    exact h
  rw [heq]
  constructor
  · intro pre a b post hlog hwait
    dsimp only at hlog
    rcases List.eq_nil_or_concat post with rfl | ⟨post', x, rfl⟩
    · -- the new step comes behind a wait
      have hsplit : d.log ++ [⟨step, time, d.corrections, call step⟩] = (pre ++ [a]) ++ [b] := by
        rw [hlog, List.append_assoc]
        rfl
      obtain ⟨hpre, hb⟩ := List.append_inj' hsplit rfl
      obtain rfl := List.singleton_inj.1 hb
      have hw := h.waiting a (by rw [hpre, List.getLast?_concat]) hwait
      show twoMinutes ≤ (time - a.time) - (d.corrections - a.corrections)
      omega
    · have hsplit : d.log ++ [⟨step, time, d.corrections, call step⟩] =
          (pre ++ a :: b :: post') ++ [x] := by
        rw [hlog, List.concat_eq_append, List.append_assoc]
        rfl
      obtain ⟨hpre, -⟩ := List.append_inj' hsplit rfl
      exact h.spaced pre a b post' hpre hwait
  · intro p hp hwait
    rw [List.getLast?_concat] at hp
    obtain rfl := Option.some.inj hp
    obtain rfl : step = .waitFor2mins := hwait
    simp only [DeploymentStep.nextStepAfter, twoMinutes]
    omega

end Deployment

end PWSat2OBC
