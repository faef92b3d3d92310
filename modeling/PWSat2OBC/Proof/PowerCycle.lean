import Mathlib.Tactic
import PWSat2OBC.Spec.PowerCycle

/-!
# The periodic power cycle waits

`SafeModeInProgress` asks the scrubber of the secondary slots, so the power is cut also while the
safe mode is being rewritten. And what begins between the condition and the action is cut off, too.

* `waited_run`: in every run in which the condition is not left to the flag of the safe mode, and
  nothing begins between condition and action, the power cycle waits for everything.
* `cut_of_not_keepsPower`: each other step can be followed by a power cycle that did not wait.
-/

namespace PWSat2OBC

namespace PeriodicPowerCycle

open Runs

variable {s t : PeriodicPowerCycle}

/-! ## The condition -/

/-- A reason not to cut the power, apart from the safe mode. -/
def Blocked (s : PeriodicPowerCycle) : Prop :=
  (∀ b ∈ s.bootTime, s.time - b < powerCycleTime) ∨ s.scrubbing .bootloader = true ∨
    s.scrubbing .primarySlots = true ∨ s.scrubbing .secondarySlots = true ∨ s.currentExperiment.isSome = true

instance (s : PeriodicPowerCycle) : Decidable (Blocked s) :=
  inferInstanceAs (Decidable (_ ∨ _ ∨ _ ∨ _ ∨ _))

theorem permits_iff {b : ℤ} (hboot : s.bootTime = some b) : s.permits b = true ↔ ¬ Blocked s := by
  have hforall : (∀ b' ∈ s.bootTime, s.time - b' < powerCycleTime) ↔ s.time - b < powerCycleTime := by
    rw [hboot]
    constructor
    · exact fun h => h b rfl
    · intro h b' hb'
      rwa [← Option.some.inj hb']
  rw [Blocked, hforall, permits, OBCScrubbing.bootloaderInProgress, OBCScrubbing.primarySlotsInProgress,
    OBCScrubbing.failsafeSlotsInProgress, OBCScrubbing.safeModeInProgress]
  by_cases htime : s.time - b < powerCycleTime
  · simp [htime]
  · cases s.scrubbing .bootloader <;> cases s.scrubbing .primarySlots <;> cases s.scrubbing .secondarySlots <;>
      cases s.currentExperiment <;> simp [htime]

/-- The condition is true exactly when nothing apart from the safe mode speaks against it. -/
theorem condition_iff (s : PeriodicPowerCycle) : s.condition.1 = true ↔ ¬ Blocked s := by
  rw [condition]
  cases hboot : s.bootTime with
  | none =>
    have hblocked : Blocked s := by
      left
      rw [hboot]
      exact fun b hb => absurd hb.symm (Option.some_ne_none b)
    exact ⟨fun h => absurd h Bool.false_ne_true, fun h => absurd hblocked h⟩
  | some b => exact permits_iff hboot

/-- With a boot time the condition changes nothing. -/
theorem condition_eq {b : ℤ} (hboot : s.bootTime = some b) : s.condition = (s.permits b, s) := by
  rw [condition, hboot]

/-! ## Every power cycle waits -/

/-- Nothing is in progress at a power cycle, and the time has come. -/
def Waited (s : PeriodicPowerCycle) : Prop :=
  ∀ c ∈ s.cycles, (∀ k, c.scrubbing k = false) ∧ c.currentExperiment = none ∧
    ∃ passed ∈ c.passed, powerCycleTime ≤ passed

/-- The safe mode is not being rewritten when nothing else speaks against the power cycle, and nothing
begins between the condition and the action. -/
def KeepsPower (s : PeriodicPowerCycle) : Event → Prop
  | .evaluate => s.scrubbing .safeMode = true → Blocked s
  | .begins _ => s.runnable = false
  | .experiment current => current.isSome = true → s.runnable = false
  | _ => True

instance (s : PeriodicPowerCycle) : ∀ e, Decidable (KeepsPower s e)
  | .evaluate => inferInstanceAs (Decidable (s.scrubbing .safeMode = true → Blocked s))
  | .begins _ => inferInstanceAs (Decidable (s.runnable = false))
  | .experiment current => inferInstanceAs (Decidable (current.isSome = true → s.runnable = false))
  | .tick _ => inferInstanceAs (Decidable True)
  | .timeChanged _ => inferInstanceAs (Decidable True)
  | .setTime _ => inferInstanceAs (Decidable True)
  | .execute => inferInstanceAs (Decidable True)
  | .ends _ => inferInstanceAs (Decidable True)

/-- The boot time is the mission time of the first loop iteration, with all corrections since. -/
structure Booted (s : PeriodicPowerCycle) : Prop where
  recorded : ∀ b, s.bootTime = some b → s.bootedAt = some (b - s.correction)

/-- When the action comes next nothing is in progress, and the time has come. -/
structure Ready (s : PeriodicPowerCycle) : Prop where
  scrubbing : s.runnable = true → ∀ k, s.scrubbing k = false
  experiment : s.runnable = true → s.currentExperiment = none
  passed : s.runnable = true → ∃ n ∈ s.bootedAt, powerCycleTime ≤ s.evaluatedAt - n

theorem booted_init (time : ℤ) : Booted (init time) :=
  ⟨fun b hb => absurd hb.symm (Option.some_ne_none b)⟩

theorem booted_step {e : Event} (h : Booted s) (hs : step s e = some t) : Booted t := by
  refine ⟨fun b hb => ?_⟩
  cases e with
  | tick milliseconds =>
    obtain rfl := Option.some.inj hs
    exact h.recorded b hb
  | timeChanged timeCorrection =>
    -- the boot time and the mission time are moved alike
    obtain rfl := Option.some.inj hs
    obtain ⟨b', hb', rfl⟩ := Option.map_eq_some_iff.1 hb
    rw [add_sub_add_right_eq_sub]
    exact h.recorded b' hb'
  | setTime time =>
    obtain rfl := Option.some.inj hs
    exact h.recorded b hb
  | evaluate =>
    simp only [step, Option.ite_none_left_eq_some, Option.some.injEq] at hs
    obtain ⟨-, rfl⟩ := hs
    cases hboot : s.bootTime with
    | none =>
      simp only [condition, hboot] at hb ⊢
      obtain rfl := Option.some.inj hb
      rw [time, add_sub_cancel_right]
    | some b' =>
      rw [condition_eq hboot] at hb ⊢
      exact h.recorded b hb
  | execute =>
    simp only [step, Option.ite_none_right_eq_some, Option.some.injEq] at hs
    obtain ⟨-, rfl⟩ := hs
    exact h.recorded b hb
  | begins scrubber =>
    obtain rfl := Option.some.inj hs
    exact h.recorded b hb
  | ends scrubber =>
    obtain rfl := Option.some.inj hs
    exact h.recorded b hb
  | experiment current =>
    obtain rfl := Option.some.inj hs
    exact h.recorded b hb

/-- Nothing is asked of a state in which the action does not come next. -/
theorem Ready.of_not_runnable (h : s.runnable = false) : Ready s := by
  have hnot : ¬ s.runnable = true := by
    rw [h]
    exact Bool.false_ne_true
  exact ⟨fun hrunnable => absurd hrunnable hnot, fun hrunnable => absurd hrunnable hnot,
    fun hrunnable => absurd hrunnable hnot⟩

/-- What the condition has found. -/
theorem Booted.passed (h : Booted s) (hnot : ¬ Blocked s) :
    ∃ n ∈ s.bootedAt, powerCycleTime ≤ s.elapsed - n := by
  simp only [Blocked, not_or, not_forall] at hnot
  obtain ⟨⟨b, hb, htime⟩, -⟩ := hnot
  refine ⟨b - s.correction, h.recorded b hb, ?_⟩
  rw [time] at htime
  omega

theorem ready_step {e : Event} (h : Ready s) (hbooted : Booted s) (hok : KeepsPower s e) (hs : step s e = some t) :
    Ready t := by
  cases e with
  | tick milliseconds =>
    obtain rfl := Option.some.inj hs
    exact ⟨h.scrubbing, h.experiment, h.passed⟩
  | timeChanged timeCorrection =>
    obtain rfl := Option.some.inj hs
    exact ⟨h.scrubbing, h.experiment, h.passed⟩
  | setTime time =>
    obtain rfl := Option.some.inj hs
    exact ⟨h.scrubbing, h.experiment, h.passed⟩
  | evaluate =>
    simp only [step, Option.ite_none_left_eq_some, Option.some.injEq] at hs
    obtain ⟨-, rfl⟩ := hs
    cases hboot : s.bootTime with
    | none =>
      simp only [condition, hboot]
      exact .of_not_runnable rfl
    | some b =>
      rw [condition_eq hboot]
      have hnot (hrunnable : s.permits b = true) : ¬ Blocked s := (permits_iff hboot).1 hrunnable
      -- the condition asks for three of the scrubbers only
      refine ⟨fun hrunnable k => ?_, fun hrunnable => ?_, fun hrunnable => hbooted.passed (hnot hrunnable)⟩
      · have hclear := hnot hrunnable
        have hsafe : s.scrubbing .safeMode = false := Bool.eq_false_iff.2 fun hsafe => hclear (hok hsafe)
        simp only [Blocked, not_or, Bool.not_eq_true] at hclear
        cases k with
        | primarySlots => exact hclear.2.2.1
        | secondarySlots => exact hclear.2.2.2.1
        | bootloader => exact hclear.2.1
        | safeMode => exact hsafe
      · have hclear := hnot hrunnable
        simp only [Blocked, not_or, Bool.not_eq_true, Option.isSome_eq_false_iff, Option.isNone_iff_eq_none] at hclear
        exact hclear.2.2.2.2
  | execute =>
    simp only [step, Option.ite_none_right_eq_some, Option.some.injEq] at hs
    obtain ⟨-, rfl⟩ := hs
    exact .of_not_runnable rfl
  | begins scrubber =>
    obtain rfl := Option.some.inj hs
    exact .of_not_runnable hok
  | ends scrubber =>
    obtain rfl := Option.some.inj hs
    refine ⟨fun hrunnable k => ?_, h.experiment, h.passed⟩
    by_cases hk : k = scrubber
    · rw [hk]
      exact Function.update_self scrubber false s.scrubbing
    · exact (Function.update_of_ne hk false s.scrubbing).trans (h.scrubbing hrunnable k)
  | experiment current =>
    obtain rfl := Option.some.inj hs
    refine ⟨h.scrubbing, fun hrunnable => ?_, h.passed⟩
    cases current with
    | none => rfl
    | some code =>
      have hnot : s.runnable = false := hok rfl
      exact absurd (hnot.symm.trans hrunnable) Bool.false_ne_true

/-- Only the action cuts the power. -/
theorem step_cycles {e : Event} (hs : step s e = some t) :
    t.cycles = s.cycles ∨ s.runnable = true ∧
      t.cycles = s.cycles ++ [⟨s.scrubbing, s.currentExperiment, s.bootedAt.map (s.evaluatedAt - ·)⟩] := by
  cases e with
  | evaluate =>
    simp only [step, Option.ite_none_left_eq_some, Option.some.injEq] at hs
    obtain ⟨-, rfl⟩ := hs
    left
    cases hboot : s.bootTime with
    | none => simp only [condition, hboot]
    | some b => rw [condition_eq hboot]
  | execute =>
    simp only [step, Option.ite_none_right_eq_some, Option.some.injEq] at hs
    obtain ⟨hrunnable, rfl⟩ := hs
    exact Or.inr ⟨hrunnable, rfl⟩
  | _ =>
    obtain rfl := Option.some.inj hs
    exact Or.inl rfl

theorem waited_step {e : Event} (h : Waited s) (hready : Ready s) (hs : step s e = some t) : Waited t := by
  intro c hc
  rcases step_cycles hs with heq | ⟨hrunnable, heq⟩
  · rw [heq] at hc
    exact h c hc
  · rw [heq] at hc
    rcases List.mem_append.1 hc with hc | hc
    · exact h c hc
    · rw [List.mem_singleton.1 hc]
      obtain ⟨n, hn, hpassed⟩ := hready.passed hrunnable
      refine ⟨hready.scrubbing hrunnable, hready.experiment hrunnable, s.evaluatedAt - n, ?_, hpassed⟩
      rw [show s.bootedAt = some n from hn]
      rfl

/-- **The power cycle waits for the scrubbers, the experiments and its time.** -/
theorem waited_run {time : ℤ} {es : List Event} (hrun : Run step KeepsPower (init time) es s) : Waited s := by
  have hready : Ready (init time) := .of_not_runnable rfl
  have hwaited : Waited (init time) := fun _ hc => absurd hc List.not_mem_nil
  have hinv : Booted s ∧ Ready s ∧ Waited s :=
    hrun.inv (I := fun u => Booted u ∧ Ready u ∧ Waited u) ⟨booted_init time, hready, hwaited⟩
      fun _ _ _ h hok hs => ⟨booted_step h.1 hs, ready_step h.2.1 h.1 hok hs, waited_step h.2.2 h.2.1 hs⟩
  exact hinv.2.2

/-! ## Power cycles that do not wait -/

/-- A power cycle with a scrubber in progress, or with an experiment. -/
theorem not_waited {c : PowerCycled} (hc : c ∈ s.cycles)
    (hbusy : (∃ k, c.scrubbing k = true) ∨ c.currentExperiment.isSome = true) : ¬ Waited s := by
  intro h
  obtain ⟨hscrubbing, hnone, -⟩ := h c hc
  rcases hbusy with ⟨k, hk⟩ | hsome
  · rw [hscrubbing k] at hk
    exact absurd hk Bool.false_ne_true
  · rw [hnone] at hsome
    exact absurd hsome Bool.false_ne_true

/-- Where the condition fails the action cuts the power without waiting. -/
theorem cut_of_not_keepsPower {e : Event} (hnot : ¬ KeepsPower s e) (hs : step s e = some t) :
    ∃ u, Run step always s [e, .execute] u ∧ ¬ Waited u := by
  have hbusy : t.runnable = true ∧ ((∃ k, t.scrubbing k = true) ∨ t.currentExperiment.isSome = true) := by
    cases e with
    | evaluate =>
      simp only [step, Option.ite_none_left_eq_some, Option.some.injEq] at hs
      obtain ⟨-, rfl⟩ := hs
      simp only [KeepsPower, not_forall] at hnot
      obtain ⟨hsafe, hclear⟩ := hnot
      refine ⟨(condition_iff s).2 hclear, Or.inl ⟨.safeMode, ?_⟩⟩
      cases hboot : s.bootTime with
      | none =>
        simp only [condition, hboot]
        exact hsafe
      | some b =>
        rw [condition_eq hboot]
        exact hsafe
    | begins scrubber =>
      obtain rfl := Option.some.inj hs
      exact ⟨Bool.not_eq_false _ ▸ hnot, Or.inl ⟨scrubber, Function.update_self scrubber true s.scrubbing⟩⟩
    | experiment current =>
      obtain rfl := Option.some.inj hs
      simp only [KeepsPower, not_forall] at hnot
      obtain ⟨hsome, hrunnable⟩ := hnot
      exact ⟨Bool.not_eq_false _ ▸ hrunnable, Or.inr hsome⟩
    | _ => exact absurd trivial hnot
  obtain ⟨hrunnable, hbusy⟩ := hbusy
  -- the action does not look again
  have hexecute : step t .execute = some { t.action with runnable := false } := if_pos hrunnable
  have hrun : Run step always s ([e] ++ [.execute]) { t.action with runnable := false } :=
    .snoc (show Run step always s ([] ++ [e]) t from .snoc .nil trivial hs) trivial hexecute
  exact ⟨_, hrun, not_waited (List.mem_append_right _ (List.mem_singleton_self _)) hbusy⟩

/-- A power cycle 23 hours after the first loop iteration, with the safe mode scrubbed in between. -/
theorem waited_run_day : ∃ s, Run step KeepsPower (init 5000)
    [.evaluate, .begins .safeMode, .tick 60000, .evaluate, .ends .safeMode, .timeChanged 7000, .tick 82740000,
      .evaluate, .execute] s ∧ Waited s := by
  have hsome : (exec step KeepsPower (init 5000) [.evaluate, .begins .safeMode, .tick 60000, .evaluate, .ends .safeMode,
    .timeChanged 7000, .tick 82740000, .evaluate, .execute]).isSome = true := by decide +kernel
  obtain ⟨s, hs⟩ := Option.isSome_iff_exists.1 hsome
  exact ⟨s, run_of_exec _ hs, waited_run (run_of_exec _ hs)⟩

/-- The power is cut while the safe mode is being rewritten. -/
theorem not_waited_safeMode : ∃ s, Run step always (init 0)
    [.evaluate, .tick 82800000, .begins .safeMode, .evaluate, .execute] s ∧ ¬ Waited s := by
  have hcut : (exec step always (init 0) [.evaluate, .tick 82800000, .begins .safeMode, .evaluate, .execute]).any
      (fun s => s.cycles.any fun c => c.scrubbing .safeMode) = true := by decide +kernel
  obtain ⟨s, hs, hany⟩ := (Option.any_eq_true _ _).1 hcut
  obtain ⟨c, hc, hsafe⟩ := List.any_eq_true.1 hany
  exact ⟨s, run_of_exec _ hs, not_waited hc (Or.inl ⟨.safeMode, hsafe⟩)⟩

end PeriodicPowerCycle

end PWSat2OBC
