import PWSat2OBC.Spec.Antenna
import Mathlib.Tactic

/-!
# Antenna deployment

`Kept` is the invariant: the log is made of the attempts at each step that was left
(`Finished`) and the failed attempts at the current one (`Pending`). `deployment_in_order`
is the result about all runs.

The deployment can be disabled between `Condition` and `Action` (`attempted_while_disabled`):
the result speaks of the configuration that `Condition` saw.
-/

namespace PWSat2OBC

open Runs

namespace AntennaTask

/-- An attempt at step `i` that `Condition` allowed, not before the wait of the step before it
was over. -/
structure Allowed (i : ℕ) (notBefore : ℤ) (a : Attempt) : Prop where
  index : a.index = i
  call : steps[i]?.map AntennaStep.call = some a.call
  silent : silentPeriodThreshold < a.evaluatedAt
  waited : notBefore ≤ a.evaluatedAt
  enabled : a.disabled = false

/-- The attempts at a step that was not left: at most two, all failed. -/
structure Pending (i : ℕ) (notBefore : ℤ) (as : List Attempt) : Prop where
  allowed : ∀ a ∈ as, Allowed i notBefore a
  failed : ∀ a ∈ as, a.ok = false
  few : as.length ≤ 2

/-- The attempts at a step that was left: failures, and a last one that succeeded or was the
third. -/
structure Finished (i : ℕ) (notBefore : ℤ) (as : List Attempt) (last : Attempt) : Prop where
  before : Pending i notBefore as
  allowed : Allowed i notBefore last
  left : last.ok = true ∨ as.length = 2

/-- When the step after step `i` may begin, if step `i` was left at `time`. -/
def waitUntil (i : ℕ) (time : ℤ) : ℤ := time + (steps[i]?.map AntennaStep.waitTime).getD 0

/-- The attempts, step by step: those at step `i` begin at `notBefore`. -/
inductive InOrder : ℕ → ℤ → List Attempt → Prop
  | nil : InOrder 0 0 []
  | left {i : ℕ} {notBefore : ℤ} {log as : List Attempt} {last : Attempt} :
      InOrder i notBefore log → Finished i notBefore as last →
        InOrder (i + 1) (waitUntil i last.time) (log ++ as ++ [last])

structure Kept (s : AntennaTask) : Prop where
  inOrder : ∃ log as, s.log = log ++ as ∧ InOrder s.step s.nextStepAt log ∧
    Pending s.step s.nextStepAt as ∧ s.retryCounter = stepRetries - as.length
  ready : ∀ evaluatedAt disabled, s.pc = .ready evaluatedAt disabled →
    silentPeriodThreshold < evaluatedAt ∧ s.nextStepAt ≤ evaluatedAt ∧ disabled = false

theorem kept_init (time : ℤ) (disabled : Bool) : (init time disabled).Kept where
  inOrder := ⟨[], [], rfl, .nil, ⟨by simp, by simp, by simp⟩, by simp [init]⟩
  ready := by
    intro evaluatedAt disabled h
    cases h

variable {s t : AntennaTask}

/-- The two outcomes of `Action`: another attempt, or the step is left. -/
theorem action_cases (s : AntennaTask) (step : AntennaStep) (evaluatedAt : ℤ) (disabled ok : Bool) :
    let a : Attempt := ⟨s.step, step.call, ok, evaluatedAt, disabled, s.time⟩
    let s' := s.action step evaluatedAt disabled ok
    s'.log = s.log ++ [a] ∧
      ((ok = false ∧ 1 < s.retryCounter ∧ s'.step = s.step ∧ s'.nextStepAt = s.nextStepAt ∧
          s'.retryCounter = s.retryCounter - 1 ∧ s'.deployed = s.deployed) ∨
        ((ok = true ∨ s.retryCounter ≤ 1) ∧ s'.step = s.step + 1 ∧
          s'.nextStepAt = s.time + step.waitTime ∧ s'.retryCounter = stepRetries ∧
          s'.deployed = (s.deployed || decide (steps.length ≤ s.step + 1)))) := by
  intro a s'
  by_cases hretry : ok = false ∧ 1 < s.retryCounter
  · have heq : s' = { s with
        controllerPoweredOn := s.poweredOn step ok
        log := s.log ++ [a]
        retryCounter := s.retryCounter - 1 } := if_pos hretry
    rw [heq]
    exact ⟨rfl, .inl ⟨hretry.1, hretry.2, rfl, rfl, rfl, rfl⟩⟩
  · have heq : s' = { s with
        controllerPoweredOn := s.poweredOn step ok
        log := s.log ++ [a]
        step := s.step + 1
        nextStepAt := s.time + step.waitTime
        retryCounter := stepRetries
        deployed := s.deployed || decide (steps.length ≤ s.step + 1) } := if_neg hretry
    rw [heq]
    refine ⟨rfl, .inr ⟨?_, rfl, rfl, rfl, rfl⟩⟩
    cases ok with
    | true => exact .inl rfl
    | false =>
      right
      by_contra hlt
      exact hretry ⟨rfl, by omega⟩

/-- Another failed attempt at the step. -/
theorem Pending.snoc {i : ℕ} {notBefore : ℤ} {as : List Attempt} {a : Attempt} (h : Pending i notBefore as)
    (ha : Allowed i notBefore a) (hok : a.ok = false) (hfew : as.length < 2) :
    Pending i notBefore (as ++ [a]) := by
  refine ⟨?_, ?_, ?_⟩
  · intro b hb
    rcases List.mem_append.1 hb with hb | hb
    · exact h.allowed b hb
    · obtain rfl := List.mem_singleton.1 hb
      exact ha
  · intro b hb
    rcases List.mem_append.1 hb with hb | hb
    · exact h.failed b hb
    · obtain rfl := List.mem_singleton.1 hb
      exact hok
  · rw [List.length_append, List.length_singleton]
    omega

/-- **One attempt.** -/
theorem Kept.action (h : s.Kept) {evaluatedAt : ℤ} {disabled : Bool}
    (hpc : s.pc = .ready evaluatedAt disabled) {step : AntennaStep} (hstep : steps[s.step]? = some step)
    (ok : Bool) : ({ s.action step evaluatedAt disabled ok with pc := .idle } : AntennaTask).Kept := by
  obtain ⟨⟨log, as, hlog, hinOrder, hpending, hcounter⟩, hready⟩ := h
  obtain ⟨hsilent, hwaited, henabled⟩ := hready evaluatedAt disabled hpc
  have ha : Allowed s.step s.nextStepAt ⟨s.step, step.call, ok, evaluatedAt, disabled, s.time⟩ :=
    { index := rfl
      call := by rw [hstep]; rfl
      silent := hsilent
      waited := hwaited
      enabled := henabled }
  have hidle : ∀ e d, AntennaPc.idle = .ready e d →
      silentPeriodThreshold < e ∧ (s.action step evaluatedAt disabled ok).nextStepAt ≤ e ∧ d = false := by
    intro e d h
    cases h
  have hfew := hpending.few
  simp only [stepRetries] at hcounter
  obtain ⟨hlog', ⟨hok, hmore, hs, hn, hr, -⟩ | ⟨hleft, hs, hn, hr, -⟩⟩ :=
    action_cases s step evaluatedAt disabled ok
  · -- another failure of the current step
    refine ⟨⟨log, as ++ [⟨s.step, step.call, ok, evaluatedAt, disabled, s.time⟩], ?_, ?_, ?_, ?_⟩, hidle⟩
    · dsimp only
      rw [hlog', hlog, List.append_assoc]
    · dsimp only
      rw [hs, hn]
      exact hinOrder
    · dsimp only
      rw [hs, hn]
      exact hpending.snoc ha hok (by omega)
    · dsimp only
      rw [hr, List.length_append, List.length_singleton]
      simp only [stepRetries]
      push_cast
      omega
  · -- the step is left
    have hfinished : Finished s.step s.nextStepAt as
        ⟨s.step, step.call, ok, evaluatedAt, disabled, s.time⟩ := by
      refine ⟨hpending, ha, ?_⟩
      rcases hleft with hok | hlast
      · exact .inl hok
      · right
        omega
    refine ⟨⟨log ++ as ++ [⟨s.step, step.call, ok, evaluatedAt, disabled, s.time⟩], [], ?_, ?_, ?_, ?_⟩,
      hidle⟩
    · dsimp only
      rw [hlog', hlog, List.append_nil]
    · dsimp only
      have hwait : waitUntil s.step s.time = s.time + step.waitTime := by
        rw [waitUntil, hstep]
        rfl
      rw [hs, hn, ← hwait]
      exact .left hinOrder hfinished
    · exact ⟨by simp, by simp, by simp⟩
    · dsimp only
      rw [hr]
      simp

/-- `Action` runs at a step for which `Condition` held. -/
theorem next_action {ok : Bool} (hs : s.next (.action ok) = some t) :
    ∃ evaluatedAt disabled step, s.pc = .ready evaluatedAt disabled ∧ steps[s.step]? = some step ∧
      t = { s.action step evaluatedAt disabled ok with pc := .idle } := by
  rw [AntennaTask.next] at hs
  cases hpc : s.pc with
  | idle =>
    rw [hpc] at hs
    cases hs
  | ready evaluatedAt disabled =>
    cases hstep : steps[s.step]? with
    | none =>
      rw [hpc, hstep] at hs
      cases hs
    | some step =>
      rw [hpc, hstep] at hs
      exact ⟨evaluatedAt, disabled, step, rfl, rfl, (Option.some.inj hs).symm⟩

theorem Kept.next (h : s.Kept) {e : AntennaEvent} (hs : s.next e = some t) : t.Kept := by
  cases e with
  | setDeploymentDisabled disabled =>
    obtain rfl := Option.some.inj hs
    exact ⟨h.inOrder, h.ready⟩
  | setTime time =>
    obtain rfl := Option.some.inj hs
    exact ⟨h.inOrder, h.ready⟩
  | update got =>
    obtain ⟨-, heq⟩ := Option.ite_none_right_eq_some.1 hs
    obtain rfl := Option.some.inj heq
    unfold AntennaTask.update
    split
    · exact ⟨h.inOrder, h.ready⟩
    · exact h
  | condition got =>
    obtain ⟨-, heq⟩ := Option.ite_none_right_eq_some.1 hs
    obtain rfl := Option.some.inj heq
    refine ⟨h.inOrder, ?_⟩
    intro evaluatedAt disabled hpc
    dsimp only at hpc ⊢
    split at hpc
    · rename_i hcond
      obtain ⟨rfl, rfl⟩ := AntennaPc.ready.inj hpc
      simp only [AntennaTask.condition, decide_eq_true_eq] at hcond
      exact ⟨hcond.1, hcond.2.2.1, hcond.2.2.2⟩
    · cases hpc
  | action ok =>
    obtain ⟨evaluatedAt, disabled, step, hpc, hstep, rfl⟩ := next_action hs
    exact h.action hpc hstep ok

theorem kept_of_run {time : ℤ} {disabled : Bool} {es : List AntennaEvent}
    (h : Run next always (init time disabled) es s) : s.Kept :=
  h.inv (kept_init time disabled) fun _ _ _ hI _ hs => hI.next hs

/-- When the antennas are taken to be deployed. -/
theorem deployed_of_next {e : AntennaEvent} (hs : s.next e = some t) (h0 : s.deployed = false)
    (h1 : t.deployed = true) : steps.length ≤ t.step ∨ s.deploymentDisabled = true := by
  cases e with
  | setDeploymentDisabled disabled =>
    obtain rfl := Option.some.inj hs
    exact absurd (h0.symm.trans h1) (by decide)
  | setTime time =>
    obtain rfl := Option.some.inj hs
    exact absurd (h0.symm.trans h1) (by decide)
  | update got =>
    obtain ⟨-, heq⟩ := Option.ite_none_right_eq_some.1 hs
    obtain rfl := Option.some.inj heq
    unfold AntennaTask.update at h1
    split at h1
    · rename_i hdis
      simp only [isDeploymentDisabled, Bool.and_eq_true] at hdis
      exact .inr hdis.2.2
    · exact absurd (h0.symm.trans h1) (by decide)
  | condition got =>
    obtain ⟨-, heq⟩ := Option.ite_none_right_eq_some.1 hs
    obtain rfl := Option.some.inj heq
    exact absurd (h0.symm.trans h1) (by decide)
  | action ok =>
    obtain ⟨evaluatedAt, disabled, step, -, -, rfl⟩ := next_action hs
    dsimp only at h1 ⊢
    obtain ⟨-, ⟨-, -, -, -, -, hd⟩ | ⟨-, hst, -, -, hd⟩⟩ :=
      action_cases s step evaluatedAt disabled ok
    · rw [hd, h0] at h1
      cases h1
    · -- the step is left
      rw [hd, h0, Bool.false_or, decide_eq_true_eq] at h1
      rw [hst]
      exact .inl h1

/-- **The deployment of the antennas**, in every run. The attempts are those at the steps left
so far, in order, and those at the current step. Each step left was attempted once to three
times, a repetition only after a failure. `Condition` found the silent period over, the wait
of the step before elapsed, and the deployment not disabled. The antennas are taken to be
deployed only when the last step is left or the deployment is disabled. -/
theorem deployment_in_order (time : ℤ) (disabled : Bool) {es : List AntennaEvent} {s : AntennaTask}
    (h : Run next always (init time disabled) es s) :
    (∃ log as, s.log = log ++ as ∧ InOrder s.step s.nextStepAt log ∧
        Pending s.step s.nextStepAt as) ∧
      ∀ e t, s.next e = some t → s.deployed = false → t.deployed = true →
        steps.length ≤ t.step ∨ s.deploymentDisabled = true := by
  obtain ⟨log, as, hlog, hinOrder, hpending, -⟩ := (kept_of_run h).inOrder
  exact ⟨⟨log, as, hlog, hinOrder, hpending⟩, fun e t hs h0 h1 => deployed_of_next hs h0 h1⟩

/-- The first step fails once and succeeds, the second waits. -/
def firstStep : List AntennaEvent :=
  [.setTime 2400001, .update true, .condition true, .action false, .setTime 2400002, .condition true,
    .action true, .setTime 2405000, .condition true, .setTime 2409002, .condition true, .action true]

def firstStepEnd : AntennaTask := (exec next always (init 0 false) firstStep).getD (init 0 false)

theorem deployment_in_order_firstStep :
    (∃ log as, firstStepEnd.log = log ++ as ∧ InOrder firstStepEnd.step firstStepEnd.nextStepAt log ∧
        Pending firstStepEnd.step firstStepEnd.nextStepAt as) ∧
      ∀ e t, firstStepEnd.next e = some t → firstStepEnd.deployed = false → t.deployed = true →
        steps.length ≤ t.step ∨ firstStepEnd.deploymentDisabled = true := by
  have hrun : Run next always (init 0 false) firstStep firstStepEnd :=
    run_of_exec firstStep (by decide +kernel)
  exact deployment_in_order 0 false hrun

/-- The telecommand comes between `Condition` and `Action`. -/
def disabledInBetween : List AntennaEvent :=
  [.setTime 2400001, .update true, .condition true, .setDeploymentDisabled true]

def disabledInBetweenEnd : AntennaTask :=
  (exec next always (init 0 false) disabledInBetween).getD (init 0 false)

/-- **A step is attempted while the deployment is disabled.** -/
theorem attempted_while_disabled :
    Run next always (init 0 false) disabledInBetween disabledInBetweenEnd ∧
      disabledInBetweenEnd.deploymentDisabled = true ∧
      (disabledInBetweenEnd.next (.action true)).map (·.log) =
        some [⟨0, .primaryAntennaPower true, true, 2400001, false, 2400001⟩] :=
  ⟨run_of_exec disabledInBetween (by decide +kernel), by decide +kernel, by decide +kernel⟩

end AntennaTask

end PWSat2OBC
