import PWSat2OBC.Proof.Deployment
import PWSat2OBC.Spec.OpenSail

/-!
# Sail deployment and the thermal knives

A StopSailDeployment that comes while a knife burns leaves it on: `Condition` is false from
then on, and only the steps switch a knife off (`Stuck.run`). A new request after that
starts from the first step and switches the main knife on beside the redundant one.

`knives_off`: when the telecommand comes only at `Quiet` moments, the knives are off
whenever the deployment is stopped, and never on together.
-/

namespace PWSat2OBC

open Runs Sequences

namespace OpenSailTask

variable {s t : OpenSailTask}

/-- The procedures of the task are being executed: its steps go on even if the deployment
is stopped. -/
def Acts (s : OpenSailTask) : Prop := s.pc = .ready ∨ s.pc = .acting

instance (s : OpenSailTask) : Decidable s.Acts := inferInstanceAs (Decidable (_ ∨ _))

/-- The steps that switch the redundant knife off, the last of the procedure. -/
def lastSteps : ℕ := 22

/-- No knife is on, or will be when the current execution of `Action` ends. -/
def Quiet (s : OpenSailTask) : Prop :=
  (s.Acts → lastSteps ≤ s.deployment.step) ∧
    (¬ s.Acts → s.deployment.step = 0 ∨ steps.length ≤ s.deployment.step)

instance (s : OpenSailTask) : Decidable s.Quiet := inferInstanceAs (Decidable (_ ∧ _))

/-- The deployment is stopped at quiet moments only. -/
def StopsQuietly (s : OpenSailTask) (e : OpenSailEvent) : Prop :=
  e = .stopSailDeployment true → s.Quiet

instance (s : OpenSailTask) (e : OpenSailEvent) : Decidable (s.StopsQuietly e) :=
  inferInstanceAs (Decidable (_ → _))

theorem agrees_call (ignore : Bool) (step : DeploymentStep) : Agrees step (call ignore step) := by
  intro k
  cases step with
  | ignoreOverheat => cases ignore <;> rfl
  | _ => rfl

structure Kept (s : OpenSailTask) : Prop where
  inOrder : s.deployment.InOrder steps
  waiting : s.sailState = .waiting → s.deployment.step = 0 ∧ ¬ s.Acts
  stopped : s.sailState = .openingStopped → s.Quiet
  /-- What `Update` has read and may start from. -/
  read : ∀ current, s.pc = .update current → current ≠ .opening →
    s.deployment.step = 0 ∨ steps.length ≤ s.deployment.step

theorem kept_init (sailState : SailOpeningState) (time : ℤ) : (init sailState time).Kept where
  inOrder := Deployment.inOrder_init
  waiting := fun _ => ⟨rfl, by simp [Acts, init]⟩
  stopped := fun _ => by simp [Quiet, Acts, init, Deployment.init]
  read := fun _ h _ => by simp [init] at h

theorem not_acts_of_update {current : SailOpeningState} (h : s.pc = .update current) : ¬ s.Acts := by
  rw [Acts, h]
  simp

theorem not_acts_of_idle (h : s.pc = .idle) : ¬ s.Acts := by
  rw [Acts, h]
  simp

/-- Outside of `Action` a quiet task is at one end of the procedure. -/
theorem Quiet.ends (h : s.Quiet) (ha : ¬ s.Acts) :
    s.deployment.step = 0 ∨ steps.length ≤ s.deployment.step := h.2 ha

theorem quiet_of_ends (h : s.deployment.step = 0 ∨ steps.length ≤ s.deployment.step) (ha : ¬ s.Acts) :
    s.Quiet := ⟨fun h' => absurd h' ha, fun _ => h⟩

/-- What `Update` makes of a state it has read: nothing, or a start where none is in progress. -/
theorem updateState_cases (s : OpenSailTask) (current : SailOpeningState) (saved : Bool) :
    (s.updateState current saved).time = s.time ∧
      (((s.updateState current saved).deployment = s.deployment ∧
          (s.updateState current saved).sailState = s.sailState) ∨
        ((s.updateState current saved).deployment = s.deployment.restart ∧
          (s.updateState current saved).sailState = (if saved then .opening else s.sailState) ∧
          (current = .opening → steps.length ≤ s.deployment.step))) := by
  cases current with
  | waiting =>
    simp only [updateState]
    split
    · exact ⟨rfl, .inr ⟨rfl, rfl, fun h => by cases h⟩⟩
    · split
      · exact ⟨rfl, .inr ⟨rfl, rfl, fun h => by cases h⟩⟩
      · exact ⟨rfl, .inl ⟨rfl, rfl⟩⟩
  | opening =>
    simp only [updateState]
    split
    · rename_i h
      obtain ⟨-, hdone⟩ := h
      refine ⟨rfl, .inr ⟨rfl, rfl, fun _ => ?_⟩⟩
      simpa [inProgress] using hdone
    · exact ⟨rfl, .inl ⟨rfl, rfl⟩⟩
  | openingStopped =>
    simp only [updateState]
    split
    · exact ⟨rfl, .inr ⟨rfl, rfl, fun h => by cases h⟩⟩
    · exact ⟨rfl, .inl ⟨rfl, rfl⟩⟩

/-- **`Update` starts the procedure only where no knife is on.** -/
theorem Kept.update (h : s.Kept) {current : SailOpeningState} (hpc : s.pc = .update current)
    (saved : Bool) : ({ s.updateState current saved with pc := .idle } : OpenSailTask).Kept := by
  have ha := not_acts_of_update hpc
  have hidle : ¬ ({ s.updateState current saved with pc := .idle } : OpenSailTask).Acts :=
    not_acts_of_idle rfl
  obtain ⟨-, ⟨hd, hsail⟩ | ⟨hd, hsail, hdone⟩⟩ := updateState_cases s current saved
  · refine ⟨?_, ?_, ?_, ?_⟩
    · dsimp only
      rw [hd]
      exact h.inOrder
    · intro hw
      dsimp only at hw ⊢
      rw [hd]
      exact ⟨(h.waiting (hsail ▸ hw)).1, hidle⟩
    · intro hs
      dsimp only at hs
      have hends := (h.stopped (hsail ▸ hs)).ends ha
      exact quiet_of_ends (by dsimp only; rw [hd]; exact hends) hidle
    · intro c hc
      cases hc
  · -- a start: unless the state read was Opening, nothing was in progress then either
    have hk : s.deployment.step = 0 ∨ steps.length ≤ s.deployment.step := by
      by_cases hopen : current = .opening
      · exact .inr (hdone hopen)
      · exact h.read current hpc hopen
    have hstep : (s.updateState current saved).deployment.step = 0 := by rw [hd]; rfl
    refine ⟨?_, fun _ => ⟨hstep, hidle⟩, fun _ => quiet_of_ends (.inl hstep) hidle, ?_⟩
    · dsimp only
      rw [hd]
      exact h.inOrder.restart hk
    · intro c hc
      cases hc

/-- The last steps do not wait. -/
theorem no_wait_in_lastSteps : ∀ k < steps.length, lastSteps ≤ k → steps[k]? ≠ some .waitFor2mins := by
  decide

/-- **A turn of `Action`** stays in the last steps until they are over. -/
theorem Kept.turn (h : s.Kept) (ha : s.Acts) :
    ({ s with
        deployment := (s.deployment.turn steps (call s.ignoreOverheat) s.time).1
        pc := if (s.deployment.turn steps (call s.ignoreOverheat) s.time).2 then .acting else .idle } :
      OpenSailTask).Kept where
  inOrder := h.inOrder.turn (agrees_call _)
  waiting := fun hw => absurd ha (h.waiting hw).2
  stopped := by
    intro hs
    have hquiet := (h.stopped hs).1 ha
    rcases Deployment.turn_cases steps (call s.ignoreOverheat) s.time s.deployment with
      ⟨hfull, heq⟩ | ⟨step, hstep, hlt, heq⟩
    · rw [heq]
      exact quiet_of_ends (.inr hfull) (not_acts_of_idle rfl)
    · -- the last steps do not wait, so the loop goes on at once
      have hne : step ≠ .waitFor2mins := by
        rintro rfl
        exact no_wait_in_lastSteps _ hlt hquiet hstep
      have hnow : step.nextStepAfter s.time = s.time := by
        cases step <;> first | rfl | exact absurd rfl hne
      rw [heq, hnow, decide_eq_true le_rfl, if_pos rfl]
      refine ⟨fun _ => ?_, fun hna => absurd (.inr rfl) hna⟩
      dsimp only
      omega
  read := by
    intro c hc
    dsimp only at hc
    split at hc <;> cases hc

theorem Kept.step (h : s.Kept) {e : OpenSailEvent} (hok : s.StopsQuietly e) (hs : s.step e = some t) :
    t.Kept := by
  cases e with
  | openSail ignore =>
    obtain rfl := Option.some.inj hs
    exact ⟨h.inOrder, h.waiting, h.stopped, h.read⟩
  | stopSailDeployment saved =>
    obtain rfl := Option.some.inj hs
    cases saved with
    | false => exact ⟨h.inOrder, h.waiting, h.stopped, h.read⟩
    | true => exact ⟨h.inOrder, fun hw => (by cases hw), fun _ => hok rfl, h.read⟩
  | setTime time =>
    obtain ⟨-, heq⟩ := Option.ite_none_right_eq_some.1 hs
    obtain rfl := Option.some.inj heq
    exact ⟨h.inOrder, h.waiting, h.stopped, h.read⟩
  | correctTime elapsed c =>
    obtain ⟨-, heq⟩ := Option.ite_none_right_eq_some.1 hs
    obtain rfl := Option.some.inj heq
    exact ⟨h.inOrder.timeChanged c, h.waiting, h.stopped, h.read⟩
  | updateGet got =>
    obtain ⟨hpc, heq⟩ := Option.ite_none_right_eq_some.1 hs
    obtain rfl := Option.some.inj heq
    have ha := not_acts_of_idle hpc
    have ha' : ¬ ({ s with pc := if got then .update s.sailState else .idle } : OpenSailTask).Acts := by
      cases got
      · exact not_acts_of_idle rfl
      · exact not_acts_of_update rfl
    refine ⟨h.inOrder, fun hw => ⟨(h.waiting hw).1, ha'⟩,
      fun hst => quiet_of_ends ((h.stopped hst).ends ha) ha', ?_⟩
    intro c hc hne
    -- what was read is the state as it stands
    have hread : c = s.sailState := by
      cases got
      · cases hc
      · exact (OpenSailPc.update.inj hc).symm
    subst hread
    cases hsail : s.sailState with
    | waiting => exact .inl (h.waiting hsail).1
    | opening => exact absurd hsail hne
    | openingStopped => exact (h.stopped hsail).ends ha
  | update saved =>
    rw [OpenSailTask.step] at hs
    cases hpc : s.pc with
    | update current =>
      rw [hpc] at hs
      obtain rfl := Option.some.inj hs
      exact h.update hpc saved
    | idle => rw [hpc] at hs; cases hs
    | ready => rw [hpc] at hs; cases hs
    | acting => rw [hpc] at hs; cases hs
  | condition got =>
    obtain ⟨hpc, heq⟩ := Option.ite_none_right_eq_some.1 hs
    obtain rfl := Option.some.inj heq
    have ha := not_acts_of_idle hpc
    by_cases hholds : got ∧ s.sailState = .opening ∧ s.deployment.isDue steps s.time
    · have hopen := hholds.2.1
      refine ⟨h.inOrder, fun hw => ?_, fun hst => ?_, fun c hc => ?_⟩
      · exact absurd (hopen.symm.trans hw) (by decide)
      · exact absurd (hopen.symm.trans hst) (by decide)
      · dsimp only at hc
        split at hc <;> cases hc
    · have hidle : ({ s with pc := if got ∧ s.sailState = .opening ∧ s.deployment.isDue steps s.time then
          .ready else .idle } : OpenSailTask).pc = .idle := if_neg hholds
      have ha' := not_acts_of_idle hidle
      refine ⟨h.inOrder, fun hw => ⟨(h.waiting hw).1, ha'⟩,
        fun hst => quiet_of_ends ((h.stopped hst).ends ha) ha', fun c hc => ?_⟩
      rw [hidle] at hc
      cases hc
  | turn =>
    obtain ⟨ha, heq⟩ := Option.ite_none_right_eq_some.1 hs
    obtain rfl := Option.some.inj heq
    exact h.turn ha

theorem kept_of_run {sailState : SailOpeningState} {time : ℤ} {es : List OpenSailEvent}
    (h : Run step StopsQuietly (init sailState time) es s) : s.Kept :=
  h.inv (kept_init sailState time) fun _ _ _ hI hok hs => hI.step hok hs

/-- The knives before any step. -/
theorem knives_apart : ∀ k ≤ steps.length,
    ¬ (((steps.take k).foldl DeploymentStep.knives Knives.off).main = true ∧
      ((steps.take k).foldl DeploymentStep.knives Knives.off).redundant = true) := by decide

theorem knives_ends : (steps.take 0).foldl DeploymentStep.knives Knives.off = Knives.off ∧
    (steps.take steps.length).foldl DeploymentStep.knives Knives.off = Knives.off := by decide

/-- **The thermal knives** are never on together, and they are off whenever the deployment is
stopped and no execution of `Action` is under way. -/
theorem knives_off {sailState : SailOpeningState} {time : ℤ} {es : List OpenSailEvent}
    (h : Run step StopsQuietly (init sailState time) es s) :
    ¬ (s.deployment.knives.main = true ∧ s.deployment.knives.redundant = true) ∧
      (s.sailState = .openingStopped → ¬ s.Acts → s.deployment.knives = Knives.off) := by
  have hk := kept_of_run h
  have hknives := hk.inOrder.knives_eq (by decide)
  constructor
  · rw [hknives]
    exact knives_apart _ hk.inOrder.step_le
  · intro hst ha
    rw [hknives]
    rcases (hk.stopped hst).ends ha with h0 | hfull
    · rw [h0]
      exact knives_ends.1
    · rw [Nat.le_antisymm hk.inOrder.step_le hfull]
      exact knives_ends.2

/-- `n` turns of the loop in `Action`. -/
def turns (n : ℕ) : List OpenSailEvent := List.replicate n .turn

/-- The opening time comes, the whole procedure is performed, and then it is stopped. -/
def stoppedAfter : List OpenSailEvent :=
  List.flatten
    [[.setTime openingTime, .updateGet true, .update true, .condition true], turns 10,
      [.setTime (openingTime + 120000), .condition true], turns 12,
      [.setTime (openingTime + 240000), .condition true], turns 4,
      [.stopSailDeployment true]]

def stoppedAfterEnd : OpenSailTask :=
  (exec step StopsQuietly (init .waiting 0) stoppedAfter).getD (init .waiting 0)

theorem knives_off_stoppedAfter :
    ¬ (stoppedAfterEnd.deployment.knives.main = true ∧
        stoppedAfterEnd.deployment.knives.redundant = true) ∧
      (stoppedAfterEnd.sailState = .openingStopped → ¬ stoppedAfterEnd.Acts →
        stoppedAfterEnd.deployment.knives = Knives.off) := by
  have hrun : Run step StopsQuietly (init .waiting 0) stoppedAfter stoppedAfterEnd :=
    run_of_exec stoppedAfter (by decide +kernel)
  exact knives_off hrun

/-! ## Stopped while a knife burns -/

/-- Stopped, with nothing asked for and no step to come. -/
structure Stuck (k : Knives) (s : OpenSailTask) : Prop where
  sailState : s.sailState = .openingStopped
  request : s.openOnNextMissionLoop = false
  pc : s.pc = .idle ∨ s.pc = .update .openingStopped
  knives : s.deployment.knives = k

/-- **Without a new request the knives stay as they are.** -/
theorem Stuck.step {k : Knives} (h : s.Stuck k) {e : OpenSailEvent} (hreq : ∀ b, e ≠ .openSail b)
    (hs : s.step e = some t) : t.Stuck k := by
  cases e with
  | openSail b => exact absurd rfl (hreq b)
  | stopSailDeployment saved =>
    obtain rfl := Option.some.inj hs
    refine ⟨?_, h.request, h.pc, h.knives⟩
    cases saved
    · exact h.sailState
    · rfl
  | setTime time =>
    obtain ⟨-, heq⟩ := Option.ite_none_right_eq_some.1 hs
    obtain rfl := Option.some.inj heq
    exact ⟨h.sailState, h.request, h.pc, h.knives⟩
  | correctTime elapsed c =>
    obtain ⟨-, heq⟩ := Option.ite_none_right_eq_some.1 hs
    obtain rfl := Option.some.inj heq
    exact ⟨h.sailState, h.request, h.pc, h.knives⟩
  | updateGet got =>
    obtain ⟨-, heq⟩ := Option.ite_none_right_eq_some.1 hs
    obtain rfl := Option.some.inj heq
    refine ⟨h.sailState, h.request, ?_, h.knives⟩
    dsimp only
    rw [h.sailState]
    cases got
    · exact .inl rfl
    · exact .inr rfl
  | update saved =>
    rw [OpenSailTask.step] at hs
    rcases h.pc with hpc | hpc
    · rw [hpc] at hs
      cases hs
    · rw [hpc] at hs
      obtain rfl := Option.some.inj hs
      -- nothing is asked for, so nothing starts
      have hupd : s.updateState .openingStopped saved = { s with openOnNextMissionLoop := false } := by
        simp only [updateState, h.request]
        rfl
      dsimp only
      rw [hupd]
      exact ⟨h.sailState, rfl, .inl rfl, h.knives⟩
  | condition got =>
    obtain ⟨-, heq⟩ := Option.ite_none_right_eq_some.1 hs
    obtain rfl := Option.some.inj heq
    have hfalse : ¬ (got = true ∧ s.sailState = .opening ∧ s.deployment.isDue steps s.time = true) := by
      rintro ⟨-, hopen, -⟩
      rw [h.sailState] at hopen
      cases hopen
    exact ⟨h.sailState, h.request, .inl (if_neg hfalse), h.knives⟩
  | turn =>
    obtain ⟨ha, -⟩ := Option.ite_none_right_eq_some.1 hs
    rcases h.pc with hpc | hpc <;> rw [hpc] at ha <;> simp at ha

theorem Stuck.run {k : Knives} (h : s.Stuck k) {es : List OpenSailEvent}
    (hreq : ∀ e ∈ es, ∀ b, e ≠ .openSail b) (hrun : Run OpenSailTask.step always s es t) : t.Stuck k := by
  induction hrun with
  | nil => exact h
  | snoc _ _ hs ih =>
    have ih := ih fun e he => hreq e (List.mem_append_left _ he)
    exact ih.step (fun b => hreq _ (by simp) b) hs

/-- The deployment is stopped while the main knife burns. -/
def stoppedBurning : List OpenSailEvent :=
  List.flatten
    [[.setTime openingTime, .updateGet true, .update true, .condition true], turns 10,
      [.stopSailDeployment true]]

def stoppedBurningEnd : OpenSailTask := (exec step always (init .waiting 0) stoppedBurning).getD (init .waiting 0)

/-- It is stopped while the redundant knife burns, and a new request comes. -/
def restartedBurning : List OpenSailEvent :=
  List.flatten
    [[.setTime openingTime, .updateGet true, .update true, .condition true], turns 10,
      [.setTime (openingTime + 120000), .condition true], turns 12,
      [.stopSailDeployment true, .openSail false, .updateGet true, .update true, .condition true],
      turns 3]

def restartedBurningEnd : OpenSailTask :=
  (exec step always (init .waiting 0) restartedBurning).getD (init .waiting 0)

theorem stuck_stoppedBurning : stoppedBurningEnd.Stuck ⟨true, false⟩ :=
  ⟨rfl, rfl, .inl rfl, by decide⟩

/-- **A knife is left on for good, and both are on together.** -/
theorem knife_left_on :
    (Run step always (init .waiting 0) stoppedBurning stoppedBurningEnd ∧
      ∀ es t, Run step always stoppedBurningEnd es t → (∀ e ∈ es, ∀ b, e ≠ .openSail b) →
        t.sailState = .openingStopped ∧ t.deployment.knives.main = true) ∧
      Run step always (init .waiting 0) restartedBurning restartedBurningEnd ∧
      restartedBurningEnd.deployment.knives.main = true ∧
      restartedBurningEnd.deployment.knives.redundant = true := by
  refine ⟨⟨run_of_exec stoppedBurning (by decide +kernel), fun es t hrun hreq => ?_⟩, run_of_exec restartedBurning (by decide +kernel),
    by decide, by decide⟩
  have h := stuck_stoppedBurning.run hreq hrun
  exact ⟨h.sailState, by rw [h.knives]⟩

end OpenSailTask

end PWSat2OBC
