import PWSat2OBC.Proof.ExperimentController

/-!
# Pacing of experiment iterations

An iteration that returned `WaitForNextCycle` is followed by the next one only after a call
of `NotifyLoopIterationStart` that began later (`iterations_paced`), provided no abort falls
into a round that asks for a notification, from its abort check to the answer
(`Undisturbed`). An abort in between ends the wait but leaves the request for a notification
behind, and the next experiment runs ahead.

In undisturbed runs the two bits are clean (`Clean`): a request is pending or being answered
only while the task waits for it, and the clearing of `MissionLoopIterationStarted` at the
head of each round takes away the answer to the round before.

The wait itself is always ended by the next call or by an abort (`notified`, `abort_wakes`).
-/

namespace PWSat2OBC.ExperimentController

open Runs

variable {registered : ExperimentCode → Bool} {s t : ExperimentController} {e : ControllerEvent}

/-- `Iteration` returned `WaitForNextCycle`. -/
def isWaitRequest (e : ControllerEvent) : Bool := e = .iterationReturns .waitForNextCycle

/-- `NotifyLoopIterationStart` begins, or another experiment is taken up. -/
def isNotifyOrPop (e : ControllerEvent) : Bool := e = .mission .notifyWait ∨ e = .background .pop

/-- The task is on its way to the wait, or waits with its request pending, or leaves because
of an abort. -/
def Held (s : ExperimentController) : Prop :=
  match s.background with
  | .storeIterationResult result => result = .waitForNextCycle
  | .setNotificationRequested => True
  | .wait => s.missionLoopNotificationRequested = true ∧ s.missionLoopIterationStarted = false
  | .checkAbort => s.abortRequest = true
  | pc => leaving pc = true

/-! ## The two bits -/

/-- `Set(MissionLoopNotificationReqested)`. -/
def isAsk (e : ControllerEvent) : Bool := e = .background .setNotificationRequested

/-- `Set(MissionLoopIterationStarted)`. -/
def isAnswer (e : ControllerEvent) : Bool := e = .mission .notifySet

/-- The check for an abort request at the head of a round. -/
def isCheck (e : ControllerEvent) : Bool := e = .checkAbort true ∨ e = .checkAbort false

/-- No abort comes in a round that asks for a notification: neither between its check and
the question nor between the question and the answer. -/
structure Undisturbed (es : List ControllerEvent) : Prop where
  asked : Guarded isAsk isAbort isCheck es
  answered : Guarded isAbort isAsk isAnswer es

theorem Undisturbed.of_snoc {es : List ControllerEvent} (h : Undisturbed (es ++ [e])) : Undisturbed es :=
  ⟨h.asked.of_snoc.1, h.answered.of_snoc.1⟩

/-- From the clearing of `MissionLoopIterationStarted` to the question. -/
def inRound : BackgroundPc → Bool
  | .iterate | .iterating | .storeIterationResult _ | .setNotificationRequested => true
  | _ => false

/-- The bits are those of the present wait. -/
structure Clean (es : List ControllerEvent) (s : ExperimentController) : Prop where
  abortSeen : s.abortRequest = true → since isAbort isCheck es = true
  noAbort : since isAsk isAnswer es = true → s.abortRequest = false
  outstanding : since isAsk isAnswer es = true → s.background = .wait ∧
    s.missionLoopIterationStarted = false ∧
    (s.missionLoopNotificationRequested = true ↔ s.mission ≠ .notifySet)
  settled : since isAsk isAnswer es = false →
    s.missionLoopNotificationRequested = false ∧ s.mission ≠ .notifySet
  fresh : inRound s.background = true → s.missionLoopIterationStarted = false

theorem clean_init : Clean [] init :=
  ⟨by simp [init], by simp, by simp, by simp [init], by simp [init, inRound]⟩

/-- Only while the task waits is a question outstanding. -/
theorem Clean.since_false {es : List ControllerEvent} (h : Clean es s) (hb : s.background ≠ .wait) :
    since isAsk isAnswer es = false := by
  rw [← Bool.not_eq_true]
  exact fun hsince => hb (h.outstanding hsince).1

/-- With no question outstanding. -/
theorem Clean.of_free {es : List ControllerEvent} (hfree : since isAsk isAnswer es = false)
    (habort : s.abortRequest = true → since isAbort isCheck es = true)
    (hsettled : s.missionLoopNotificationRequested = false ∧ s.mission ≠ .notifySet)
    (hfresh : inRound s.background = true → s.missionLoopIterationStarted = false) : Clean es s where
  abortSeen := habort
  noAbort hsince := absurd hsince (by simp [hfree])
  outstanding hsince := absurd hsince (by simp [hfree])
  settled _ := hsettled
  fresh := hfresh

/-- Steps that leave the two bits and the wait alone. -/
theorem Clean.others {es : List ControllerEvent} (h : Clean es s)
    (hab : t.abortRequest = true → s.abortRequest = true)
    (his : t.missionLoopIterationStarted = s.missionLoopIterationStarted)
    (hnr : t.missionLoopNotificationRequested = s.missionLoopNotificationRequested)
    (hm : t.mission = .notifySet ↔ s.mission = .notifySet)
    (hb : s.background = .wait → t.background = .wait)
    (hround : inRound t.background = true → inRound s.background = true)
    (h1 : isAbort e = false) (h2 : isCheck e = false) (h3 : isAsk e = false)
    (h4 : isAnswer e = false) : Clean (es ++ [e]) t := by
  constructor <;> simp only [since_snoc, h1, h2, h3, h4, his, hnr, hm, ne_eq, Bool.false_eq_true, if_false]
  · exact fun hbit => h.abortSeen (hab hbit)
  · exact fun hsince => Bool.eq_false_iff.2 fun hbit => by
      rw [h.noAbort hsince] at hab
      exact Bool.noConfusion (hab hbit)
  · exact fun hsince => ⟨hb (h.outstanding hsince).1, (h.outstanding hsince).2⟩
  · exact h.settled
  · exact fun hr => h.fresh (hround hr)

/-- A step of the mission loop. -/
theorem Clean.mission {es : List ControllerEvent} {pc : MissionPc} (h : Clean es s)
    (hs : step registered s (.mission pc) = some t) : Clean (es ++ [.mission pc]) t := by
  simp only [ExperimentController.step] at hs
  split_ifs at hs with hpc
  cases pc with
  | notifyWait =>
    simp only [missionStep] at hs
    split_ifs at hs with hnr
    · -- the request is taken, the answer is next
      have hsince : since isAsk isAnswer es = true := by
        by_contra hfree
        rw [Bool.not_eq_true] at hfree
        rw [(h.settled hfree).1] at hnr
        exact Bool.noConfusion hnr
      obtain ⟨hw, his, _⟩ := h.outstanding hsince
      cases hs
      refine ⟨?_, fun _ => h.noAbort hsince, fun _ => ⟨hw, his, by simp⟩, ?_, h.fresh⟩
      · simpa [isAbort, isCheck] using h.abortSeen
      · simp [isAsk, isAnswer, hsince]
    · have hfree : since isAsk isAnswer es = false := by
        by_contra hsince
        rw [Bool.not_eq_false] at hsince
        exact hnr ((h.outstanding hsince).2.2.2 (by rw [hpc]; simp))
      cases hs
      exact .of_free (by simp [isAsk, isAnswer, hfree]) (by simpa [isAbort, isCheck] using h.abortSeen)
        ⟨by simpa using hnr, by simp⟩ h.fresh
  | notifySet =>
    have hsince : since isAsk isAnswer es = true := by
      by_contra hfree
      rw [Bool.not_eq_true] at hfree
      exact (h.settled hfree).2 hpc
    obtain ⟨hw, _, hnr⟩ := h.outstanding hsince
    cases hs
    exact .of_free (by simp [isAsk, isAnswer]) (by simpa [isAbort, isCheck] using h.abortSeen)
      ⟨by simpa [hpc] using hnr, by simp⟩ (by simp [hw, inRound])
  | _ =>
    simp only [missionStep] at hs
    (try split_ifs at hs) <;> cases hs <;>
      exact h.others id rfl rfl (by simp [hpc]) id id (by simp [isAbort]) (by simp [isCheck])
        (by simp [isAsk]) (by simp [isAnswer])

/-- A step of the task. -/
theorem Clean.background {es : List ControllerEvent} {pc : BackgroundPc} (h : Clean es s)
    (hquiet : Undisturbed (es ++ [.background pc])) (hs : step registered s (.background pc) = some t) :
    Clean (es ++ [.background pc]) t := by
  simp only [ExperimentController.step] at hs
  split_ifs at hs with hpc
  cases pc with
  | setNotificationRequested =>
    -- no abort since the check, so the bit is clear, and no answer since the clearing
    have hchecked := hquiet.asked.of_snoc.2 rfl
    have hfree := h.since_false (by rw [hpc]; simp)
    have hbit : s.abortRequest = false := by
      by_contra hbit
      rw [Bool.not_eq_false] at hbit
      rw [h.abortSeen hbit] at hchecked
      exact Bool.noConfusion hchecked
    have his := h.fresh (by rw [hpc]; rfl)
    cases hs
    refine ⟨by simp [hbit], fun _ => hbit, fun _ => ⟨rfl, his, ?_⟩, by simp [isAsk], by simp [inRound]⟩
    simp [(h.settled hfree).2]
  | clearIterationStarted =>
    have hfree := h.since_false (by rw [hpc]; simp)
    cases hs
    exact .of_free (by simp [isAsk, isAnswer, hfree]) (by simpa [isAbort, isCheck] using h.abortSeen)
      (h.settled hfree) fun _ => rfl
  | wait =>
    simp only [backgroundStep] at hs
    split_ifs at hs with hbits
    -- a wait that can end has been answered
    have hfree : since isAsk isAnswer es = false := by
      by_contra hsince
      rw [Bool.not_eq_false] at hsince
      simp [(h.outstanding hsince).2.1, h.noAbort hsince] at hbits
    cases hs
    exact .of_free (by simp [isAsk, isAnswer, hfree]) (by simpa [isAbort, isCheck] using h.abortSeen)
      (h.settled hfree) (by simp [inRound])
  | pop =>
    simp only [backgroundStep] at hs
    split at hs <;> cases hs
    exact h.others id rfl rfl Iff.rfl (by simp [hpc]) (by simp [inRound]) (by simp [isAbort])
      (by simp [isCheck]) (by simp [isAsk]) (by simp [isAnswer])
  | find =>
    simp only [backgroundStep] at hs
    split at hs
    · split_ifs at hs <;> cases hs <;>
        exact h.others id rfl rfl Iff.rfl (by simp [hpc]) (by simp [inRound]) (by simp [isAbort])
          (by simp [isCheck]) (by simp [isAsk]) (by simp [isAnswer])
    · exact absurd hs (by simp)
  | clearAbortRequest =>
    cases hs
    exact h.others (by simp) rfl rfl Iff.rfl (by simp [hpc]) (by simp [inRound]) (by simp [isAbort])
      (by simp [isCheck]) (by simp [isAsk]) (by simp [isAnswer])
  | _ =>
    simp only [backgroundStep] at hs
    (try split_ifs at hs) <;> cases hs <;>
      exact h.others id rfl rfl Iff.rfl (by simp [hpc]) (by simp [hpc, inRound]) (by simp [isAbort])
        (by simp [isCheck]) (by simp [isAsk]) (by simp [isAnswer])

theorem Clean.step {es : List ControllerEvent} (h : Clean es s) (hquiet : Undisturbed (es ++ [e]))
    (hs : step registered s e = some t) : Clean (es ++ [e]) t := by
  cases e with
  | request code =>
    simp only [ExperimentController.step] at hs
    split_ifs at hs <;> cases hs <;>
      exact h.others id rfl rfl Iff.rfl id id (by simp [isAbort]) (by simp [isCheck]) (by simp [isAsk])
        (by simp [isAnswer])
  | store r =>
    simp only [ExperimentController.step] at hs
    split_ifs at hs
    cases hs
    exact h.others id rfl rfl Iff.rfl id id (by simp [isAbort]) (by simp [isCheck]) (by simp [isAsk])
      (by simp [isAnswer])
  | abort =>
    -- not while a question is outstanding
    have hfree := hquiet.answered.of_snoc.2 rfl
    cases hs
    exact .of_free (by simp [isAsk, isAnswer, hfree]) (by simp [isAbort]) (h.settled hfree) h.fresh
  | startReturns result =>
    simp only [ExperimentController.step] at hs
    split_ifs at hs with hb
    cases hs
    exact h.others id rfl rfl Iff.rfl (by simp [hb]) (by simp [inRound]) (by simp [isAbort])
      (by simp [isCheck]) (by simp [isAsk]) (by simp [isAnswer])
  | checkAbort aborted =>
    simp only [ExperimentController.step] at hs
    split_ifs at hs with hb hab
    · have hfree := h.since_false (by rw [hb.1]; simp)
      cases hs
      exact .of_free (by simp [isAsk, isAnswer, hfree]) (by simp) (h.settled hfree) (by simp [inRound])
    · have hfree := h.since_false (by rw [hb.1]; simp)
      cases hs
      exact .of_free (by simp [isAsk, isAnswer, hfree]) (by simp [hb.2, hab]) (h.settled hfree)
        (by simp [inRound])
  | iterationReturns result =>
    simp only [ExperimentController.step] at hs
    split_ifs at hs with hb
    cases hs
    exact h.others id rfl rfl Iff.rfl (by simp [hb]) (by simp [hb, inRound]) (by simp [isAbort])
      (by simp [isCheck]) (by simp [isAsk]) (by simp [isAnswer])
  | mission pc => exact h.mission hs
  | background pc => exact h.background hquiet hs

/-! ## The wait holds the task -/

/-- Between a request for a wait and the next notification the task is held. -/
structure Paced (es : List ControllerEvent) (s : ExperimentController) : Prop where
  held : since isWaitRequest isNotifyOrPop es = true → Held s
  guarded : Guarded isIteration isWaitRequest isNotifyOrPop es

theorem held_congr (hb : t.background = s.background) (hab : t.abortRequest = s.abortRequest)
    (his : t.missionLoopIterationStarted = s.missionLoopIterationStarted)
    (hnr : t.missionLoopNotificationRequested = s.missionLoopNotificationRequested) :
    Held t ↔ Held s := by
  unfold Held
  rw [hb, hab, his, hnr]

theorem paced_init : Paced [] init := ⟨by simp, guarded_nil _ _ _⟩

theorem Paced.step {es : List ControllerEvent} (h : Paced es s) (hclean : Clean es s)
    (hs : step registered s e = some t) : Paced (es ++ [e]) t := by
  obtain ⟨hh, hg⟩ := h
  -- steps that touch neither the task nor its bits
  have quiet {u : ExperimentController} (hheld : Held u ↔ Held s) (h1 : isWaitRequest e = false)
      (h2 : isNotifyOrPop e = false) (h3 : isIteration e = false) : Paced (es ++ [e]) u := by
    refine ⟨fun hsince => hheld.2 (hh ?_), hg.snoc (by simp [h3])⟩
    simpa [h1, h2] using hsince
  cases e with
  | request code =>
    simp only [ExperimentController.step] at hs
    split_ifs at hs <;> cases hs <;> exact quiet (held_congr rfl rfl rfl rfl)
      (by simp [isWaitRequest]) (by simp [isNotifyOrPop]) (by simp [isIteration])
  | store r =>
    simp only [ExperimentController.step] at hs
    split_ifs at hs
    cases hs
    exact quiet (held_congr rfl rfl rfl rfl) (by simp [isWaitRequest]) (by simp [isNotifyOrPop])
      (by simp [isIteration])
  | abort =>
    cases hs
    refine ⟨fun hsince => ?_, hg.snoc (by simp [isIteration])⟩
    have hheld := hh (by simpa [isWaitRequest, isNotifyOrPop] using hsince)
    revert hheld
    unfold Held
    cases s.background <;> simp
  | mission pc =>
    simp only [ExperimentController.step] at hs
    split_ifs at hs with hpc
    cases pc with
    | notifyWait => exact ⟨by simp [isWaitRequest, isNotifyOrPop], hg.snoc (by simp [isIteration])⟩
    | notifySet =>
      cases hs
      refine ⟨fun hsince => ?_, hg.snoc (by simp [isIteration])⟩
      have hheld := hh (by simpa [isWaitRequest, isNotifyOrPop] using hsince)
      have hnr : s.missionLoopNotificationRequested = false := by
        by_contra hnr
        rw [Bool.not_eq_false] at hnr
        cases hsince : since isAsk isAnswer es with
        | true => exact ((hclean.outstanding hsince).2.2.1 hnr) hpc
        | false => exact (hclean.settled hsince).2 hpc
      unfold Held at hheld ⊢
      cases hb : s.background with
      | wait =>
        -- the call answered the request, so it is not pending
        rw [hb, hnr] at hheld
        exact absurd hheld.1 (by simp)
      | _ => rw [hb] at hheld; exact hheld
    | _ =>
      cases hs
      exact quiet (held_congr rfl rfl rfl rfl) (by simp [isWaitRequest]) (by simp [isNotifyOrPop])
        (by simp [isIteration])
  | startReturns result =>
    simp only [ExperimentController.step] at hs
    split_ifs at hs with hb
    cases hs
    refine ⟨fun hsince => ?_, hg.snoc (by simp [isIteration])⟩
    have hheld := hh (by simpa [isWaitRequest, isNotifyOrPop] using hsince)
    simp [Held, hb, leaving] at hheld
  | checkAbort aborted =>
    simp only [ExperimentController.step] at hs
    split_ifs at hs with hb hab
    · cases hs
      exact ⟨fun _ => rfl, hg.snoc (by simp [isIteration])⟩
    · cases hs
      refine ⟨fun hsince => ?_, hg.snoc (by simp [isIteration])⟩
      have hheld := hh (by simpa [isWaitRequest, isNotifyOrPop] using hsince)
      simp [Held, hb.1, hb.2, hab] at hheld
  | iterationReturns result =>
    simp only [ExperimentController.step] at hs
    split_ifs at hs with hb
    cases hs
    refine ⟨fun hsince => ?_, hg.snoc (by simp [isIteration])⟩
    by_cases hr : result = .waitForNextCycle
    · exact hr
    · have hheld := hh (by simpa [isWaitRequest, isNotifyOrPop, hr] using hsince)
      simp [Held, hb, leaving] at hheld
  | background pc =>
    simp only [ExperimentController.step] at hs
    split_ifs at hs with hpc
    cases pc with
    | pop => exact ⟨by simp [isWaitRequest, isNotifyOrPop], hg.snoc (by simp [isIteration])⟩
    | setNotificationRequested =>
      cases hs
      have hclear : s.missionLoopIterationStarted = false := hclean.fresh (by rw [hpc]; rfl)
      exact ⟨fun _ => ⟨rfl, hclear⟩, hg.snoc (by simp [isIteration])⟩
    | iterate =>
      have hfree : since isWaitRequest isNotifyOrPop es = false := by
        by_contra hsince
        have hheld := hh (by simpa using hsince)
        simp [Held, hpc, leaving] at hheld
      cases hs
      exact ⟨by simp [isWaitRequest, isNotifyOrPop, hfree], hg.snoc fun _ => hfree⟩
    | wait =>
      simp only [backgroundStep] at hs
      split_ifs at hs with hbits
      cases hs
      refine ⟨fun hsince => ?_, hg.snoc (by simp [isIteration])⟩
      have hheld := hh (by simpa [isWaitRequest, isNotifyOrPop] using hsince)
      simp only [Held, hpc] at hheld
      -- not started, so the wait ended by an abort
      simpa [Held, hheld.2] using hbits
    | storeIterationResult result =>
      refine ⟨fun hsince => ?_, hg.snoc (by simp [isIteration])⟩
      have hheld := hh (by simpa [isWaitRequest, isNotifyOrPop] using hsince)
      obtain rfl : result = .waitForNextCycle := by simpa [Held, hpc] using hheld
      simp only [backgroundStep, reduceCtorEq, if_false, if_true] at hs
      split_ifs at hs
      cases hs
      exact trivial
    | stop result => cases hs; exact ⟨fun _ => rfl, hg.snoc (by simp [isIteration])⟩
    | clearCurrent =>
      simp only [backgroundStep] at hs
      split_ifs at hs
      cases hs
      exact ⟨fun _ => rfl, hg.snoc (by simp [isIteration])⟩
    | clearInProgress => cases hs; exact ⟨fun _ => rfl, hg.snoc (by simp [isIteration])⟩
    | checkAbort => exact absurd hs (by simp [backgroundStep])
    | _ =>
      -- nobody is held here
      refine ⟨fun hsince => ?_, hg.snoc (by simp [isIteration])⟩
      have hheld := hh (by simpa [isWaitRequest, isNotifyOrPop] using hsince)
      simp [Held, hpc, leaving] at hheld

/-! ## The end of the wait -/

/-- A task that waits has a request pending, or it is being answered, or has been. -/
def Asked (s : ExperimentController) : Prop :=
  s.background = .wait → s.missionLoopNotificationRequested = true ∨ s.mission = .notifySet ∨
    s.missionLoopIterationStarted = true

theorem asked_init : Asked init := by
  intro h; exact absurd h (by simp [init])

theorem Asked.step (h : Asked s) (hs : step registered s e = some t) : Asked t := by
  cases e with
  | request code => simp only [ExperimentController.step] at hs; split_ifs at hs <;> cases hs <;> exact h
  | store r => simp only [ExperimentController.step] at hs; split_ifs at hs; cases hs; exact h
  | abort => cases hs; exact h
  | startReturns result =>
    simp only [ExperimentController.step] at hs
    split_ifs at hs
    cases hs
    intro hw; exact absurd hw (by simp)
  | checkAbort aborted =>
    simp only [ExperimentController.step] at hs
    split_ifs at hs <;> cases hs <;> intro hw <;> exact absurd hw (by simp)
  | iterationReturns result =>
    simp only [ExperimentController.step] at hs
    split_ifs at hs
    cases hs
    intro hw; exact absurd hw (by simp)
  | mission pc =>
    simp only [ExperimentController.step] at hs
    split_ifs at hs with hpc
    intro hw
    have hw' : s.background = .wait := by rw [← (missionStep_frame hs).1]; exact hw
    have hasked := h hw'
    rw [hpc] at hasked
    cases pc with
    | notifyWait =>
      simp only [missionStep] at hs
      split_ifs at hs with hnr
      · -- the request is taken, the answer is next
        cases hs; exact Or.inr (Or.inl rfl)
      · cases hs
        exact Or.inr (Or.inr (by simpa [hnr] using hasked))
    | notifySet => cases hs; exact Or.inr (Or.inr rfl)
    | _ =>
      cases hs
      rcases hasked with h | h | h
      · exact Or.inl h
      · exact absurd h (by simp)
      · exact Or.inr (Or.inr h)
  | background pc =>
    simp only [ExperimentController.step] at hs
    split_ifs at hs with hpc
    cases pc with
    | setNotificationRequested => cases hs; exact fun _ => Or.inl rfl
    | clearAbortRequest => cases hs; intro hw; exact absurd hw (by simp)
    | pop =>
      simp only [backgroundStep] at hs
      split at hs <;> cases hs
      intro hw; exact absurd hw (by simp)
    | _ =>
      have honward := backgroundStep_onward (by simp) (by simp) hs
      intro hw; exact absurd (honward.wait hw) (by simp)

/-- Any step but the end of the wait. -/
def StillWaiting (_ : ExperimentController) (e : ControllerEvent) : Prop := e ≠ .background .wait

/-- A waiting task stays where it is, and the two bits that end the wait stay set. -/
theorem wait_stable (hw : s.background = .wait) (hstill : StillWaiting s e)
    (hs : step registered s e = some t) :
    t.background = .wait ∧ (s.abortRequest = true ∨ e = .abort → t.abortRequest = true) ∧
      (s.missionLoopIterationStarted = true → t.missionLoopIterationStarted = true) := by
  cases e with
  | request code =>
    simp only [step] at hs
    split_ifs at hs <;> cases hs <;> exact ⟨hw, by simp, id⟩
  | store r => simp only [step] at hs; split_ifs at hs; cases hs; exact ⟨hw, by simp, id⟩
  | abort => cases hs; exact ⟨hw, fun _ => rfl, id⟩
  | startReturns result => simp [step, hw] at hs
  | checkAbort aborted => simp [step, hw] at hs
  | iterationReturns result => simp [step, hw] at hs
  | mission pc =>
    simp only [step] at hs
    split_ifs at hs
    obtain ⟨hb, hab⟩ := missionStep_frame hs
    refine ⟨hb.trans hw, by simp [hab], ?_⟩
    cases pc <;> simp only [missionStep] at hs <;> (try split_ifs at hs) <;> cases hs <;> simp
  | background pc =>
    simp only [step] at hs
    split_ifs at hs with hpc
    rw [hw] at hpc
    rw [← hpc] at hstill
    exact absurd rfl hstill

/-- The call is under way, or the bit is set. -/
def Answering (s : ExperimentController) : Prop :=
  s.mission = .notifyWait ∨ s.mission = .notifySet ∨ s.missionLoopIterationStarted = true

theorem Answering.step (h : Answering s) (hw : s.background = .wait) (hasked : Asked s)
    (hstill : StillWaiting s e) (hs : step registered s e = some t) : Answering t := by
  obtain ⟨_, _, hkeep⟩ := wait_stable hw hstill hs
  -- steps of the others do not move the mission loop
  have others (hm : t.mission = s.mission) : Answering t := by
    rcases h with h | h | h
    · exact Or.inl (hm.trans h)
    · exact Or.inr (Or.inl (hm.trans h))
    · exact Or.inr (Or.inr (hkeep h))
  cases e with
  | request code =>
    simp only [ExperimentController.step] at hs
    split_ifs at hs <;> cases hs <;> exact others rfl
  | store r => simp only [ExperimentController.step] at hs; split_ifs at hs; cases hs; exact others rfl
  | abort => cases hs; exact others rfl
  | startReturns result => simp [ExperimentController.step, hw] at hs
  | checkAbort aborted => simp [ExperimentController.step, hw] at hs
  | iterationReturns result => simp [ExperimentController.step, hw] at hs
  | background pc =>
    simp only [ExperimentController.step] at hs
    split_ifs at hs with hpc
    rw [hw] at hpc
    rw [← hpc] at hstill
    exact absurd rfl hstill
  | mission pc =>
    simp only [ExperimentController.step] at hs
    split_ifs at hs with hpc
    cases pc with
    | notifyWait =>
      simp only [missionStep] at hs
      split_ifs at hs with hnr
      · cases hs; exact Or.inr (Or.inl rfl)
      · -- nothing is asked any more, so the bit is set already
        cases hs
        rcases hasked hw with h | h | h
        · exact absurd h hnr
        · rw [hpc] at h; exact absurd h (by simp)
        · exact Or.inr (Or.inr h)
    | notifySet => cases hs; exact Or.inr (Or.inr rfl)
    | _ =>
      rcases h with h | h | h
      · rw [hpc] at h; exact absurd h (by simp)
      · rw [hpc] at h; exact absurd h (by simp)
      · exact Or.inr (Or.inr (hkeep h))

theorem wake_of_bits (hw : s.background = .wait)
    (h : s.missionLoopIterationStarted = true ∨ s.abortRequest = true) :
    (step registered s (.background .wait)).isSome = true := by
  rcases h with h | h <;> simp [step, backgroundStep, hw, h]

/-- An abort ends the wait. -/
theorem abort_wakes {es : List ControllerEvent} (hw : s.background = .wait)
    (h : Run (step registered) StillWaiting s es t) (hab : s.abortRequest = true ∨ .abort ∈ es) :
    (step registered t (.background .wait)).isSome = true := by
  have hinv : t.background = .wait ∧ (s.abortRequest = true ∨ .abort ∈ es → t.abortRequest = true) := by
    refine h.inv_trace (I := fun es u => u.background = .wait ∧
      (s.abortRequest = true ∨ .abort ∈ es → u.abortRequest = true)) ⟨hw, by simp⟩ ?_
    intro es u e v ⟨hu, hbit⟩ hstill hstep
    obtain ⟨hv, hkeep, _⟩ := wait_stable hu hstill hstep
    refine ⟨hv, fun hsome => hkeep ?_⟩
    rcases hsome with hs | hs
    · exact Or.inl (hbit (Or.inl hs))
    · rcases List.mem_append.1 hs with hs | hs
      · exact Or.inl (hbit (Or.inr hs))
      · exact Or.inr (List.mem_singleton.1 hs).symm
  exact wake_of_bits hinv.1 (Or.inr (hinv.2 hab))

/-- The next call of `NotifyLoopIterationStart` ends the wait, whatever happens during it. -/
theorem notified {es : List ControllerEvent} (hasked : Asked s) (hw : s.background = .wait)
    (hcall : s.mission = .notifyWait) (h : Run (step registered) StillWaiting s es t)
    (hreturn : t.mission ≠ .notifyWait ∧ t.mission ≠ .notifySet) :
    (step registered t (.background .wait)).isSome = true := by
  obtain ⟨hw', _, hanswer⟩ : t.background = .wait ∧ Asked t ∧ Answering t := by
    refine h.inv (I := fun u => u.background = .wait ∧ Asked u ∧ Answering u)
      ⟨hw, hasked, Or.inl hcall⟩ ?_
    intro u e v ⟨hu, hasked, hanswer⟩ hstill hstep
    exact ⟨(wait_stable hu hstill hstep).1, hasked.step hstep, hanswer.step hu hasked hstill hstep⟩
  rcases hanswer with h | h | h
  · exact absurd h hreturn.1
  · exact absurd h hreturn.2
  · exact wake_of_bits hw' (Or.inl h)

/-- **Iterations keep pace with the mission loop**: in undisturbed runs no iteration starts
after `WaitForNextCycle` before a later notification. In every run the wait is ended by an
abort or by the next complete call of `NotifyLoopIterationStart`. -/
theorem iterations_paced {es : List ControllerEvent} (h : Run (step registered) always init es s) :
    (Undisturbed es → Guarded isIteration isWaitRequest isNotifyOrPop es) ∧
    (s.background = .wait → ∀ es' t, Run (step registered) StillWaiting s es' t →
      s.abortRequest = true ∨ .abort ∈ es' ∨
        (s.mission = .notifyWait ∧ t.mission ≠ .notifyWait ∧ t.mission ≠ .notifySet) →
      (step registered t (.background .wait)).isSome = true) := by
  have hasked : Asked s := h.inv asked_init fun _ _ _ hs _ hstep => hs.step hstep
  refine ⟨fun hquiet => ?_, fun hw es' t h' hcause => ?_⟩
  · have hpaced : Clean es s ∧ Paced es s :=
      h.inv_of_prefix (I := fun es u => Clean es u ∧ Paced es u) (C := Undisturbed)
        (fun _ _ hC => hC.of_snoc) ⟨clean_init, paced_init⟩
        (fun _ _ _ _ hC hI _ hstep => ⟨hI.1.step hC hstep, hI.2.step hI.1 hstep⟩) hquiet
    exact hpaced.2.guarded
  · rcases hcause with hab | hab | ⟨hcall, hreturn⟩
    · exact abort_wakes hw h' (Or.inl hab)
    · exact abort_wakes hw h' (Or.inr hab)
    · exact notified hasked hw hcall h' hreturn

/-- The first iteration returns `WaitForNextCycle`, and the task waits. -/
def waitForCycle : List ControllerEvent :=
  [.iterationReturns .waitForNextCycle, .background (.storeIterationResult .waitForNextCycle),
    .background .setNotificationRequested]

/-- One call of `NotifyLoopIterationStart` that finds a request. -/
def notifyCall : List ControllerEvent := [.mission .notifyWait, .mission .notifySet]

/-- An experiment that waits, is notified and aborted before its next round, and another one
behind it that waits too. -/
def pacedRun : List ControllerEvent :=
  ([.request 1, .store ⟨0, 1⟩] : List ControllerEvent) ++ startCycle ++ takeUp ++ firstIteration ++
    waitForCycle ++ ([.mission .shouldKick] : List ControllerEvent) ++ notifyCall ++
    ([.abort, .background .wait, .checkAbort true, .background (.stop .failure),
      .background .clearCurrent, .background .clearInProgress, .mission .shouldStart,
      .mission .isRequested, .request 2, .store ⟨1, 2⟩] : List ControllerEvent) ++
    startCycle ++ takeUp ++ firstIteration ++ waitForCycle ++
    ([.mission .shouldKick] : List ControllerEvent)

instance : Decidable (StillWaiting s e) := inferInstanceAs (Decidable (_ ≠ _))

/-- The task waits for the second time, and the mission loop is about to notify it. -/
def waitingState : ExperimentController :=
  { init with
    inProgress := true
    missionLoopNotificationRequested := true
    currentExperiment := some 2
    lastStartResult := some .success
    lastIterationResult := some .waitForNextCycle
    iterationCounter := 1
    mission := .notifyWait
    background := .wait
    taken := some ⟨1, 2⟩
    nextId := 2
    accepted := [0, 1]
    completed := [0] }

theorem pacedRun_undisturbed : Undisturbed pacedRun := ⟨by decide, by decide⟩

theorem iterations_paced_two :
    ∃ t, Run (step fun _ => true) always init pacedRun waitingState ∧
      Run (step fun _ => true) StillWaiting waitingState notifyCall t ∧
      Guarded isIteration isWaitRequest isNotifyOrPop pacedRun ∧
      (step (fun _ => true) t (.background .wait)).isSome = true := by
  have h : Run (step fun _ => true) always init pacedRun waitingState := run_of_exec pacedRun rfl
  have h' : Run (step fun _ => true) StillWaiting waitingState notifyCall _ :=
    run_of_exec notifyCall rfl
  obtain ⟨hguard, hwake⟩ := iterations_paced h
  exact ⟨_, h, h', hguard pacedRun_undisturbed,
    hwake rfl _ _ h' (Or.inr (Or.inr ⟨rfl, by decide, by decide⟩))⟩

/-- An experiment aborted in its wait leaves its request for a notification behind. The
mission loop answers it during the first iteration of the next experiment, and the second
one follows at once. -/
def aheadRun : List ControllerEvent :=
  ([.request 1, .store ⟨0, 1⟩] : List ControllerEvent) ++ startCycle ++ takeUp ++ firstIteration ++
    waitForCycle ++ ([.abort, .background .wait, .checkAbort true, .background (.stop .failure),
      .background .clearCurrent, .background .clearInProgress,
      .request 2, .store ⟨1, 2⟩] : List ControllerEvent) ++ startCycle ++ takeUp ++ firstIteration ++
    ([.mission .shouldKick] : List ControllerEvent) ++ notifyCall ++ waitForCycle ++
    ([.background .wait, .checkAbort false, .background .clearIterationStarted] : List ControllerEvent)

theorem iteration_ahead :
    (∃ s, Run (step fun _ => true) always init (aheadRun ++ [.background .iterate]) s) ∧
      ¬ Guarded isIteration isWaitRequest isNotifyOrPop (aheadRun ++ [.background .iterate]) := by
  constructor
  · have h : Run (step fun _ => true) always init (aheadRun ++ [.background .iterate]) _ :=
      run_of_exec _ rfl
    exact ⟨_, h⟩
  · intro h
    exact absurd (h aheadRun (.background .iterate) [] rfl (by decide)) (by decide)

end PWSat2OBC.ExperimentController
