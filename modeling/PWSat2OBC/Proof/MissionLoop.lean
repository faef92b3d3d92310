import PWSat2OBC.Spec.MissionLoop

/-!
# The protocol of the mission loop

* `Protocol`: where the loop task can be while a call waits for it, and which flags are
  set there.
* `protocol_kept`: under the conditions `ResumeSeen` the loop task rests after a call
  returned, each request gets one iteration, and no `Resume` is lost.

`Resume` wakes a task only if it is suspended, and the loop task acknowledges before it
suspends itself. The conditions are about that window: a `Resume` in it does nothing, and
one that `RequestSingleIteration` repeats just after it wakes a task that is done.
-/

namespace PWSat2OBC.MissionLoop

open Runs

variable {s t : MissionLoop} {e : MissionEvent}

/-! ## The protocol -/

/-- Positions where the loop task owes nothing to a call. -/
def resting : LoopPc → Bool
  | .wait | .runPeriodic | .inPeriodic | .suspendSelf => true
  | _ => false

/-- A call waits for the loop task; `requested` for a single iteration, too. -/
inductive Protocol (requested : Bool) : MissionFlags → Bool → LoopPc → Prop
  /-- Not seen yet. -/
  | asked {suspended : Bool} {pc : LoopPc} (hpc : resting pc = true) (hs : suspended = true → pc = .wait) :
    Protocol requested ⟨true, false, requested, false⟩ suspended pc
  | runRequested {result : MissionFlags} (hreq : requested = true) (hres : result.pauseRequest = true) :
    Protocol requested ⟨true, false, requested, false⟩ false (.runRequested result)
  | inRequested {result : MissionFlags} (hreq : requested = true) (hres : result.pauseRequest = true) :
    Protocol requested ⟨true, false, requested, false⟩ false (.inRequested result)
  | clearRunOnceRequest {result : MissionFlags} (hreq : requested = true) (hres : result.pauseRequest = true) :
    Protocol requested ⟨true, false, requested, false⟩ false (.clearRunOnceRequest result)
  | setRunOnceFinished {result : MissionFlags} (hreq : requested = true) (hres : result.pauseRequest = true) :
    Protocol requested ⟨true, false, false, false⟩ false (.setRunOnceFinished result)
  | clearPauseRequest : Protocol requested ⟨true, false, false, requested⟩ false .clearPauseRequest
  | setPauseAck : Protocol requested ⟨false, false, false, requested⟩ false .setPauseAck
  /-- Answered, but not suspended yet. -/
  | suspendSelf : Protocol requested ⟨false, true, false, requested⟩ false .suspendSelf
  | suspended : Protocol requested ⟨false, true, false, requested⟩ true .wait

/-- No call waits. -/
structure Settled (s : MissionLoop) : Prop where
  flags : s.flags = ⟨false, false, false, false⟩
  loop : resting s.loop = true
  suspended : s.suspended = true → s.loop = .wait

def InProtocol (s : MissionLoop) : Prop :=
  match s.control with
  | .idle => Settled s
  | .suspendWait => Protocol false s.flags s.suspended s.loop
  | .requestResume | .requestWait => Protocol true s.flags s.suspended s.loop

/-- What the code does not see to: `Resume` is not called while the loop task stands
between its acknowledgement and its suspension, and `RequestSingleIteration` does not
repeat `Resume` when the task has served the request and suspended itself. -/
def ResumeSeen (s : MissionLoop) (e : MissionEvent) : Prop :=
  (match e with
  | .resume => s.loop ≠ .suspendSelf
  | .requestResume => !(s.suspended && s.flags.runOnceFinished)
  | _ => true) = true

instance : Decidable (ResumeSeen s e) := inferInstanceAs (Decidable (_ = true))

theorem afterWait_asked {requested : Bool} :
    Protocol requested ⟨true, false, requested, false⟩ false (afterWait ⟨true, false, requested, false⟩) := by
  cases requested with
  | false => exact .clearPauseRequest
  | true => exact .runRequested rfl rfl

/-- A step of the loop task. -/
theorem Protocol.loopStep {requested : Bool} (h : Protocol requested s.flags s.suspended s.loop)
    (hs : s.suspended = false) :
    Protocol requested (s.loopStep s.loop).flags (s.loopStep s.loop).suspended (s.loopStep s.loop).loop := by
  obtain ⟨flags, suspended, pc, control⟩ := s
  obtain rfl : suspended = false := hs
  cases h with
  | asked hpc _ =>
    cases pc <;> simp only [resting, Bool.false_eq_true] at hpc
    · exact afterWait_asked
    · exact .asked rfl fun _ => rfl
    · exact .asked rfl (by simp [MissionLoop.loopStep])
    · exact .asked rfl (by simp [MissionLoop.loopStep])
  | runRequested hreq hres => exact .inRequested hreq hres
  | inRequested hreq hres => exact .clearRunOnceRequest hreq hres
  | clearRunOnceRequest hreq hres => exact .setRunOnceFinished hreq hres
  | setRunOnceFinished hreq hres =>
    -- the result that asked for the iteration asks for the pause, too
    have hnext : ∀ result : MissionFlags, result.pauseRequest = true →
        afterRunOnce result = .clearPauseRequest := by
      intro result hres
      simp [afterRunOnce, hres]
    simp only [MissionLoop.loopStep, hnext _ hres, hreq]
    exact .clearPauseRequest
  | clearPauseRequest => exact .setPauseAck
  | setPauseAck => exact .suspendSelf
  | suspendSelf => exact .suspended

theorem Settled.loopStep (h : Settled s) (hs : s.suspended = false) : Settled (s.loopStep s.loop) := by
  obtain ⟨hflags, hloop, -⟩ := h
  cases hpc : s.loop <;> rw [hpc] at hloop <;> simp only [resting, Bool.false_eq_true] at hloop
  · constructor <;> simp [MissionLoop.loopStep, hflags, afterWait, afterRunOnce, resting, hs]
  · constructor <;> simp [MissionLoop.loopStep, hflags, resting]
  · constructor <;> simp [MissionLoop.loopStep, hflags, resting, hs]
  · constructor <;> simp [MissionLoop.loopStep, hflags, resting]

theorem inProtocol_init : InProtocol init := ⟨rfl, rfl, fun _ => rfl⟩

/-- The flags of a request that was answered, and where the loop task is then. -/
theorem Protocol.answered {requested : Bool} (h : Protocol requested s.flags s.suspended s.loop)
    (hack : s.flags.pauseAck = true) :
    s.flags = ⟨false, true, false, requested⟩ ∧
      (s.loop = .suspendSelf ∧ s.suspended = false ∨ s.loop = .wait ∧ s.suspended = true) := by
  obtain ⟨flags, suspended, pc, control⟩ := s
  cases h <;> simp_all

/-- A `Resume` repeated by `RequestSingleIteration`. -/
theorem Protocol.resume {flags : MissionFlags} {suspended : Bool} {pc : LoopPc}
    (h : Protocol true flags suspended pc) (hok : (suspended && flags.runOnceFinished) = false) :
    Protocol true flags false pc := by
  cases h with
  | asked hpc _ => exact .asked hpc (by simp)
  | runRequested hreq hres => exact .runRequested hreq hres
  | inRequested hreq hres => exact .inRequested hreq hres
  | clearRunOnceRequest hreq hres => exact .clearRunOnceRequest hreq hres
  | setRunOnceFinished hreq hres => exact .setRunOnceFinished hreq hres
  | clearPauseRequest => exact .clearPauseRequest
  | setPauseAck => exact .setPauseAck
  | suspendSelf => exact .suspendSelf
  | suspended => exact absurd hok (by simp)

theorem InProtocol.step (h : InProtocol s) (hok : ResumeSeen s e) (hs : step s e = some t) : InProtocol t := by
  unfold InProtocol at h
  cases e with
  | loop pc =>
    simp only [MissionLoop.step] at hs
    split_ifs at hs with hpc
    obtain rfl := Option.some.inj hs
    obtain ⟨hsus, rfl⟩ := hpc
    have hcontrol : (s.loopStep s.loop).control = s.control := by cases s.loop <;> rfl
    unfold InProtocol
    rw [hcontrol]
    cases hc : s.control <;> rw [hc] at h
    · exact Settled.loopStep h hsus
    · exact Protocol.loopStep h hsus
    · exact Protocol.loopStep h hsus
    · exact Protocol.loopStep h hsus
  | requestTimeout =>
    simp only [MissionLoop.step] at hs
    split_ifs at hs with hc
    obtain rfl := Option.some.inj hs
    rw [hc.1] at h
    exact h
  | requestResume =>
    simp only [MissionLoop.step] at hs
    split_ifs at hs with hc
    obtain rfl := Option.some.inj hs
    rw [hc] at h
    have hok : (!(s.suspended && s.flags.runOnceFinished)) = true := hok
    exact Protocol.resume h (by rwa [Bool.not_eq_true'] at hok)
  | requestMissed =>
    -- the flags of an answer are just the two
    simp only [MissionLoop.step] at hs
    split_ifs at hs with hc
    obtain ⟨hc, -, hack, hne⟩ := hc
    rw [hc] at h
    exact absurd (Protocol.answered h hack).1 hne
  | requestReturns =>
    simp only [MissionLoop.step] at hs
    split_ifs at hs with hc
    obtain rfl := Option.some.inj hs
    obtain ⟨hc, hflags⟩ := hc
    rw [hc] at h
    obtain ⟨-, hloop | hloop⟩ := Protocol.answered h (by rw [hflags])
    · exact ⟨by simp [hflags], by simp [hloop.1, resting], by simp [hloop.2]⟩
    · exact ⟨by simp [hflags], by simp [hloop.1, resting], fun _ => hloop.1⟩
  | suspendReturns =>
    simp only [MissionLoop.step] at hs
    split_ifs at hs with hc
    obtain rfl := Option.some.inj hs
    obtain ⟨hc, hack⟩ := hc
    rw [hc] at h
    obtain ⟨hflags, hloop | hloop⟩ := Protocol.answered h hack
    · exact ⟨by simp [hflags], by simp [hloop.1, resting], by simp [hloop.2]⟩
    · exact ⟨by simp [hflags], by simp [hloop.1, resting], fun _ => hloop.1⟩
  | suspend =>
    simp only [MissionLoop.step] at hs
    split_ifs at hs with hc
    obtain rfl := Option.some.inj hs
    rw [hc] at h
    obtain ⟨hflags, hloop, hsus⟩ := h
    simp only [InProtocol, hflags]
    exact .asked hloop hsus
  | requestSingleIteration =>
    simp only [MissionLoop.step] at hs
    split_ifs at hs with hc
    obtain rfl := Option.some.inj hs
    rw [hc] at h
    obtain ⟨hflags, hloop, hsus⟩ := h
    simp only [InProtocol, hflags]
    exact .asked hloop hsus
  | resume =>
    simp only [MissionLoop.step] at hs
    split_ifs at hs with hc
    obtain rfl := Option.some.inj hs
    simp only [InProtocol, hc] at h ⊢
    exact ⟨h.flags, h.loop, by simp⟩

theorem inProtocol_of_run {es : List MissionEvent} (h : Run step ResumeSeen init es s) : InProtocol s :=
  h.inv inProtocol_init fun _ _ _ hs hok hstep => hs.step hok hstep

/-! ## After a call returned -/

/-- `RunOnce` is called. -/
def isRunStart : MissionEvent → Bool
  | .loop (.runRequested _) | .loop .runPeriodic => true
  | _ => false

/-- `Suspend` or `RequestSingleIteration` returns. -/
def isReturn (e : MissionEvent) : Bool := e = .suspendReturns ∨ e = .requestReturns

/-- A call that lets the loop run again. -/
def isWake (e : MissionEvent) : Bool := e = .resume ∨ e = .requestSingleIteration

/-- The loop task is suspended or about to be, and no request is under way. -/
structure Quiet (s : MissionLoop) : Prop where
  control : s.control = .idle ∨ s.control = .suspendWait
  loop : s.loop = .suspendSelf ∨ s.suspended = true

theorem quiet_of_return (h : InProtocol s) (he : isReturn e = true) (hs : step s e = some t) : Quiet t := by
  unfold InProtocol at h
  rcases of_decide_eq_true he with rfl | rfl
  · simp only [step] at hs
    split_ifs at hs with hc
    obtain rfl := Option.some.inj hs
    rw [hc.1] at h
    obtain ⟨-, hloop | hloop⟩ := Protocol.answered h hc.2
    · exact ⟨Or.inl rfl, Or.inl hloop.1⟩
    · exact ⟨Or.inl rfl, Or.inr hloop.2⟩
  · simp only [step] at hs
    split_ifs at hs with hc
    obtain rfl := Option.some.inj hs
    rw [hc.1] at h
    obtain ⟨-, hloop | hloop⟩ := Protocol.answered h (by rw [hc.2])
    · exact ⟨Or.inl rfl, Or.inl hloop.1⟩
    · exact ⟨Or.inl rfl, Or.inr hloop.2⟩

theorem Quiet.step (h : Quiet s) (he : isWake e = false) (hs : step s e = some t) :
    Quiet t ∧ isRunStart e = false := by
  obtain ⟨hcontrol, hloop⟩ := h
  cases e with
  | loop pc =>
    simp only [MissionLoop.step] at hs
    split_ifs at hs with hpc
    obtain rfl := Option.some.inj hs
    -- not suspended, so it stands before its suspension
    obtain ⟨hsus, rfl⟩ := hpc
    have hself : s.loop = .suspendSelf := by
      rcases hloop with h | h
      · exact h
      · rw [hsus] at h; exact Bool.noConfusion h
    rw [hself]
    exact ⟨⟨hcontrol, Or.inr rfl⟩, rfl⟩
  | suspend =>
    simp only [MissionLoop.step] at hs
    split_ifs at hs
    obtain rfl := Option.some.inj hs
    exact ⟨⟨Or.inr rfl, hloop⟩, rfl⟩
  | suspendReturns =>
    simp only [MissionLoop.step] at hs
    split_ifs at hs
    obtain rfl := Option.some.inj hs
    exact ⟨⟨Or.inl rfl, hloop⟩, rfl⟩
  | resume => simp [isWake] at he
  | requestSingleIteration => simp [isWake] at he
  | requestResume =>
    simp only [MissionLoop.step] at hs
    split_ifs at hs with hc
    rw [hc] at hcontrol
    simp at hcontrol
  | requestTimeout =>
    simp only [MissionLoop.step] at hs
    split_ifs at hs with hc
    rw [hc.1] at hcontrol
    simp at hcontrol
  | requestReturns =>
    simp only [MissionLoop.step] at hs
    split_ifs at hs with hc
    rw [hc.1] at hcontrol
    simp at hcontrol
  | requestMissed =>
    simp only [MissionLoop.step] at hs
    split_ifs at hs with hc
    rw [hc.1] at hcontrol
    simp at hcontrol

/-- **Nothing runs after a call returned**, until the next call that asks for it. -/
theorem Quiet.run {ok : MissionLoop → MissionEvent → Prop} {es : List MissionEvent} (h : Quiet s)
    (hrun : Run MissionLoop.step ok s es t) (hes : ∀ x ∈ es, isWake x = false) :
    Quiet t ∧ ∀ x ∈ es, isRunStart x = false := by
  induction hrun with
  | nil => exact ⟨h, by simp⟩
  | snoc _ _ hs ih =>
    obtain ⟨hq, hnone⟩ := ih fun x hx => hes x (List.mem_append_left _ hx)
    obtain ⟨hq', hlast⟩ := hq.step (hes _ (by simp)) hs
    refine ⟨hq', fun x hx => ?_⟩
    rcases List.mem_append.1 hx with hx | hx
    · exact hnone x hx
    · rw [List.mem_singleton.1 hx]; exact hlast

/-! ## Requested iterations -/

/-- `RunOnce` is called for a request. -/
def isRequestedStart : MissionEvent → Bool
  | .loop (.runRequested _) => true
  | _ => false

/-- It returns. -/
def isRequestedEnd : MissionEvent → Bool
  | .loop (.inRequested _) => true
  | _ => false

/-- Calls of `RunOnce` for the request under way, as far as the state tells. -/
def startedRuns (s : MissionLoop) : ℕ :=
  match s.loop with
  | .inRequested _ | .clearRunOnceRequest _ => 1
  | _ => if s.flags.runOnceRequest then 0 else 1

/-- And their ends. -/
def endedRuns (s : MissionLoop) : ℕ :=
  match s.loop with
  | .clearRunOnceRequest _ => 1
  | _ => if s.flags.runOnceRequest then 0 else 1

def underRequest (s : MissionLoop) : Bool := s.control = .requestResume ∨ s.control = .requestWait

theorem counts_loopStep (h : Protocol true s.flags s.suspended s.loop) (hs : s.suspended = false) :
    startedRuns (s.loopStep s.loop) =
      startedRuns s + (if isRequestedStart (.loop s.loop) then 1 else 0) ∧
    endedRuns (s.loopStep s.loop) =
      endedRuns s + (if isRequestedEnd (.loop s.loop) then 1 else 0) := by
  obtain ⟨flags, suspended, pc, control⟩ := s
  obtain rfl : suspended = false := hs
  cases h with
  | asked hpc _ =>
    cases pc <;> simp only [resting, Bool.false_eq_true] at hpc <;> exact ⟨rfl, rfl⟩
  | setRunOnceFinished hreq hres =>
    simp [MissionLoop.loopStep, afterRunOnce, hres, startedRuns, endedRuns, isRequestedStart, isRequestedEnd]
  | _ => exact ⟨rfl, rfl⟩

/-- One step of a request, or of the loop task under a request. -/
theorem counts_step (h : InProtocol s) (ht : underRequest t = true) (he : e ≠ .requestSingleIteration)
    (hs : step s e = some t) :
    underRequest s = true ∧ startedRuns t = startedRuns s + (if isRequestedStart e then 1 else 0) ∧
      endedRuns t = endedRuns s + (if isRequestedEnd e then 1 else 0) := by
  unfold InProtocol at h
  cases e with
  | loop pc =>
    simp only [step] at hs
    split_ifs at hs with hpc
    obtain rfl := Option.some.inj hs
    obtain ⟨hsus, rfl⟩ := hpc
    have hcontrol : (s.loopStep s.loop).control = s.control := by cases s.loop <;> rfl
    have hs : underRequest s = true := by
      unfold underRequest at ht ⊢
      rwa [hcontrol] at ht
    have hp : Protocol true s.flags s.suspended s.loop := by
      rcases of_decide_eq_true hs with hc | hc <;> rw [hc] at h <;> exact h
    exact ⟨hs, counts_loopStep hp hsus⟩
  | requestResume =>
    simp only [step] at hs
    split_ifs at hs with hc
    obtain rfl := Option.some.inj hs
    exact ⟨by simp [underRequest, hc], rfl, rfl⟩
  | requestTimeout | requestMissed =>
    simp only [step] at hs
    split_ifs at hs with hc
    obtain rfl := Option.some.inj hs
    exact ⟨by simp [underRequest, hc.1], rfl, rfl⟩
  | requestSingleIteration => exact absurd rfl he
  | suspend | suspendReturns | requestReturns =>
    -- none of them leads into a request
    simp only [step] at hs
    split_ifs at hs
    obtain rfl := Option.some.inj hs
    simp [underRequest] at ht
  | resume =>
    simp only [step] at hs
    split_ifs at hs with hc
    obtain rfl := Option.some.inj hs
    simp [underRequest, hc] at ht

/-- **What has run for a request** since its call. -/
theorem counts_run {es : List MissionEvent} (h : InProtocol s) (h0 : startedRuns s = 0)
    (h0' : endedRuns s = 0) (hrun : Run step ResumeSeen s es t) (hes : MissionEvent.requestSingleIteration ∉ es)
    (ht : underRequest t = true) :
    startedRuns t = es.countP isRequestedStart ∧ endedRuns t = es.countP isRequestedEnd := by
  induction hrun with
  | nil => exact ⟨h0, h0'⟩
  | @snoc es u t e hrun hok hs ih =>
    have hu : InProtocol u := hrun.inv h fun _ _ _ hi hok hstep => hi.step hok hstep
    simp only [List.mem_append, List.mem_singleton, not_or] at hes
    obtain ⟨hreq, h1, h2⟩ := counts_step hu ht (Ne.symm hes.2) hs
    obtain ⟨i1, i2⟩ := ih hes.1 hreq
    rw [List.countP_append, List.countP_append, List.countP_singleton, List.countP_singleton, h1, h2, i1, i2]
    exact ⟨rfl, rfl⟩

/-! ## After `Resume` -/

/-- A call that may stop the loop. -/
def isStop (e : MissionEvent) : Bool := e = .suspend ∨ e = .requestSingleIteration

/-- The loop task takes a step. -/
def isLoop : MissionEvent → Bool
  | .loop _ => true
  | _ => false

/-- The loop task goes round, with nothing asked of it. -/
structure Awake (s : MissionLoop) : Prop where
  control : s.control = .idle
  flags : s.flags = ⟨false, false, false, false⟩
  suspended : s.suspended = false
  loop : s.loop = .wait ∨ s.loop = .runPeriodic ∨ s.loop = .inPeriodic

/-- Steps of the loop since the last possible call of `RunOnce`. -/
def turnsDone : LoopPc → ℕ
  | .inPeriodic => 0
  | .wait => 1
  | _ => 2

theorem awake_of_resume (h : InProtocol s) (hok : ResumeSeen s .resume) (hs : step s .resume = some t) :
    Awake t := by
  simp only [step] at hs
  split_ifs at hs with hc
  obtain rfl := Option.some.inj hs
  unfold InProtocol at h
  rw [hc] at h
  obtain ⟨hflags, hloop, -⟩ := h
  have hself : s.loop ≠ .suspendSelf := of_decide_eq_true hok
  refine ⟨hc, hflags, rfl, ?_⟩
  cases hpc : s.loop <;> simp_all [resting]

/-- The loop task is not blocked, whatever it waits for. -/
theorem Awake.enabled (h : Awake s) : ∃ pc t, step s (.loop pc) = some t :=
  ⟨s.loop, s.loopStep s.loop, by simp [MissionLoop.step, h.suspended]⟩

theorem Awake.step (h : Awake s) (he : isStop e = false) (hs : step s e = some t) :
    Awake t ∧ (isRunStart e = false →
      turnsDone s.loop + (if isLoop e then 1 else 0) ≤ turnsDone t.loop) := by
  obtain ⟨hcontrol, hflags, hsus, hloop⟩ := h
  cases e with
  | loop pc =>
    simp only [MissionLoop.step] at hs
    split_ifs at hs with hpc
    obtain rfl := Option.some.inj hs
    obtain ⟨-, rfl⟩ := hpc
    rcases hloop with hloop | hloop | hloop <;> rw [hloop]
    · -- nothing is set, so an iteration is due
      have hnext : (s.loopStep .wait).loop = .runPeriodic := by
        simp [MissionLoop.loopStep, hflags, afterWait, afterRunOnce]
      refine ⟨⟨hcontrol, hflags, hsus, Or.inr (Or.inl hnext)⟩, fun _ => ?_⟩
      rw [hnext]
      exact le_rfl
    · exact ⟨⟨hcontrol, hflags, hsus, Or.inr (Or.inr rfl)⟩, by simp [isRunStart]⟩
    · exact ⟨⟨hcontrol, hflags, hsus, Or.inl rfl⟩, fun _ => le_rfl⟩
  | resume =>
    simp only [MissionLoop.step] at hs
    split_ifs at hs
    obtain rfl := Option.some.inj hs
    exact ⟨⟨hcontrol, hflags, rfl, hloop⟩, fun _ => le_rfl⟩
  | suspend => simp [isStop] at he
  | requestSingleIteration => simp [isStop] at he
  | _ =>
    -- no call is under way
    simp only [MissionLoop.step, hcontrol, reduceCtorEq, false_and, if_false] at hs

/-- **A resumed loop runs again**, within three steps of its task. -/
theorem Awake.run {ok : MissionLoop → MissionEvent → Prop} {es : List MissionEvent} (h : Awake s)
    (hrun : Run MissionLoop.step ok s es t) (hes : ∀ x ∈ es, isStop x = false) :
    Awake t ∧ ((∀ x ∈ es, isRunStart x = false) →
      turnsDone s.loop + es.countP isLoop ≤ turnsDone t.loop) := by
  induction hrun with
  | nil => exact ⟨h, fun _ => le_rfl⟩
  | snoc _ _ hs ih =>
    obtain ⟨ha, hcount⟩ := ih fun x hx => hes x (List.mem_append_left _ hx)
    obtain ⟨ha', hlast⟩ := ha.step (hes _ (by simp)) hs
    refine ⟨ha', fun hnone => ?_⟩
    have h1 := hcount fun x hx => hnone x (List.mem_append_left _ hx)
    have h2 := hlast (hnone _ (by simp))
    rw [List.countP_append, List.countP_singleton]
    omega

/-! ## The whole -/

/-- **The protocol holds** in every run that meets the conditions. -/
theorem protocol_kept {es : List MissionEvent} (h : Run step ResumeSeen init es s) :
    (∀ pre e post, es = pre ++ e :: post → isReturn e = true → (∀ x ∈ post, isWake x = false) →
      ∀ x ∈ post, isRunStart x = false) ∧
    (∀ pre mid post, es = pre ++ .requestSingleIteration :: (mid ++ .requestReturns :: post) →
      MissionEvent.requestSingleIteration ∉ mid →
      mid.countP isRequestedStart = 1 ∧ mid.countP isRequestedEnd = 1) ∧
    ∀ pre post, es = pre ++ .resume :: post → (∀ x ∈ post, isStop x = false) →
      (∃ pc t, step s (.loop pc) = some t) ∧
      (3 ≤ post.countP isLoop → ∃ x ∈ post, isRunStart x = true) := by
  refine ⟨?_, ?_, ?_⟩
  · rintro pre e post rfl he hpost
    obtain ⟨u, hpre, hrest⟩ := h.split
    obtain ⟨v, -, hs, hrun⟩ := hrest.uncons
    have hquiet := quiet_of_return (inProtocol_of_run hpre) he hs
    exact (hquiet.run hrun hpost).2
  · rintro pre mid post rfl hmid
    obtain ⟨u, hpre, hrest⟩ := h.split
    obtain ⟨v, hok, hs, hrun⟩ := hrest.uncons
    obtain ⟨w, hmidrun, hret⟩ := hrun.split
    obtain ⟨_, -, hw, -⟩ := hret.uncons
    have hu := inProtocol_of_run hpre
    have hv : InProtocol v := hu.step hok hs
    -- at the call nothing has run for it
    have hzero : startedRuns v = 0 ∧ endedRuns v = 0 := by
      simp only [step] at hs
      split_ifs at hs with hc
      obtain rfl := Option.some.inj hs
      unfold InProtocol at hu
      rw [hc] at hu
      have hrest := hu.loop
      unfold startedRuns endedRuns
      cases hpc : u.loop <;> simp_all [resting]
    -- at the return everything has
    simp only [step] at hw
    split_ifs at hw with hc
    have hunder : underRequest w = true := by simp [underRequest, hc.1]
    have hwp : InProtocol w := hmidrun.inv hv fun _ _ _ hi hok hstep => hi.step hok hstep
    unfold InProtocol at hwp
    rw [hc.1] at hwp
    obtain ⟨h1, h2⟩ := counts_run hv hzero.1 hzero.2 hmidrun hmid hunder
    obtain ⟨-, hloop | hloop⟩ := Protocol.answered hwp (by rw [hc.2])
    · rw [← h1, ← h2]
      simp [startedRuns, endedRuns, hloop.1, hc.2]
    · rw [← h1, ← h2]
      simp [startedRuns, endedRuns, hloop.1, hc.2]
  · rintro pre post rfl hpost
    obtain ⟨u, hpre, hrest⟩ := h.split
    obtain ⟨v, hok, hs, hrun⟩ := hrest.uncons
    have hawake := awake_of_resume (inProtocol_of_run hpre) hok hs
    obtain ⟨hend, hcount⟩ := hawake.run hrun hpost
    refine ⟨hend.enabled, fun hthree => ?_⟩
    by_contra hnone
    have hnone : ∀ x ∈ post, isRunStart x = false := by
      intro x hx
      by_contra hx'
      rw [Bool.not_eq_false] at hx'
      exact hnone ⟨x, hx, hx'⟩
    have hle : turnsDone s.loop ≤ 2 := by
      cases s.loop <;> simp [turnsDone]
    have := hcount hnone
    omega

/-- The flags the loop task sees when a single iteration is requested. -/
def requestFlags : MissionFlags := ⟨true, false, true, false⟩

/-- The loop task serves a request up to its acknowledgement. -/
def serve : List MissionEvent :=
  [.loop (.inRequested requestFlags), .loop (.clearRunOnceRequest requestFlags),
    .loop (.setRunOnceFinished requestFlags), .loop .clearPauseRequest, .loop .setPauseAck]

/-- The suspended loop is woken for a request and serves it. -/
def wakeAndServe : List MissionEvent :=
  [.requestResume, .loop .wait, .loop (.runRequested requestFlags)] ++ serve

/-- A single iteration, and then the loop is resumed. -/
def servedRun : List MissionEvent :=
  .requestSingleIteration :: (wakeAndServe ++
    .requestReturns :: [.loop .suspendSelf, .resume, .loop .wait, .loop .runPeriodic])

theorem protocol_kept_once :
    ∃ s, Run step ResumeSeen init servedRun s ∧
      wakeAndServe.countP isRequestedStart = 1 ∧ wakeAndServe.countP isRequestedEnd = 1 := by
  have h : Run step ResumeSeen init servedRun _ := run_of_exec servedRun rfl
  exact ⟨_, h, (protocol_kept h).2.1 [] wakeAndServe _ rfl (by decide)⟩

/-- `Resume` falls between the acknowledgement and the suspension. -/
def lostRun : List MissionEvent :=
  [.resume, .suspend, .loop .wait, .loop .clearPauseRequest, .loop .setPauseAck, .suspendReturns,
    .resume, .loop .suspendSelf]

/-- The wait in `RequestSingleIteration` times out while `RunOnce` goes on, and `Resume` is
repeated only after the request was served. -/
def lateResume : List MissionEvent :=
  [.requestSingleIteration, .requestResume, .loop .wait, .loop (.runRequested requestFlags),
    .requestTimeout] ++ serve ++ [.loop .suspendSelf, .requestResume]

/-- The loop goes on after the call has returned. -/
def extraRun : List MissionEvent := lateResume ++ .requestReturns :: [.loop .wait, .loop .runPeriodic]

/-- Without the conditions a `Resume` is lost, and an iteration runs after the request
returned. -/
theorem resume_lost :
    (∃ s, Run step always init lostRun s ∧ (∀ pc, step s (.loop pc) = none) ∧ s.control = .idle) ∧
    ∃ s post, Run step always init extraRun s ∧ extraRun = lateResume ++ .requestReturns :: post ∧
      (∀ x ∈ post, isWake x = false) ∧ ∃ x ∈ post, isRunStart x = true := by
  constructor
  · have h : Run step always init lostRun _ := run_of_exec lostRun rfl
    exact ⟨_, h, fun pc => rfl, rfl⟩
  · have h : Run step always init extraRun _ := run_of_exec extraRun rfl
    exact ⟨_, _, h, rfl, by decide, by decide⟩

end PWSat2OBC.MissionLoop
