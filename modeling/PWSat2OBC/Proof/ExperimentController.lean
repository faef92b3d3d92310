import PWSat2OBC.Spec.ExperimentController

/-!
# Experiment requests are accounted for

* `requests_cases`: the five kinds of steps that move a request.
* `Accounted`: every accepted request is in exactly one place, as long as the two places
  where requests get lost are counted too.
* `OneAtATime`: an experiment is started only while none is queued and none runs, because
  of the check of `InProgress` that comes first.
* `requests_accounted`: in every run with its steps in the order `InOrder` no request gets
  lost, and after an abort no iteration begins.

The order is what the code does not enforce: `InProgress` is set only after the queue has
been popped, so an accepted request can be started, and overwritten by the next one, before
it is seen to be in progress. An abort that comes between the pop and the clearing of
`AbortRequest` is cleared with the stale ones, and one that comes behind the check of a
round is seen only after that round's iteration.
-/

namespace PWSat2OBC.ExperimentController

open Runs

variable {registered : ExperimentCode → Bool} {s t : ExperimentController} {e : ControllerEvent}

/-! ## Steps that move requests -/

/-- The step leaves all requests where they are. -/
structure SameRequests (s t : ExperimentController) : Prop where
  pending : t.pending = s.pending
  queue : t.queue = s.queue
  taken : t.taken = s.taken
  passed : t.passed = s.passed
  nextId : t.nextId = s.nextId
  accepted : t.accepted = s.accepted
  replaced : t.replaced = s.replaced
  overwritten : t.overwritten = s.overwritten
  unhandled : t.unhandled = s.unhandled
  completed : t.completed = s.completed
  pop : t.background = .pop → s.background = .pop
  requested : ∀ r ∈ t.requestedExperiment, r ∈ s.requestedExperiment

/-- **What a step does to the requests.** -/
theorem requests_cases (h : step registered s e = some t) :
    SameRequests s t ∨
    (∃ code, e = .request code ∧
      t = { s with passed := ⟨s.nextId, code⟩ :: s.passed, nextId := s.nextId + 1 }) ∨
    (∃ r, e = .store r ∧ r ∈ s.passed ∧ s.lockFree = true ∧
      t = { s with
        passed := s.passed.erase r
        requestedExperiment := some r
        replaced := s.replaced ++ ids s.requestedExperiment
        accepted := s.accepted ++ [r.id] }) ∨
    (e = .mission .startOverwrite ∧ s.mission = .startOverwrite ∧
      t = { s with
        queue := s.requestedExperiment
        overwritten := s.overwritten ++ ids s.queue
        mission := .startClear }) ∨
    (∃ r, e = .background .pop ∧ s.background = .pop ∧ s.queue = some r ∧
      t = { s with queue := none, taken := some r, background := .find }) ∨
    (∃ r, e = .background .find ∧ s.taken = some r ∧ registered r.code = false ∧
      t = { s with taken := none, unhandled := s.unhandled ++ [r.id], background := .pop }) ∨
    (e = .background .clearInProgress ∧
      t = { s with
        inProgress := false
        completed := s.completed ++ ids s.taken
        taken := none
        background := .pop }) := by
  cases e with
  | request code =>
    simp only [step] at h
    split_ifs at h
    · cases h; exact Or.inl ⟨rfl, rfl, rfl, rfl, rfl, rfl, rfl, rfl, rfl, rfl, id, fun _ => id⟩
    · cases h; exact Or.inr (Or.inl ⟨code, rfl, rfl⟩)
  | store r =>
    simp only [step] at h
    split_ifs at h with hr
    cases h
    exact Or.inr (Or.inr (Or.inl ⟨r, rfl, hr.1, hr.2, rfl⟩))
  | abort => cases h; exact Or.inl ⟨rfl, rfl, rfl, rfl, rfl, rfl, rfl, rfl, rfl, rfl, id, fun _ => id⟩
  | startReturns result =>
    simp only [step] at h
    split_ifs at h
    cases h; exact Or.inl ⟨rfl, rfl, rfl, rfl, rfl, rfl, rfl, rfl, rfl, rfl, by simp, fun _ => id⟩
  | checkAbort aborted =>
    simp only [step] at h
    split_ifs at h <;> cases h <;>
      exact Or.inl ⟨rfl, rfl, rfl, rfl, rfl, rfl, rfl, rfl, rfl, rfl, by simp, fun _ => id⟩
  | iterationReturns result =>
    simp only [step] at h
    split_ifs at h
    cases h; exact Or.inl ⟨rfl, rfl, rfl, rfl, rfl, rfl, rfl, rfl, rfl, rfl, by simp, fun _ => id⟩
  | mission pc =>
    simp only [step] at h
    split_ifs at h with hpc
    cases pc with
    | startOverwrite =>
      cases h
      exact Or.inr (Or.inr (Or.inr (Or.inl ⟨rfl, hpc, rfl⟩)))
    | startClear =>
      -- the request cleared here went to the queue with the step before
      cases h
      exact Or.inl ⟨by simp [pending, hpc], rfl, rfl, rfl, rfl, rfl, rfl, rfl, rfl, rfl, id, by simp⟩
    | _ =>
      simp only [missionStep] at h
      (try split_ifs at h) <;> cases h <;>
        exact Or.inl ⟨by simp only [pending, hpc]; try (split_ifs <;> simp_all),
          rfl, rfl, rfl, rfl, rfl, rfl, rfl, rfl, rfl, id, fun _ => id⟩
  | background pc =>
    simp only [step] at h
    split_ifs at h with hpc
    cases pc with
    | pop =>
      simp only [backgroundStep] at h
      cases hq : s.queue with
      | none => rw [hq] at h; exact absurd h (by simp)
      | some r =>
        rw [hq] at h
        cases h
        exact Or.inr (Or.inr (Or.inr (Or.inr (Or.inl ⟨r, rfl, hpc, rfl, rfl⟩))))
    | find =>
      simp only [backgroundStep] at h
      cases hk : s.taken with
      | none => rw [hk] at h; exact absurd h (by simp)
      | some r =>
        rw [hk] at h
        simp only at h
        split_ifs at h with hreg
        · cases h
          exact Or.inl ⟨rfl, rfl, hk.symm, rfl, rfl, rfl, rfl, rfl, rfl, rfl, by simp, fun _ => id⟩
        · cases h
          rw [Bool.not_eq_true] at hreg
          exact Or.inr (Or.inr (Or.inr (Or.inr (Or.inr (Or.inl ⟨r, rfl, rfl, hreg, rfl⟩)))))
    | clearInProgress =>
      cases h
      exact Or.inr (Or.inr (Or.inr (Or.inr (Or.inr (Or.inr ⟨rfl, rfl⟩)))))
    | _ =>
      simp only [backgroundStep] at h
      (try split_ifs at h) <;> cases h <;>
        exact Or.inl ⟨rfl, rfl, rfl, rfl, rfl, rfl, rfl, rfl, rfl, rfl, by
          simp only; try split_ifs
          all_goals simp, fun _ => id⟩

/-! ## Accounts -/

/-- The places of the request with number `id`: waiting to be started, in the queue, being
run, run, or replaced. -/
def situations (s : ExperimentController) (id : ℕ) : ℕ :=
  (ids s.pending).count id + (ids s.queue).count id + (ids s.taken).count id +
    s.completed.count id + s.replaced.count id

/-- Every accepted request is in one place, the two bad ones included. -/
structure Accounted (s : ExperimentController) : Prop where
  counted : ∀ id, s.accepted.count id =
    situations s id + s.overwritten.count id + s.unhandled.count id
  nodup : (s.passed.map Request.id ++ s.accepted).Nodup
  fresh : ∀ id ∈ s.passed.map Request.id ++ s.accepted, id < s.nextId
  idle : s.background = .pop → s.taken = none

theorem accounted_init : Accounted init where
  counted := by intro id; rfl
  nodup := List.nodup_nil
  fresh := by intro id h; exact absurd h (by simp [init])
  idle := fun _ => rfl

theorem pending_of_lockFree (h : s.lockFree = true) : s.pending = s.requestedExperiment := by
  unfold pending
  split_ifs with hm
  · rw [lockFree, hm] at h; exact absurd h (by simp)
  · rfl

@[simp] theorem ids_none : ids none = [] := rfl

@[simp] theorem ids_some (r : Request) : ids (some r) = [r.id] := rfl

theorem Accounted.step (h : Accounted s) (hs : step registered s e = some t) : Accounted t := by
  have hcount := h.counted
  rcases requests_cases hs with hsame | ⟨code, _, rfl⟩ | ⟨r, _, hr, hfree, ht⟩ | ⟨_, hm, rfl⟩ |
    ⟨r, _, hpop, hq, rfl⟩ | ⟨r, _, hk, _, rfl⟩ | ⟨_, rfl⟩
  · constructor
    · intro id
      simp only [situations, hsame.pending, hsame.queue, hsame.taken, hsame.completed, hsame.replaced,
        hsame.accepted, hsame.overwritten, hsame.unhandled]
      exact hcount id
    · rw [hsame.passed, hsame.accepted]; exact h.nodup
    · rw [hsame.passed, hsame.accepted, hsame.nextId]; exact h.fresh
    · intro hp; rw [hsame.taken]; exact h.idle (hsame.pop hp)
  · -- a new number
    constructor
    · exact hcount
    · refine List.nodup_cons.2 ⟨fun hmem => ?_, h.nodup⟩
      exact absurd (h.fresh _ hmem) (lt_irrefl _)
    · intro id hid
      rcases List.mem_cons.1 hid with rfl | hid
      · exact Nat.lt_succ_self _
      · exact Nat.lt_succ_of_lt (h.fresh id hid)
    · exact h.idle
  · -- the request becomes the pending one, and the one before it is replaced
    have hperm : (s.passed.map Request.id ++ s.accepted).Perm
        ((s.passed.erase r).map Request.id ++ (s.accepted ++ [r.id])) := by
      have h1 := ((List.perm_cons_erase hr).map Request.id).append_right s.accepted
      refine h1.trans ?_
      rw [List.map_cons, List.cons_append, ← List.append_assoc]
      exact (List.perm_append_singleton _ _).symm
    have hp := pending_of_lockFree hfree
    have hp' : t.pending = some r := by rw [ht]; exact pending_of_lockFree hfree
    constructor
    · intro id
      have hc := hcount id
      simp only [situations, hp, hp'] at hc ⊢
      simp only [ht, List.count_append, ids_some] at hc ⊢
      omega
    · rw [ht]; exact hperm.nodup_iff.1 h.nodup
    · rw [ht]; exact fun id hid => h.fresh id (hperm.mem_iff.2 hid)
    · rw [ht]; exact h.idle
  · -- from the field to the queue
    refine ⟨fun id => ?_, h.nodup, h.fresh, h.idle⟩
    have hc := hcount id
    simp only [situations, pending, hm, reduceCtorEq, if_false, if_true, ids_none, List.count_nil,
      List.count_append] at hc ⊢
    omega
  · -- from the queue to the task
    refine ⟨fun id => ?_, h.nodup, h.fresh, fun hp => absurd hp (by simp)⟩
    have hc := hcount id
    simp only [situations, hq, h.idle hpop, ids_none, List.count_nil] at hc ⊢
    simpa [pending] using hc
  · -- no such experiment
    refine ⟨fun id => ?_, h.nodup, h.fresh, fun _ => rfl⟩
    have hc := hcount id
    simp only [situations, hk, ids_none, ids_some, List.count_nil, List.count_append] at hc ⊢
    simp only [pending] at hc ⊢
    omega
  · -- run to the end
    refine ⟨fun id => ?_, h.nodup, h.fresh, fun _ => rfl⟩
    have hc := hcount id
    simp only [situations, ids_none, List.count_nil, List.count_append] at hc ⊢
    simp only [pending] at hc ⊢
    omega

/-! ## The order of steps -/

/-- `AbortExperiment` was called. -/
def isAbort (e : ControllerEvent) : Bool := e = .abort

/-- A request was popped. -/
def isPop (e : ControllerEvent) : Bool := e = .background .pop

/-- `Clear(AbortRequest)` at the start of an experiment. -/
def isClearAbort (e : ControllerEvent) : Bool := e = .background .clearAbortRequest

/-- `Set(InProgress)`. -/
def isSetInProgress (e : ControllerEvent) : Bool := e = .background .setInProgress

/-- `ShouldStartExperiment` looks at `InProgress`. -/
def isShouldStart (e : ControllerEvent) : Bool := e = .mission .shouldStart

/-- `_queue.Overwrite(..)`. -/
def isOverwrite (e : ControllerEvent) : Bool := e = .mission .startOverwrite

/-- The loop has looked for an abort request and goes on. -/
def isPassed (e : ControllerEvent) : Bool := e = .checkAbort false

/-- `experiment.Iteration()` is called. -/
def isIteration (e : ControllerEvent) : Bool := e = .background .iterate

/-- What the code does not enforce: callers use codes of registered experiments. From an
`Overwrite` to the task's `Set(InProgress)` the mission loop does not look at `InProgress`.
No abort falls between a pop and the clearing of `AbortRequest`, or between the check of a
round and its call of `Iteration`. -/
structure InOrder (registered : ExperimentCode → Bool) (es : List ControllerEvent) : Prop where
  registered : ∀ code, .request code ∈ es → registered code = true
  started : Guarded isShouldStart isOverwrite isSetInProgress es
  cleared : Guarded isAbort isPop isClearAbort es
  begun : Guarded isAbort isPassed isIteration es

theorem InOrder.of_snoc {es : List ControllerEvent} (h : InOrder registered (es ++ [e])) :
    InOrder registered es where
  registered code hcode := h.registered code (List.mem_append_left _ hcode)
  started := h.started.of_snoc.1
  cleared := h.cleared.of_snoc.1
  begun := h.begun.of_snoc.1

/-! ## One experiment at a time -/

/-- The task has popped a request and not yet set `InProgress`. -/
def takes : BackgroundPc → Bool
  | .find | .clearAbortRequest | .setInProgress => true
  | _ => false

/-- Behind the check of `InProgress`, on the way to `Overwrite`. -/
def starts : MissionPc → Bool
  | .isRequested | .startLock | .startOverwrite => true
  | _ => false

/-- The mission loop is on its way to `Overwrite` only while the queue is empty and the
task waits at it. -/
structure OneAtATime (es : List ControllerEvent) (s : ExperimentController) : Prop where
  inProgress : s.inProgress = false → s.background = .pop ∨ takes s.background = true
  queued : s.queue ≠ none → since isOverwrite isSetInProgress es = true
  taking : takes s.background = true → s.queue = none ∧ since isOverwrite isSetInProgress es = true
  starting : starts s.mission = true →
    s.inProgress = false ∧ since isOverwrite isSetInProgress es = false

theorem oneAtATime_init : OneAtATime [] init :=
  ⟨fun _ => Or.inl rfl, fun h => absurd rfl h, by simp [init, takes], by simp [init, starts]⟩

/-- At `Overwrite` nothing is queued and nothing runs. -/
theorem OneAtATime.idle {es : List ControllerEvent} (h : OneAtATime es s)
    (hm : starts s.mission = true) : s.queue = none ∧ s.background = .pop := by
  obtain ⟨hclear, hsince⟩ := h.starting hm
  constructor
  · by_contra hq
    rw [h.queued hq] at hsince
    exact Bool.noConfusion hsince
  · rcases h.inProgress hclear with hpop | htaking
    · exact hpop
    · rw [(h.taking htaking).2] at hsince
      exact Bool.noConfusion hsince

theorem OneAtATime.step {es : List ControllerEvent} (h : OneAtATime es s)
    (horder : Guarded isShouldStart isOverwrite isSetInProgress (es ++ [e]))
    (hs : step registered s e = some t) : OneAtATime (es ++ [e]) t := by
  -- steps that touch neither the queue nor `InProgress`, and start nothing
  have quiet {u : ExperimentController} (hq : u.queue = s.queue) (hp : u.inProgress = s.inProgress)
      (hm : starts u.mission = true → starts s.mission = true)
      (ht : takes u.background = true → takes s.background = true)
      (hb : s.background = .pop ∨ takes s.background = true →
        u.background = .pop ∨ takes u.background = true)
      (h1 : isOverwrite e = false) (h2 : isSetInProgress e = false) : OneAtATime (es ++ [e]) u := by
    constructor <;> simp only [since_snoc, h1, h2, hq, hp, Bool.false_eq_true, if_false]
    · exact fun hclear => hb (h.inProgress hclear)
    · exact h.queued
    · exact fun htaking => h.taking (ht htaking)
    · exact fun hstart => h.starting (hm hstart)
  cases e with
  | request code =>
    simp only [ExperimentController.step] at hs
    split_ifs at hs <;> cases hs <;>
      exact quiet rfl rfl id id id (by simp [isOverwrite]) (by simp [isSetInProgress])
  | store r =>
    simp only [ExperimentController.step] at hs
    split_ifs at hs
    cases hs
    exact quiet rfl rfl id id id (by simp [isOverwrite]) (by simp [isSetInProgress])
  | abort =>
    cases hs
    exact quiet rfl rfl id id id (by simp [isOverwrite]) (by simp [isSetInProgress])
  | startReturns result =>
    simp only [ExperimentController.step] at hs
    split_ifs at hs with hb
    cases hs
    exact quiet rfl rfl id (by simp [takes])
      (by simp [hb, takes]) (by simp [isOverwrite]) (by simp [isSetInProgress])
  | checkAbort aborted =>
    simp only [ExperimentController.step] at hs
    split_ifs at hs with hb <;> cases hs <;>
      exact quiet rfl rfl id (by simp [takes])
        (by simp [hb, takes]) (by simp [isOverwrite]) (by simp [isSetInProgress])
  | iterationReturns result =>
    simp only [ExperimentController.step] at hs
    split_ifs at hs with hb
    cases hs
    exact quiet rfl rfl id (by simp [takes])
      (by simp [hb, takes]) (by simp [isOverwrite]) (by simp [isSetInProgress])
  | mission pc =>
    simp only [ExperimentController.step] at hs
    split_ifs at hs with hpc
    cases pc with
    | shouldStart =>
      -- the check: not behind an `Overwrite` that the task has not noticed yet
      have hsince := horder.of_snoc.2 (by simp [isShouldStart])
      cases hs
      refine ⟨h.inProgress, fun hq => ?_, fun ht => ?_, fun hstart => ?_⟩
      · simpa [isOverwrite, isSetInProgress] using h.queued hq
      · simpa [isOverwrite, isSetInProgress] using h.taking ht
      · refine ⟨?_, by simpa [isOverwrite, isSetInProgress] using hsince⟩
        show s.inProgress = false
        by_contra hp
        rw [Bool.not_eq_false] at hp
        rw [if_pos hp] at hstart
        exact Bool.noConfusion hstart
    | startOverwrite =>
      obtain ⟨_, hpop⟩ := h.idle (by rw [hpc]; rfl)
      cases hs
      exact ⟨fun _ => Or.inl hpop, by simp [isOverwrite],
        by simp [hpop, takes], by simp [starts]⟩
    | _ =>
      simp only [missionStep] at hs
      (try split_ifs at hs) <;> cases hs <;>
        exact quiet rfl rfl (by simp [hpc, starts]) id id
          (by simp [isOverwrite]) (by simp [isSetInProgress])
  | background pc =>
    simp only [ExperimentController.step] at hs
    split_ifs at hs with hpc
    cases pc with
    | pop =>
      simp only [backgroundStep] at hs
      cases hq : s.queue with
      | none => rw [hq] at hs; exact absurd hs (by simp)
      | some r =>
        rw [hq] at hs
        cases hs
        have hsince := h.queued (by rw [hq]; simp)
        refine ⟨fun _ => Or.inr rfl, fun hne => absurd rfl hne, fun _ => ⟨rfl, ?_⟩, fun hstart => ?_⟩
        · simpa [isOverwrite, isSetInProgress] using hsince
        · rw [(h.starting hstart).2] at hsince
          exact Bool.noConfusion hsince
    | setInProgress =>
      obtain ⟨hq, hsince⟩ := h.taking (by rw [hpc]; rfl)
      cases hs
      refine ⟨by simp, fun hne => absurd hq hne, by simp [takes], fun hstart => ?_⟩
      rw [(h.starting hstart).2] at hsince
      exact Bool.noConfusion hsince
    | clearInProgress =>
      cases hs
      refine ⟨fun _ => Or.inl rfl, fun hq => ?_, by simp [takes], fun hstart => ?_⟩
      · simpa [isOverwrite, isSetInProgress] using h.queued hq
      · exact ⟨rfl, by simpa [isOverwrite, isSetInProgress] using (h.starting hstart).2⟩
    | find =>
      simp only [backgroundStep] at hs
      split at hs
      · split_ifs at hs <;> cases hs <;>
          exact quiet rfl rfl id (by simp [hpc, takes])
            (by simp [takes]) (by simp [isOverwrite]) (by simp [isSetInProgress])
      · exact absurd hs (by simp)
    | _ =>
      simp only [backgroundStep] at hs
      (try split_ifs at hs) <;> cases hs <;>
        exact quiet rfl rfl id (by simp [hpc, takes])
          (by simp [hpc, takes]) (by simp [isOverwrite]) (by simp [isSetInProgress])

/-! ## Nothing is lost -/

/-- Nothing was lost, and nothing unknown is under way. -/
structure Kept (registered : ExperimentCode → Bool) (s : ExperimentController) : Prop where
  overwritten : s.overwritten = []
  unhandled : s.unhandled = []
  passed : ∀ r ∈ s.passed, registered r.code = true
  requested : ∀ r ∈ s.requestedExperiment, registered r.code = true
  queue : ∀ r ∈ s.queue, registered r.code = true
  taken : ∀ r ∈ s.taken, registered r.code = true

theorem kept_init : Kept registered init :=
  ⟨rfl, rfl, by simp [init], by simp [init], by simp [init], by simp [init]⟩

theorem Kept.step {es : List ControllerEvent} (h : Kept registered s) (hone : OneAtATime es s)
    (hcodes : ∀ code, e = .request code → registered code = true)
    (hs : step registered s e = some t) : Kept registered t := by
  rcases requests_cases hs with hsame | ⟨code, rfl, rfl⟩ | ⟨r, _, hr, _, rfl⟩ | ⟨rfl, hm, rfl⟩ |
    ⟨r, _, _, hq, rfl⟩ | ⟨r, _, hk, hreg, rfl⟩ | ⟨_, rfl⟩
  · constructor
    · rw [hsame.overwritten]; exact h.overwritten
    · rw [hsame.unhandled]; exact h.unhandled
    · rw [hsame.passed]; exact h.passed
    · exact fun r hr => h.requested r (hsame.requested r hr)
    · rw [hsame.queue]; exact h.queue
    · rw [hsame.taken]; exact h.taken
  · refine { h with passed := fun r hr => ?_ }
    rcases List.mem_cons.1 hr with rfl | hr
    · exact hcodes code rfl
    · exact h.passed r hr
  · refine { h with passed := fun q hq => h.passed q (List.mem_of_mem_erase hq), requested := ?_ }
    intro q hq
    obtain rfl : r = q := Option.some.inj hq
    exact h.passed r hr
  · -- the queue was empty
    have hq : s.queue = none := (hone.idle (by rw [hm]; rfl)).1
    exact { h with overwritten := by simp [hq, h.overwritten], queue := h.requested }
  · exact { h with queue := by simp, taken := fun q hk => h.queue q (by rw [hq]; exact hk) }
  · rw [h.taken r hk] at hreg
    exact absurd hreg (by simp)
  · exact { h with taken := by simp }

/-! ## Aborts -/

/-- Behind the loop over the iterations. -/
def leaving : BackgroundPc → Bool
  | .stop _ | .clearCurrent | .clearInProgress | .pop => true
  | _ => false

/-- Where an abort is cleared unseen, or seen only after an iteration. -/
def careless : BackgroundPc → Bool
  | .find | .clearAbortRequest | .clearIterationStarted | .iterate => true
  | _ => false

/-- The abort is seen before the next iteration. -/
def Sees (s : ExperimentController) : Prop :=
  careless s.background = false ∧ (s.abortRequest = true ∨ leaving s.background = true)

/-- An abort since the last pop is seen at the next check, and every iteration follows a
check. -/
structure AbortsSeen (es : List ControllerEvent) (s : ExperimentController) : Prop where
  window : s.background = .find ∨ s.background = .clearAbortRequest → since isPop isClearAbort es = true
  turn : s.background = .clearIterationStarted ∨ s.background = .iterate →
    since isPassed isIteration es = true
  seen : since isAbort isPop es = true → Sees s
  guarded : Guarded isIteration isAbort isPop es

theorem abortsSeen_init : AbortsSeen [] init :=
  ⟨by simp [init], by simp [init], by simp, guarded_nil _ _ _⟩

/-- The mission loop touches neither the background task nor the abort request. -/
theorem missionStep_frame {pc : MissionPc} (h : s.missionStep pc = some t) :
    t.background = s.background ∧ t.abortRequest = s.abortRequest := by
  cases pc <;> simp only [missionStep] at h <;> (try split_ifs at h) <;> cases h <;> exact ⟨rfl, rfl⟩

/-- Where a step of the background task that is neither a pop nor the clearing of the abort
request can lead. -/
structure Onward (pc : BackgroundPc) (s t : ExperimentController) : Prop where
  abortRequest : t.abortRequest = s.abortRequest
  window : t.background = .clearAbortRequest → pc = .find
  notFind : t.background ≠ .find
  left : leaving pc = true → leaving t.background = true
  turn : t.background = .clearIterationStarted ∨ t.background = .iterate → pc = .clearIterationStarted
  wait : t.background = .wait → pc = .setNotificationRequested

theorem backgroundStep_onward {pc : BackgroundPc} (hpop : pc ≠ .pop) (hclear : pc ≠ .clearAbortRequest)
    (h : s.backgroundStep registered pc = some t) : Onward pc s t := by
  cases pc with
  | pop => exact absurd rfl hpop
  | clearAbortRequest => exact absurd rfl hclear
  | find =>
    simp only [backgroundStep] at h
    split at h
    · split_ifs at h <;> cases h <;> exact ⟨rfl, by simp, by simp, by simp [leaving], by simp, by simp⟩
    · exact absurd h (by simp)
  | setCurrent | storeStartResult result | storeIterationResult result | wait | clearCurrent =>
    simp only [backgroundStep] at h
    split_ifs at h <;> cases h <;> exact ⟨rfl, by simp, by simp, by simp [leaving], by simp, by simp⟩
  | starting | checkAbort | iterating => exact absurd h (by simp [backgroundStep])
  | _ => cases h; exact ⟨rfl, by simp, by simp, by simp [leaving], by simp, by simp⟩

/-- A task that sees the abort does so until it is back at the queue. -/
theorem Sees.onward (h : Sees s) (ht : Onward s.background s t) : Sees t := by
  obtain ⟨hcare, hbit⟩ := h
  refine ⟨?_, hbit.imp ht.abortRequest.trans ht.left⟩
  by_contra hcareless
  cases hb : t.background with
  | find => exact ht.notFind hb
  | clearAbortRequest => rw [ht.window hb] at hcare; exact Bool.noConfusion hcare
  | clearIterationStarted => rw [ht.turn (Or.inl hb)] at hcare; exact Bool.noConfusion hcare
  | iterate => rw [ht.turn (Or.inr hb)] at hcare; exact Bool.noConfusion hcare
  | _ => exact hcareless (by rw [hb]; rfl)

theorem AbortsSeen.step {es : List ControllerEvent} (h : AbortsSeen es s)
    (horder : InOrder registered (es ++ [e])) (hs : step registered s e = some t) :
    AbortsSeen (es ++ [e]) t := by
  obtain ⟨hw, hturn, hseen, hg⟩ := h
  have quiet {u : ExperimentController} (hbg : u.background = s.background)
      (hab : u.abortRequest = s.abortRequest) (h1 : isAbort e = false) (h2 : isPop e = false)
      (h3 : isPassed e = false) (h4 : isIteration e = false) (h5 : isClearAbort e = false) :
      AbortsSeen (es ++ [e]) u := by
    refine ⟨?_, ?_, ?_, hg.snoc (by simp [h4])⟩ <;>
      simp only [since_snoc, h1, h2, h3, h4, h5, Sees, hbg, hab] <;> assumption
  -- where an abort would go unseen there was none
  have unseen (hnot : ¬ Sees s) : since isAbort isPop es = false := by
    rw [← Bool.not_eq_true]
    exact fun hsince => hnot (hseen hsince)
  cases e with
  | abort =>
    -- neither before the clearing of the bit nor behind the check: the bit is set and stays
    have h1 := horder.cleared.of_snoc.2 rfl
    have h2 := horder.begun.of_snoc.2 rfl
    cases hs
    have hcare : careless s.background = false := by
      cases hb : s.background with
      | find => rw [hw (Or.inl hb)] at h1; exact Bool.noConfusion h1
      | clearAbortRequest => rw [hw (Or.inr hb)] at h1; exact Bool.noConfusion h1
      | clearIterationStarted => rw [hturn (Or.inl hb)] at h2; exact Bool.noConfusion h2
      | iterate => rw [hturn (Or.inr hb)] at h2; exact Bool.noConfusion h2
      | _ => rfl
    refine ⟨?_, ?_, fun _ => ⟨hcare, Or.inl rfl⟩, hg.snoc (by simp [isIteration])⟩
    · simpa [isPop, isClearAbort] using hw
    · simpa [isPassed, isIteration] using hturn
  | checkAbort aborted =>
    simp only [ExperimentController.step] at hs
    split_ifs at hs with hb hab
    · cases hs
      exact ⟨by simp, by simp, fun _ => ⟨rfl, Or.inr rfl⟩, hg.snoc (by simp [isIteration])⟩
    · cases hs
      obtain ⟨hbg, hbit⟩ := hb
      -- the bit is clear
      have hno := unseen fun h => by simp [Sees, hbg, hbit, hab, leaving] at h
      refine ⟨by simp, by simp [isPassed, hab], ?_, hg.snoc (by simp [isIteration])⟩
      simp [isAbort, isPop, hno]
  | background pc =>
    simp only [ExperimentController.step] at hs
    split_ifs at hs with hpc
    cases pc with
    | pop =>
      simp only [backgroundStep] at hs
      split at hs <;> cases hs
      refine ⟨?_, by simp, ?_, hg.snoc (by simp [isIteration])⟩ <;> simp [isAbort, isPop]
    | clearAbortRequest =>
      have hno := unseen fun h => by simp [Sees, hpc, careless] at h
      cases hs
      refine ⟨by simp, by simp, ?_, hg.snoc (by simp [isIteration])⟩
      simp [isAbort, isPop, hno]
    | iterate =>
      have hno := unseen fun h => by simp [Sees, hpc, careless] at h
      cases hs
      refine ⟨by simp, by simp, ?_, hg.snoc fun _ => hno⟩
      simp [isAbort, isPop, hno]
    | _ =>
      -- the bit and the trace are as before, only the position moves on
      have honward := backgroundStep_onward (by simp) (by simp) hs
      refine ⟨fun hb => ?_, fun hb => ?_, fun hsince => ?_, hg.snoc (by simp [isIteration])⟩
      · have hfind := honward.window (hb.resolve_left honward.notFind)
        simpa [isPop, isClearAbort] using hw (Or.inl (hpc.trans hfind))
      · have hcleared := hturn (Or.inl (hpc.trans (honward.turn hb)))
        simpa [isPassed, isIteration] using hcleared
      · exact (hseen (by simpa [isAbort, isPop] using hsince)).onward (by rw [hpc]; exact honward)
  | mission pc =>
    simp only [ExperimentController.step] at hs
    split_ifs at hs
    obtain ⟨hbg, hab⟩ := missionStep_frame hs
    exact quiet hbg hab (by simp [isAbort]) (by simp [isPop]) (by simp [isPassed]) (by simp [isIteration])
      (by simp [isClearAbort])
  | request code =>
    simp only [ExperimentController.step] at hs
    split_ifs at hs <;> cases hs <;>
      exact quiet rfl rfl (by simp [isAbort]) (by simp [isPop]) (by simp [isPassed]) (by simp [isIteration])
        (by simp [isClearAbort])
  | store r =>
    simp only [ExperimentController.step] at hs
    split_ifs at hs
    cases hs
    exact quiet rfl rfl (by simp [isAbort]) (by simp [isPop]) (by simp [isPassed]) (by simp [isIteration])
      (by simp [isClearAbort])
  | startReturns result =>
    simp only [ExperimentController.step] at hs
    split_ifs at hs with hb
    cases hs
    refine ⟨by simp, by simp, fun hsince => ?_, hg.snoc (by simp [isIteration])⟩
    have hsees := hseen (by simpa [isAbort, isPop] using hsince)
    simpa [Sees, hb, careless, leaving] using hsees
  | iterationReturns result =>
    simp only [ExperimentController.step] at hs
    split_ifs at hs with hb
    cases hs
    refine ⟨by simp, by simp, fun hsince => ?_, hg.snoc (by simp [isIteration])⟩
    have hsees := hseen (by simpa [isAbort, isPop] using hsince)
    simpa [Sees, hb, careless, leaving] using hsees

/-- **An abort stops the experiment**: no iteration begins any more. -/
theorem AbortsSeen.stops {es : List ControllerEvent} (h : AbortsSeen es s) {pre post : List ControllerEvent}
    (heq : es = pre ++ .abort :: post) (hpost : ControllerEvent.background .pop ∉ post) :
    ControllerEvent.background .iterate ∉ post := by
  intro hmem
  have hnone := h.guarded.none_after heq (by simp [isAbort]) fun x hx => ?_
  · simpa [isIteration] using hnone _ hmem
  · rw [isPop, decide_eq_false_iff_not]
    rintro rfl
    exact hpost hx

/-- What holds along a run in order. -/
structure InHand (registered : ExperimentCode → Bool) (es : List ControllerEvent)
    (s : ExperimentController) : Prop where
  one : OneAtATime es s
  kept : Kept registered s
  aborts : AbortsSeen es s

theorem InHand.step {es : List ControllerEvent} (h : InHand registered es s)
    (horder : InOrder registered (es ++ [e])) (hs : step registered s e = some t) :
    InHand registered (es ++ [e]) t where
  one := h.one.step horder.started hs
  kept := h.kept.step h.one (fun code he => horder.registered code (by simp [he])) hs
  aborts := h.aborts.step horder hs

theorem inHand_of_run {es : List ControllerEvent} (h : Run (step registered) always init es s)
    (horder : InOrder registered es) : InHand registered es s :=
  h.inv_of_prefix (fun _ _ hC => hC.of_snoc) ⟨oneAtATime_init, kept_init, abortsSeen_init⟩
    (fun _ _ _ _ hC hI _ hstep => hI.step hC hstep) horder

/-- **Requests are neither lost nor run twice**, none is started while another is queued or
runs, and aborts are obeyed, in every run whose steps are in order. -/
theorem requests_accounted {es : List ControllerEvent} (h : Run (step registered) always init es s)
    (horder : InOrder registered es) :
    (∀ id ∈ s.accepted, situations s id = 1) ∧
    (s.mission = .startOverwrite → s.queue = none ∧ s.taken = none) ∧ s.overwritten = [] ∧
    ∀ pre post, es = pre ++ .abort :: post → ControllerEvent.background .pop ∉ post →
      ControllerEvent.background .iterate ∉ post := by
  have hacc : Accounted s := h.inv accounted_init fun _ _ _ hs _ hstep => hs.step hstep
  have hhand : InHand registered es s := inHand_of_run h horder
  refine ⟨fun id hid => ?_, fun hm => ?_, hhand.kept.overwritten,
    fun pre post heq hpost => hhand.aborts.stops heq hpost⟩
  · have hone : s.accepted.count id = 1 :=
      List.count_eq_one_of_mem (List.nodup_append.1 hacc.nodup).2.1 hid
    have hc := hacc.counted id
    rw [hone, hhand.kept.overwritten, hhand.kept.unhandled, List.count_nil] at hc
    omega
  · obtain ⟨hq, hpop⟩ := hhand.one.idle (by rw [hm]; rfl)
    exact ⟨hq, hacc.idle hpop⟩

/-- The mission loop starting the pending request. -/
def startCycle : List ControllerEvent :=
  [.mission .shouldKick, .mission .shouldStart, .mission .isRequested, .mission .startLock,
    .mission .startOverwrite, .mission .startClear]

/-- The background task up to the call of `Start`. -/
def takeUp : List ControllerEvent :=
  [.background .pop, .background .find, .background .clearAbortRequest, .background .setInProgress,
    .background .setCurrent]

/-- From a successful start to the first call of `Iteration`. -/
def firstIteration : List ControllerEvent :=
  [.startReturns .success, .background (.storeStartResult .success), .checkAbort false,
    .background .clearIterationStarted, .background .iterate]

/-- Two requests, the second of which replaces the first, then started, taken up, and aborted
in its first iteration. A third one is accepted afterwards and started. -/
def abortedRun : List ControllerEvent :=
  ([.request 1, .store ⟨0, 1⟩, .request 2, .store ⟨1, 2⟩] : List ControllerEvent) ++ startCycle ++
    takeUp ++ firstIteration ++
    ([.abort, .iterationReturns .loopImmediately, .background (.storeIterationResult .loopImmediately),
      .checkAbort true, .background (.stop .failure), .background .clearCurrent,
      .background .clearInProgress, .request 1, .store ⟨2, 1⟩] : List ControllerEvent) ++
    startCycle.take 4

theorem abortedRun_inOrder : InOrder (fun _ => true) abortedRun :=
  ⟨fun _ _ => rfl, by decide, by decide, by decide⟩

theorem requests_accounted_three :
    ∃ s, Run (step fun _ => true) always init abortedRun s ∧ InOrder (fun _ => true) abortedRun ∧
      (situations s 0 = 1 ∧ situations s 1 = 1 ∧ situations s 2 = 1) ∧ s.taken = none ∧
      ControllerEvent.background .iterate ∉ abortedRun.drop 21 := by
  have h : Run (step fun _ => true) always init abortedRun _ := run_of_exec abortedRun rfl
  obtain ⟨hone, hstart, _, habort⟩ := requests_accounted h abortedRun_inOrder
  exact ⟨_, h, abortedRun_inOrder, ⟨hone 0 (by decide), hone 1 (by decide), hone 2 (by decide)⟩,
    (hstart rfl).2, habort (abortedRun.take 20) _ rfl (by decide)⟩

/-- A second request accepted before the first one is popped: both are started, and the
first is in no place any more. -/
def lostRun : List ControllerEvent :=
  ([.request 1, .store ⟨0, 1⟩] : List ControllerEvent) ++ startCycle ++
    ([.request 2, .store ⟨1, 2⟩] : List ControllerEvent) ++ startCycle

/-- An abort between the pop and the clearing of the bit: the iterations go on. -/
def deafRun : List ControllerEvent :=
  ([.request 1, .store ⟨0, 1⟩] : List ControllerEvent) ++ startCycle ++
    ([.background .pop, .abort] : List ControllerEvent) ++ takeUp.tail ++ firstIteration ++
    ([.iterationReturns .loopImmediately, .background (.storeIterationResult .loopImmediately),
      .checkAbort false, .background .clearIterationStarted, .background .iterate] : List ControllerEvent)

/-- An abort behind the check: one more iteration begins. -/
def lateRun : List ControllerEvent :=
  ([.request 1, .store ⟨0, 1⟩] : List ControllerEvent) ++ startCycle ++ takeUp ++
    firstIteration.take 3 ++ ([.abort] : List ControllerEvent) ++ firstIteration.drop 3

/-- Without the order an accepted request is lost, an abort is, and one is obeyed late. -/
theorem requests_lost :
    (∃ s, Run (step fun _ => true) always init lostRun s ∧
      0 ∈ s.accepted ∧ situations s 0 = 0 ∧ s.overwritten = [0]) ∧
    (∃ s pre post, Run (step fun _ => true) always init deafRun s ∧ deafRun = pre ++ .abort :: post ∧
      ControllerEvent.background .pop ∉ post ∧ post.countP isIteration = 2) ∧
    ∃ s pre post, Run (step fun _ => true) always init lateRun s ∧ lateRun = pre ++ .abort :: post ∧
      ControllerEvent.background .pop ∉ post ∧ ControllerEvent.background .iterate ∈ post := by
  refine ⟨?_, ?_, ?_⟩
  · have h : Run (step fun _ => true) always init lostRun _ := run_of_exec lostRun rfl
    exact ⟨_, h, by decide, by decide, by decide⟩
  · have h : Run (step fun _ => true) always init deafRun _ := run_of_exec deafRun rfl
    exact ⟨_, deafRun.take 9, _, h, rfl, by decide, by decide⟩
  · have h : Run (step fun _ => true) always init lateRun _ := run_of_exec lateRun rfl
    exact ⟨_, lateRun.take 16, _, h, rfl, by decide, by decide⟩

end PWSat2OBC.ExperimentController
