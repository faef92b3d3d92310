import PWSat2OBC.Proof.ExperimentController
import PWSat2OBC.Proof.Experiments

/-!
# Runs use the parameters of their request

* `Stepped`, `stepped`: what a step of the system can do.
* `Held`: the object of an experiment that is queued or running holds the parameters of
  its request; that of a pending one does, too, unless a handler is replacing them.
* `parameters_kept`: under the conditions `Undisturbed`, every run uses the parameters of
  the request that started it, and no telecommand changes those of a queued or running
  experiment.

The handlers store the parameters before they ask whether the experiment may be requested,
so the conditions say what has to keep away from what: the handlers do not check it.
-/

namespace PWSat2OBC

theorem ExperimentKind.ofCode_code (kind : ExperimentKind) : ofCode kind.code = some kind := by
  cases kind <;> rfl

/-- The kind of a request, if it has parameters. -/
def kindOf (r : Option Request) : Option ExperimentKind := r.bind fun r => ExperimentKind.ofCode r.code

/-- The kind whose object a handler has begun to change. -/
def HandlerPc.settingUp : HandlerPc → Option ExperimentKind
  | .setupRest _ p | .request _ p | .store _ p _ => some p.kind
  | .idle | .setup _ _ => none

/-- The parameters a handler has read. -/
def HandlerPc.params : HandlerPc → Option ExperimentParams
  | .setup _ p | .setupRest _ p | .request _ p | .store _ p _ => some p
  | .idle => none

def RunPc.kind : RunPc → Option ExperimentKind
  | .detumbling _ => some .detumbling
  | .sunS _ => some .sunS
  | .radFET _ => some .radFET
  | .payload _ => some .payloadCommissioning
  | .camera _ => some .cameraCommissioning
  | .copyBootSlots _ => some .copyBootSlots
  | .outside | .other | .started _ | .iterated _ => none

namespace ExperimentSystem

open Runs

variable {registered : ExperimentCode → Bool} {s t : ExperimentSystem} {e : SystemEvent}

/-! ## Steps -/

/-- **What a step can do.** -/
inductive Stepped (registered : ExperimentCode → Bool) (s : ExperimentSystem) :
    SystemEvent → ExperimentSystem → Prop
  | malformed {kind : ExperimentKind} {parameters : List Byte} (hidle : s.handler = .idle) :
    Stepped registered s (.frame kind parameters)
      { s with answers := s.answers ++ [kind.respond (kind.read parameters).1 .malformedRequest] }
  | frame {kind : ExperimentKind} {parameters : List Byte} {p : ExperimentParams}
    (hidle : s.handler = .idle) (hread : (kind.read parameters).2 = some p) :
    Stepped registered s (.frame kind parameters)
      { s with handler := .setup (kind.read parameters).1 p }
  | setup {id : Byte} {p : ExperimentParams} (hpc : s.handler = .setup id p) :
    Stepped registered s .setup { s with objects := s.objects.setup p, handler := .setupRest id p }
  | setupRest {id : Byte} {p : ExperimentParams} (hpc : s.handler = .setupRest id p) :
    Stepped registered s .setupRest { s with objects := s.objects.setupRest p, handler := .request id p }
  | refused {id : Byte} {p : ExperimentParams} (hpc : s.handler = .request id p)
    (hin : s.controller.inProgress = true) :
    Stepped registered s .requestExperiment
      { s with handler := .idle, answers := s.answers ++ [p.kind.respond id .experimentError] }
  | passed {id : Byte} {p : ExperimentParams} (hpc : s.handler = .request id p)
    (hin : s.controller.inProgress = false) :
    Stepped registered s .requestExperiment
      { s with
        controller := { s.controller with
          passed := ⟨s.controller.nextId, p.kind.code⟩ :: s.controller.passed
          nextId := s.controller.nextId + 1 }
        handler := .store id p ⟨s.controller.nextId, p.kind.code⟩
        carried := s.carried ++ [(s.controller.nextId, p)] }
  | stored {id : Byte} {p : ExperimentParams} {r : Request} (hpc : s.handler = .store id p r)
    (hfree : s.controller.lockFree = true) :
    Stepped registered s .storeRequest
      { s with
        controller := { s.controller with
          passed := s.controller.passed.erase r
          requestedExperiment := some r
          replaced := s.controller.replaced ++ ExperimentController.ids s.controller.requestedExperiment
          accepted := s.controller.accepted ++ [r.id] }
        handler := .idle
        answers := s.answers ++ [p.kind.respond id .success] }
  | run {answer : Option ℕ} {r : Request} {t : ExperimentSystem} (htaken : s.controller.taken = some r)
    (hrun : s.runStep r.id answer = some t) : Stepped registered s (.run answer) t
  | controller {event : ControllerEvent} {c : ExperimentController} (hen : s.enabled event = true)
    (hc : s.controller.step registered event = some c) :
    Stepped registered s (.controller event) { s with controller := c, run := s.runAfter event }

theorem stepped (h : s.step registered e = some t) : Stepped registered s e t := by
  cases e with
  | frame kind parameters =>
    simp only [step] at h
    split_ifs at h with hidle
    split at h
    · cases h; exact .malformed hidle
    · rename_i p hread
      cases h; exact .frame hidle hread
  | setup =>
    simp only [step] at h
    split at h
    · rename_i id p hpc
      cases h; exact .setup hpc
    · exact absurd h (by simp)
  | setupRest =>
    simp only [step] at h
    split at h
    · rename_i id p hpc
      cases h; exact .setupRest hpc
    · exact absurd h (by simp)
  | requestExperiment =>
    simp only [step] at h
    split at h
    · rename_i id p hpc
      simp only [ExperimentController.step] at h
      split_ifs at h with hin
      · cases h; exact .refused hpc hin
      · rw [Bool.not_eq_true] at hin
        cases h; exact .passed hpc hin
    · exact absurd h (by simp)
  | storeRequest =>
    simp only [step] at h
    split at h
    · rename_i id p r hpc
      simp only [ExperimentController.step] at h
      split_ifs at h with hr
      · cases h; exact .stored hpc hr.2
      · exact absurd h (by simp)
    · exact absurd h (by simp)
  | run answer =>
    simp only [step] at h
    split at h
    · rename_i r hr
      exact .run hr h
    · exact absurd h (by simp)
  | controller event =>
    simp only [step] at h
    split_ifs at h with hen
    obtain ⟨c, hc, rfl⟩ := Option.map_eq_some_iff.1 h
    exact .controller hen hc

/-- **A step of a run** changes the progress of its experiment only, and stays with it or
returns. -/
structure RunStepped (s t : ExperimentSystem) : Prop where
  parameters : SameParameters s.objects t.objects
  controller : t.controller = s.controller
  handler : t.handler = s.handler
  carried : t.carried = s.carried
  inside : s.run.kind ≠ none
  stays : t.run.kind = none ∨ t.run.kind = s.run.kind
  notOther : t.run ≠ .other

theorem turn_stepped {Object Pc : Type} {request : ℕ} {turn : Turn Object Pc}
    {store : Object → ExperimentObjects} {inject : Pc → RunPc} {pc : Pc} {k : ExperimentKind}
    (hrun : s.run = inject pc) (hinj : ∀ pc, (inject pc).kind = some k)
    (hsame : SameParameters s.objects (store turn.object)) :
    RunStepped s (s.turn request turn store inject) := by
  have hk : s.run.kind = some k := by rw [hrun]; exact hinj pc
  have hother (pc : Pc) : inject pc ≠ .other := by
    intro h
    have hpc := hinj pc
    rw [h] at hpc
    exact absurd hpc (by simp [RunPc.kind])
  refine ⟨hsame, rfl, rfl, rfl, by simp [hk], ?_, ?_⟩ <;> unfold ExperimentSystem.turn
  · rw [hk]
    cases turn.next with
    | goto pc => exact Or.inr (hinj pc)
    | started _ => exact Or.inl rfl
    | iterated _ => exact Or.inl rfl
  · cases turn.next with
    | goto pc => exact hother pc
    | started _ => simp [Next.toRunPc]
    | iterated _ => simp [Next.toRunPc]

theorem runStep_spec {request : ℕ} {answer : Option ℕ} (h : s.runStep request answer = some t) :
    RunStepped s t := by
  unfold runStep at h
  cases hrun : s.run with
  | detumbling pc =>
    rw [hrun] at h
    obtain rfl := Option.some.inj h
    refine turn_stepped hrun (fun _ => rfl) ?_
    constructor <;> first | rfl | (cases pc <;> cases answer <;> rfl)
  | sunS pc =>
    rw [hrun] at h
    obtain rfl := Option.some.inj h
    refine turn_stepped hrun (fun _ => rfl) ?_
    constructor <;> first
      | rfl
      | (cases pc <;> cases answer <;> simp only [SunSExperiment.step]; split_ifs <;> rfl)
  | radFET pc =>
    rw [hrun] at h
    obtain rfl := Option.some.inj h
    refine turn_stepped hrun (fun _ => rfl) ?_
    constructor <;> first | rfl | (cases pc <;> rfl)
  | payload pc =>
    rw [hrun] at h
    obtain rfl := Option.some.inj h
    refine turn_stepped hrun (fun _ => rfl) ?_
    constructor <;> first
      | rfl
      | (cases pc <;> cases answer <;> simp only [CommissioningExperiment.step] <;> split_ifs <;> rfl)
  | camera pc =>
    rw [hrun] at h
    obtain rfl := Option.some.inj h
    refine turn_stepped hrun (fun _ => rfl) ?_
    constructor <;> first
      | rfl
      | (cases pc <;> cases answer <;> simp only [CommissioningExperiment.step] <;> split_ifs <;> rfl)
  | copyBootSlots pc =>
    rw [hrun] at h
    obtain rfl := Option.some.inj h
    refine turn_stepped hrun (fun _ => rfl) ?_
    constructor <;> first
      | rfl
      | (cases pc <;> simp only [CopyBootSlotsExperiment.step] <;> split_ifs <;> rfl)
  | outside => rw [hrun] at h; exact absurd h (by simp)
  | other => rw [hrun] at h; exact absurd h (by simp)
  | started result => rw [hrun] at h; exact absurd h (by simp)
  | iterated result => rw [hrun] at h; exact absurd h (by simp)

/-! ## The conditions -/

/-- What the handlers do not check.
* Parameters of a kind are stored only while no request of that kind is queued or running.
* A request is started only while no handler is storing parameters of its kind.
* A handler is refused only while no request of its kind is pending.
* An accepted telecommand fits the buffers and the slots there are.
* The first session of a sun sensor run is not checked before the time that an earlier run
  has left in `_nextSessionAt`. -/
def Undisturbed (s : ExperimentSystem) (e : SystemEvent) : Prop :=
  (match e, s.handler with
  | .setup, .setup _ p =>
    decide (kindOf s.controller.queue ≠ some p.kind ∧ kindOf s.controller.taken ≠ some p.kind)
  | .controller (.mission .startOverwrite), pc =>
    decide (pc.settingUp = none ∨ pc.settingUp ≠ kindOf s.controller.requestedExperiment)
  | .requestExperiment, .request _ p =>
    if s.controller.inProgress then decide (kindOf s.controller.pending ≠ some p.kind) else p.fits
  | .run (some time), _ =>
    decide (s.run = .sunS .iteration →
      s.objects.sunS.remainingSessions = s.objects.sunS.parameters.samplingSessionsCount →
      s.objects.sunS.nextSessionAt ≤ time)
  | _, _ => true) = true

instance : Decidable (Undisturbed s e) := inferInstanceAs (Decidable (_ = true))

/-! ## Numbers of requests -/

/-- The requests that passed have different numbers and well-formed parameters. -/
structure Known (s : ExperimentSystem) : Prop where
  handler : ∀ p ∈ s.handler.params, p.WellRead
  carried : ∀ x ∈ s.carried, x.2.WellRead ∧ x.2.fits = true
  fresh : ∀ x ∈ s.carried, x.1 < s.controller.nextId
  nodup : (s.carried.map Prod.fst).Nodup

theorem nextId_le {c d : ExperimentController} {event : ControllerEvent}
    (h : c.step registered event = some d) : c.nextId ≤ d.nextId := by
  rcases ExperimentController.requests_cases h with hsame | ⟨_, _, rfl⟩ | ⟨_, _, _, _, rfl⟩ |
    ⟨_, _, rfl⟩ | ⟨_, _, _, _, rfl⟩ | ⟨_, _, _, _, rfl⟩ | ⟨_, rfl⟩
  · exact hsame.nextId.ge
  · exact Nat.le_succ _
  all_goals exact le_rfl

theorem Known.step (h : Known s) (hok : Undisturbed s e) (hs : s.step registered e = some t) : Known t := by
  cases stepped hs with
  | malformed hidle => exact { h with }
  | frame hidle hread =>
    refine { h with handler := fun q hq => ?_ }
    obtain rfl := Option.some.inj hq
    exact (ExperimentKind.read_spec hread).2
  | setup hpc => exact { h with handler := fun q hq => h.handler q (by rw [hpc]; exact hq) }
  | setupRest hpc => exact { h with handler := fun q hq => h.handler q (by rw [hpc]; exact hq) }
  | refused hpc hin => exact { h with handler := fun q hq => absurd hq (by simp [HandlerPc.params]) }
  | stored hpc hfree => exact { h with handler := fun q hq => absurd hq (by simp [HandlerPc.params]) }
  | @passed id p hpc hin =>
    -- the number is fresh, and the parameters are those the handler has read
    have hfits : p.fits = true := by simpa [Undisturbed, hpc, hin] using hok
    have hread : p.WellRead := h.handler p (by rw [hpc]; rfl)
    refine ⟨fun q hq => h.handler q (by rw [hpc]; exact hq), fun x hx => ?_, fun x hx => ?_, ?_⟩
    · rcases List.mem_append.1 hx with hx | hx
      · exact h.carried x hx
      · rw [List.mem_singleton] at hx
        subst hx
        exact ⟨hread, hfits⟩
    · rcases List.mem_append.1 hx with hx | hx
      · exact Nat.lt_succ_of_lt (h.fresh x hx)
      · rw [List.mem_singleton] at hx
        subst hx
        exact Nat.lt_succ_self _
    · rw [List.map_append, List.nodup_append]
      refine ⟨h.nodup, by simp, ?_⟩
      intro a ha b hb
      simp only [List.map_cons, List.map_nil, List.mem_singleton] at hb
      obtain ⟨x, hx, rfl⟩ := List.mem_map.1 ha
      have := h.fresh x hx
      omega
  | run htaken hrun =>
    have hr := runStep_spec hrun
    exact ⟨by rw [hr.handler]; exact h.handler, by rw [hr.carried]; exact h.carried,
      by rw [hr.carried, hr.controller]; exact h.fresh, by rw [hr.carried]; exact h.nodup⟩
  | controller hen hc =>
    exact { h with fresh := fun x hx => (h.fresh x hx).trans_le (nextId_le hc) }

/-- A number stands for one set of parameters. -/
theorem Known.unique (h : Known s) {id : ℕ} {p q : ExperimentParams} (hp : (id, p) ∈ s.carried)
    (hq : (id, q) ∈ s.carried) : p = q := by
  have := List.inj_on_of_nodup_map h.nodup hp hq rfl
  exact (Prod.mk.inj this).2

/-! ## What the objects hold -/

/-- The request `r` carries parameters of its kind `k`, and the objects hold them. -/
def HeldFor (s : ExperimentSystem) (r : Request) (k : ExperimentKind) : Prop :=
  ∃ p, (r.id, p) ∈ s.carried ∧ p.kind = k ∧ s.objects.Holds p

theorem HeldFor.mono {r : Request} {k : ExperimentKind} (h : HeldFor s r k)
    (hc : ∀ x ∈ s.carried, x ∈ t.carried) (ho : ∀ p, p.kind = k → s.objects.Holds p → t.objects.Holds p) :
    HeldFor t r k := by
  obtain ⟨p, hp, hk, hold⟩ := h
  exact ⟨p, hc _ hp, hk, ho p hk hold⟩

/-- Whose parameters are where. -/
structure Held (s : ExperimentSystem) : Prop where
  queue : ∀ r ∈ s.controller.queue, ∀ k, ExperimentKind.ofCode r.code = some k → HeldFor s r k
  taken : ∀ r ∈ s.controller.taken, ∀ k, ExperimentKind.ofCode r.code = some k → HeldFor s r k
  pending : ∀ r ∈ s.controller.pending, ∀ k, ExperimentKind.ofCode r.code = some k →
    s.handler.settingUp ≠ some k → HeldFor s r k
  rest : ∀ id p, s.handler = .setupRest id p → (s.objects.setupRest p).Holds p
  request : ∀ id p, s.handler = .request id p → s.objects.Holds p
  store : ∀ id p r, s.handler = .store id p r →
    s.objects.Holds p ∧ (r.id, p) ∈ s.carried ∧ r.code = p.kind.code
  apart : ∀ k, s.handler.settingUp = some k →
    kindOf s.controller.queue ≠ some k ∧ kindOf s.controller.taken ≠ some k

theorem held_init (objects : ExperimentObjects) : Held (init objects) := by
  constructor <;> simp [init, ExperimentController.init, ExperimentController.pending, HandlerPc.settingUp]

/-- The kind of the request `r`, found through where it is. -/
theorem kindOf_mem {o : Option Request} {r : Request} (hr : r ∈ o) {k : ExperimentKind}
    (hk : ExperimentKind.ofCode r.code = some k) : kindOf o = some k := by
  obtain rfl : o = some r := hr
  exact hk

/-- A step of the controller. The requests move from one place to the next, and the
parameters stay. -/
theorem Held.controller (h : Held s) {event : ControllerEvent} {c : ExperimentController} {run : RunPc}
    (hok : Undisturbed s (.controller event)) (hen : s.enabled event = true)
    (hc : s.controller.step registered event = some c) :
    Held { s with controller := c, run := run } := by
  rcases ExperimentController.requests_cases hc with hsame | ⟨code, rfl, rfl⟩ | ⟨r, rfl, hr, hfree, hc⟩ |
    ⟨rfl, hm, rfl⟩ | ⟨r, _, _, hq, rfl⟩ | ⟨r, _, hk, _, rfl⟩ | ⟨_, rfl⟩
  · refine ⟨?_, ?_, ?_, h.rest, h.request, h.store, ?_⟩
    · intro r hr; rw [hsame.queue] at hr; exact h.queue r hr
    · intro r hr; rw [hsame.taken] at hr; exact h.taken r hr
    · intro r hr; rw [hsame.pending] at hr; exact h.pending r hr
    · intro k hk; rw [hsame.queue, hsame.taken]; exact h.apart k hk
  · exact ⟨h.queue, h.taken, h.pending, h.rest, h.request, h.store, h.apart⟩
  · -- a request without parameters becomes the pending one
    have hp : c.pending = some r := by rw [hc]; exact ExperimentController.pending_of_lockFree hfree
    have hnone : ExperimentKind.ofCode r.code = none := Option.isNone_iff_eq_none.1 hen
    refine ⟨?_, ?_, ?_, h.rest, h.request, h.store, ?_⟩
    · rw [hc]; exact h.queue
    · rw [hc]; exact h.taken
    · intro q hq k hk
      obtain rfl : r = q := Option.some.inj (hp.symm.trans hq)
      exact absurd (hnone.symm.trans hk) (by simp)
    · rw [hc]; exact h.apart
  · -- the pending request goes to the queue, and no handler is at its parameters
    have hpend : s.controller.pending = s.controller.requestedExperiment := by
      simp [ExperimentController.pending, hm]
    have hset : s.handler.settingUp = none ∨
        s.handler.settingUp ≠ kindOf s.controller.requestedExperiment := of_decide_eq_true hok
    refine ⟨?_, h.taken, ?_, h.rest, h.request, h.store, ?_⟩
    · intro r hr k hk
      have hr : r ∈ s.controller.requestedExperiment := hr
      refine h.pending r (by rw [hpend]; exact hr) k hk ?_
      rw [kindOf_mem hr hk] at hset
      rcases hset with hset | hset
      · rw [hset]; simp
      · exact hset
    · intro r hr; simp [ExperimentController.pending] at hr
    · intro k hk
      refine ⟨fun hq => ?_, (h.apart k hk).2⟩
      have hq : kindOf s.controller.requestedExperiment = some k := hq
      rw [hk, hq] at hset
      simp at hset
  · -- from the queue to the task
    refine ⟨by simp, ?_, h.pending, h.rest, h.request, h.store, ?_⟩
    · intro q hq'; exact h.queue q (by rw [hq]; exact hq')
    · intro k hk
      have hne := (h.apart k hk).1
      rw [hq] at hne
      exact ⟨by simp [kindOf], hne⟩
  · refine ⟨h.queue, by simp, h.pending, h.rest, h.request, h.store, ?_⟩
    exact fun k hk => ⟨(h.apart k hk).1, by simp [kindOf]⟩
  · refine ⟨h.queue, by simp, h.pending, h.rest, h.request, h.store, ?_⟩
    exact fun k hk => ⟨(h.apart k hk).1, by simp [kindOf]⟩

theorem Held.step (h : Held s) (hok : Undisturbed s e) (hs : s.step registered e = some t) : Held t := by
  cases stepped hs with
  | malformed hidle => exact ⟨h.queue, h.taken, h.pending, h.rest, h.request, h.store, h.apart⟩
  | frame hidle hread =>
    refine ⟨h.queue, h.taken, ?_, by simp, by simp, by simp, by simp [HandlerPc.settingUp]⟩
    intro r hr k hk _
    exact h.pending r hr k hk (by simp [hidle, HandlerPc.settingUp])
  | @setup id p hpc =>
    -- no experiment of this kind is queued or running
    obtain ⟨h1, h2⟩ : kindOf s.controller.queue ≠ some p.kind ∧ kindOf s.controller.taken ≠ some p.kind := by
      simpa [Undisturbed, hpc] using hok
    have keep {k : ExperimentKind} (hne : k ≠ p.kind) (q : ExperimentParams) (hq : q.kind = k)
        (hold : s.objects.Holds q) : (s.objects.setup p).Holds q := hold.setup (by rwa [hq])
    refine ⟨?_, ?_, ?_, ?_, by simp, by simp, ?_⟩
    · intro r hr k hk
      refine (h.queue r hr k hk).mono (fun _ hx => hx) (keep ?_)
      rintro rfl
      exact h1 (kindOf_mem hr hk)
    · intro r hr k hk
      refine (h.taken r hr k hk).mono (fun _ hx => hx) (keep ?_)
      rintro rfl
      exact h2 (kindOf_mem hr hk)
    · intro r hr k hk hne
      have hold := h.pending r hr k hk (by simp [hpc, HandlerPc.settingUp])
      refine hold.mono (fun _ hx => hx) (keep ?_)
      rintro rfl
      exact hne rfl
    · intro id' q hq
      obtain ⟨rfl, rfl⟩ : id = id' ∧ p = q := by simpa using hq
      exact ExperimentObjects.holds_setup
    · intro k hk
      obtain rfl : p.kind = k := by simpa [HandlerPc.settingUp] using hk
      exact ⟨h1, h2⟩
  | @setupRest id p hpc =>
    have hset : s.handler.settingUp = some p.kind := by rw [hpc]; rfl
    obtain ⟨h1, h2⟩ := h.apart _ hset
    have keep {k : ExperimentKind} (hne : k ≠ p.kind) (q : ExperimentParams) (hq : q.kind = k)
        (hold : s.objects.Holds q) : (s.objects.setupRest p).Holds q := hold.setupRest (by rwa [hq])
    refine ⟨?_, ?_, ?_, by simp, ?_, by simp, ?_⟩
    · intro r hr k hk
      refine (h.queue r hr k hk).mono (fun _ hx => hx) (keep ?_)
      rintro rfl
      exact h1 (kindOf_mem hr hk)
    · intro r hr k hk
      refine (h.taken r hr k hk).mono (fun _ hx => hx) (keep ?_)
      rintro rfl
      exact h2 (kindOf_mem hr hk)
    · intro r hr k hk hne
      have hne' : k ≠ p.kind := by
        rintro rfl
        exact hne rfl
      have hold := h.pending r hr k hk (by rw [hset]; simpa using hne'.symm)
      exact hold.mono (fun _ hx => hx) (keep hne')
    · intro id' q hq
      obtain ⟨rfl, rfl⟩ : id = id' ∧ p = q := by simpa using hq
      exact h.rest id p hpc
    · intro k hk
      obtain rfl : p.kind = k := by simpa [HandlerPc.settingUp] using hk
      exact ⟨h1, h2⟩
  | @refused id p hpc hin =>
    -- the pending request is of another kind
    have hne : kindOf s.controller.pending ≠ some p.kind := by simpa [Undisturbed, hpc, hin] using hok
    refine ⟨h.queue, h.taken, ?_, by simp, by simp, by simp, by simp [HandlerPc.settingUp]⟩
    intro r hr k hk _
    refine h.pending r hr k hk ?_
    rw [hpc]
    intro hset
    obtain rfl : p.kind = k := by simpa [HandlerPc.settingUp] using hset
    exact hne (kindOf_mem hr hk)
  | @passed id p hpc hin =>
    have hset : s.handler.settingUp = some p.kind := by rw [hpc]; rfl
    have keep {r : Request} {k : ExperimentKind} (hold : HeldFor s r k) (t : ExperimentSystem)
        (hc : t.carried = s.carried ++ [(s.controller.nextId, p)]) (ho : t.objects = s.objects) :
        HeldFor t r k :=
      hold.mono (fun x hx => by rw [hc]; exact List.mem_append_left _ hx) fun q _ hq => by rwa [ho]
    refine ⟨?_, ?_, ?_, by simp, by simp, ?_, ?_⟩
    · intro r hr k hk; exact keep (h.queue r hr k hk) _ rfl rfl
    · intro r hr k hk; exact keep (h.taken r hr k hk) _ rfl rfl
    · intro r hr k hk hne
      have hold := h.pending r hr k hk (by rw [hset]; simpa [HandlerPc.settingUp] using hne)
      exact keep hold _ rfl rfl
    · intro id' q r hq
      obtain ⟨rfl, rfl, rfl⟩ : id = id' ∧ p = q ∧ _ = r := by simpa using hq
      exact ⟨h.request id p hpc, by simp, rfl⟩
    · intro k hk
      exact h.apart k (by rw [hset]; exact hk)
  | @stored id p r hpc hfree =>
    -- the new request is the pending one now
    obtain ⟨hold, hmem, hcode⟩ := h.store id p r hpc
    refine ⟨h.queue, h.taken, ?_, by simp, by simp, by simp, by simp [HandlerPc.settingUp]⟩
    intro q hq k hk _
    have hpend (c : ExperimentController) (hc : c.requestedExperiment = some r)
        (hfree : c.lockFree = true) (hq : q ∈ c.pending) : r = q := by
      rw [Option.mem_def, ExperimentController.pending_of_lockFree hfree, hc] at hq
      exact Option.some.inj hq
    obtain rfl : r = q := by
      refine hpend _ ?_ ?_ hq
      · rfl
      · exact hfree
    rw [hcode, ExperimentKind.ofCode_code, Option.some.injEq] at hk
    exact ⟨p, hmem, hk, hold⟩
  | run htaken hrun =>
    have hr := runStep_spec hrun
    have keep {r : Request} {k : ExperimentKind} (hold : HeldFor s r k) : HeldFor t r k :=
      hold.mono (fun x hx => by rwa [hr.carried])
        fun q _ hq => (ExperimentObjects.holds_congr hr.parameters).2 hq
    refine ⟨?_, ?_, ?_, ?_, ?_, ?_, ?_⟩
    · rw [hr.controller]; exact fun r hq k hk => keep (h.queue r hq k hk)
    · rw [hr.controller]; exact fun r hq k hk => keep (h.taken r hq k hk)
    · rw [hr.controller, hr.handler]; exact fun r hq k hk hne => keep (h.pending r hq k hk hne)
    · rw [hr.handler]
      intro id p hpc
      have hsame := ExperimentObjects.setupRest_congr (p := p) hr.parameters
      exact (ExperimentObjects.holds_congr hsame).2 (h.rest id p hpc)
    · rw [hr.handler]
      exact fun id p hpc => (ExperimentObjects.holds_congr hr.parameters).2 (h.request id p hpc)
    · rw [hr.handler, hr.carried]
      intro id p r hpc
      obtain ⟨h1, h2⟩ := h.store id p r hpc
      exact ⟨(ExperimentObjects.holds_congr hr.parameters).2 h1, h2⟩
    · rw [hr.handler, hr.controller]; exact h.apart
  | controller hen hc => exact h.controller hok hen hc

/-! ## Where the run is -/

/-- The background task is in `Start` or in `Iteration`. -/
def inCall : BackgroundPc → Bool
  | .starting | .iterating => true
  | _ => false

/-- Another iteration of this run may follow. -/
def mayIterate : BackgroundPc → Bool
  | .storeStartResult result => result = .success
  | .storeIterationResult result => result ≠ .finished
  | .checkAbort | .clearIterationStarted | .iterate | .setNotificationRequested | .wait => true
  | _ => false

/-- How a step of the controller begins and ends calls of the experiment. -/
inductive CallStep (c d : ExperimentController) : ControllerEvent → Prop
  | start (hc : c.background = .setCurrent) (hd : d.background = .starting) (htaken : d.taken = c.taken) :
    CallStep c d (.background .setCurrent)
  | iterate (hc : c.background = .iterate) (hd : d.background = .iterating) (htaken : d.taken = c.taken) :
    CallStep c d (.background .iterate)
  | started {result : StartResult} (hd : d.background = .storeStartResult result)
    (htaken : d.taken = c.taken) : CallStep c d (.startReturns result)
  | iterated {result : IterationResult} (hd : d.background = .storeIterationResult result)
    (htaken : d.taken = c.taken) : CallStep c d (.iterationReturns result)
  | beside {event : ControllerEvent} (hrun : ∀ s : ExperimentSystem, s.runAfter event = s.run)
    (hd : d.background = c.background) (htaken : d.taken = c.taken) : CallStep c d event
  | between {event : ControllerEvent} (hrun : ∀ s : ExperimentSystem, s.runAfter event = s.run)
    (hc : inCall c.background = false) (hd : inCall d.background = false)
    (hmay : mayIterate d.background = true → mayIterate c.background = true ∧ d.taken = c.taken) :
    CallStep c d event

theorem callStep {c d : ExperimentController} {event : ControllerEvent}
    (h : c.step registered event = some d) : CallStep c d event := by
  cases event with
  | request code =>
    simp only [ExperimentController.step] at h
    split_ifs at h <;> cases h <;> exact .beside (fun _ => rfl) rfl rfl
  | store r =>
    simp only [ExperimentController.step] at h
    split_ifs at h
    cases h; exact .beside (fun _ => rfl) rfl rfl
  | abort => cases h; exact .beside (fun _ => rfl) rfl rfl
  | mission pc =>
    simp only [ExperimentController.step] at h
    split_ifs at h
    cases pc <;> simp only [ExperimentController.missionStep] at h <;> (try split_ifs at h) <;> cases h <;>
      exact .beside (fun _ => rfl) rfl rfl
  | startReturns result =>
    simp only [ExperimentController.step] at h
    split_ifs at h
    cases h; exact .started rfl rfl
  | checkAbort aborted =>
    simp only [ExperimentController.step] at h
    split_ifs at h with hb <;> cases h <;>
      exact .between (fun _ => rfl) (by rw [hb.1]; rfl) rfl (by simp [mayIterate, hb.1])
  | iterationReturns result =>
    simp only [ExperimentController.step] at h
    split_ifs at h
    cases h; exact .iterated rfl rfl
  | background pc =>
    simp only [ExperimentController.step] at h
    split_ifs at h with hpc
    cases pc with
    | setCurrent =>
      simp only [ExperimentController.backgroundStep] at h
      split_ifs at h
      cases h; exact .start hpc rfl rfl
    | iterate => cases h; exact .iterate hpc rfl rfl
    | storeStartResult result =>
      simp only [ExperimentController.backgroundStep] at h
      split_ifs at h <;> cases h <;>
        exact .between (fun _ => rfl) (by rw [hpc]; rfl) rfl (by simp_all [mayIterate])
    | storeIterationResult result =>
      simp only [ExperimentController.backgroundStep] at h
      split_ifs at h <;> cases h <;>
        exact .between (fun _ => rfl) (by rw [hpc]; rfl) rfl (by simp_all [mayIterate])
    | _ =>
      simp only [ExperimentController.backgroundStep] at h
      (try split at h) <;> (try split_ifs at h) <;> cases h <;>
        exact .between (fun _ => rfl) (by rw [hpc]; rfl) rfl (by simp [mayIterate, hpc])

/-- A run is under way only in a call, and it is of the experiment taken. -/
structure Placed (s : ExperimentSystem) : Prop where
  inside : s.run ≠ .outside → inCall s.controller.background = true
  kind : ∀ k, s.run.kind = some k → s.runningKind = some k
  other : s.run = .other → s.runningKind = none

theorem placed_init (objects : ExperimentObjects) : Placed (init objects) := by
  constructor <;> simp [init, RunPc.kind]

theorem start_kind (k : ExperimentKind) : k.start.kind = some k := by cases k <;> rfl

theorem iteration_kind (k : ExperimentKind) : k.iteration.kind = some k := by cases k <;> rfl

/-- `Start` or `Iteration` of the experiment taken begins. -/
theorem Placed.begin {enter : ExperimentKind → RunPc} (hkind : ∀ k, (enter k).kind = some k)
    (hin : inCall t.controller.background = true) (hrun : t.run = t.runningKind.elim .other enter) :
    Placed t := by
  cases hk : t.runningKind with
  | none =>
    rw [hk] at hrun
    refine ⟨fun _ => hin, ?_, fun _ => hk⟩
    intro k h
    rw [hrun] at h
    exact absurd h (by simp [RunPc.kind])
  | some k =>
    rw [hk] at hrun
    refine ⟨fun _ => hin, ?_, ?_⟩
    · intro k' h
      rw [hrun, Option.elim_some, hkind] at h
      rw [hk, h]
    · intro h
      have h1 := hkind k
      rw [hrun, Option.elim_some] at h
      rw [h] at h1
      exact absurd h1 (by simp [RunPc.kind])

theorem Placed.step (h : Placed s) (hs : s.step registered e = some t) : Placed t := by
  cases stepped hs with
  | run htaken hrun =>
    have hr := runStep_spec hrun
    have hne : s.run ≠ .outside := by
      intro h0
      exact hr.inside (by rw [h0]; rfl)
    have hkind : t.runningKind = s.runningKind := by
      unfold runningKind
      rw [hr.controller]
    refine ⟨fun _ => by rw [hr.controller]; exact h.inside hne, ?_, ?_⟩
    · intro k hk
      rw [hkind]
      rcases hr.stays with h0 | h0
      · rw [h0] at hk; exact absurd hk (by simp)
      · exact h.kind k (by rw [← h0]; exact hk)
    · exact fun ho => absurd ho hr.notOther
  | controller hen hc =>
    rename_i event c
    cases callStep hc with
    | start _ hd htaken =>
      refine Placed.begin start_kind (by simp [hd, inCall]) ?_
      simp only [runAfter, runningKind, htaken]
    | iterate _ hd htaken =>
      refine Placed.begin iteration_kind (by simp [hd, inCall]) ?_
      simp only [runAfter, runningKind, htaken]
    | started hd htaken => exact ⟨by simp [runAfter], by simp [runAfter, RunPc.kind], by simp [runAfter]⟩
    | iterated hd htaken => exact ⟨by simp [runAfter], by simp [runAfter, RunPc.kind], by simp [runAfter]⟩
    | beside hrun hd htaken =>
      refine ⟨?_, ?_, ?_⟩ <;> simp only [hrun, hd, runningKind, htaken]
      · exact h.inside
      · exact h.kind
      · exact h.other
    | between hrun hc hd hmay =>
      -- outside of all calls, so there is no run
      have hout : s.run = .outside := by
        by_contra hne
        have := h.inside hne
        rw [hc] at this
        exact Bool.noConfusion this
      refine ⟨?_, ?_, ?_⟩ <;> simp [hrun, hout, RunPc.kind]
  | _ => exact ⟨h.inside, h.kind, h.other⟩

/-! ## Sessions of the sun sensor -/

/-- The next time check of the sun sensor run, if there is one, finds the fields as they
are now. -/
def betweenSessions : RunPc → Bool
  | .sunS .openPrimary | .sunS .openSecondary | .sunS .iteration => true
  | .started result => result = .success
  | .iterated result => result ≠ .finished
  | _ => false

/-- The run has no session behind it yet, or the time it waits for is its own. -/
def OwnSession (o : SunSExperiment) (request : ℕ) : Prop :=
  o.remainingSessions = o.parameters.samplingSessionsCount ∨ o.nextSessionBy = some request

def Sessions (s : ExperimentSystem) : Prop :=
  ∀ r, s.controller.taken = some r → ExperimentKind.ofCode r.code = some .sunS →
    mayIterate s.controller.background = true ∨ betweenSessions s.run = true →
    OwnSession s.objects.sunS r.id

theorem sessions_init (objects : ExperimentObjects) : Sessions (init objects) := by
  intro r hr
  exact absurd hr (by simp [init, ExperimentController.init])

theorem setup_sunS {o : ExperimentObjects} {p : ExperimentParams} (hk : p.kind ≠ .sunS) :
    (o.setup p).sunS = o.sunS := by
  cases p <;> first
    | rfl
    | exact absurd rfl hk

theorem ownSession_setupRest {o : ExperimentObjects} {p : ExperimentParams} {request : ℕ}
    (h : OwnSession o.sunS request) : OwnSession (o.setupRest p).sunS request := by
  cases p <;> exact h

/-- A step of the run itself. -/
theorem ownSession_step {o : SunSExperiment} {request : ℕ} {pc : SunSExperiment.Pc} {answer : Option ℕ}
    (h : betweenSessions (.sunS pc) = true → OwnSession o request)
    (hn : betweenSessions ((o.step request pc answer).next.toRunPc .sunS) = true) :
    OwnSession (o.step request pc answer).object request := by
  cases pc with
  | start => exact Or.inl rfl
  | openPrimary => exact h rfl
  | openSecondary => exact h rfl
  | iteration =>
    cases answer with
    | none => exact h rfl
    | some time =>
      simp only [SunSExperiment.step] at hn ⊢
      split_ifs at hn ⊢
      · exact h rfl
      · exact absurd hn (by simp [Next.toRunPc, betweenSessions])
  | samples i =>
    simp only [SunSExperiment.step] at hn
    split_ifs at hn <;> exact absurd hn (by simp [Next.toRunPc, betweenSessions])
  | shortDelay i => exact absurd hn (by simp [SunSExperiment.step, Next.toRunPc, betweenSessions])
  | measure i => exact absurd hn (by simp [SunSExperiment.step, Next.toRunPc, betweenSessions])
  | sessionEnd =>
    simp only [SunSExperiment.step] at hn
    split_ifs at hn <;> exact absurd hn (by simp [Next.toRunPc, betweenSessions])
  | nextSession => exact Or.inr rfl

theorem not_mayIterate_of_inCall {pc : BackgroundPc} (h : inCall pc = true) : mayIterate pc = false := by
  cases pc <;> simp_all [inCall, mayIterate]

/-- In a sun sensor run the step is one of its own. -/
theorem run_sunS {r : Request} (hp : Placed s) (htaken : s.controller.taken = some r)
    (hk : ExperimentKind.ofCode r.code = some .sunS) (hne : s.run.kind ≠ none) :
    ∃ pc, s.run = .sunS pc := by
  obtain ⟨k, hkind⟩ := Option.ne_none_iff_exists'.1 hne
  have hrun := hp.kind k hkind
  rw [runningKind, htaken, Option.bind_some, hk, Option.some.injEq] at hrun
  subst hrun
  cases hr : s.run <;> rw [hr] at hkind <;> simp [RunPc.kind] at hkind
  exact ⟨_, rfl⟩

theorem Sessions.step (h : Sessions s) (hp : Placed s) (hok : Undisturbed s e)
    (hs : s.step registered e = some t) : Sessions t := by
  intro r hr hk hm
  cases stepped hs with
  | @setup id p hpc =>
    -- the sun sensor is running, so these are other parameters
    have hne : kindOf s.controller.taken ≠ some p.kind := by
      have h2 : kindOf s.controller.queue ≠ some p.kind ∧ kindOf s.controller.taken ≠ some p.kind := by
        simpa [Undisturbed, hpc] using hok
      exact h2.2
    have hother : p.kind ≠ .sunS := by
      intro hkind
      rw [hkind] at hne
      exact hne (kindOf_mem hr hk)
    unfold OwnSession
    rw [setup_sunS hother]
    exact h r hr hk hm
  | setupRest hpc => exact ownSession_setupRest (h r hr hk hm)
  | run htaken hrun =>
    have hstep := runStep_spec hrun
    rw [hstep.controller] at hr hm
    obtain rfl := Option.some.inj (htaken.symm.trans hr)
    obtain ⟨pc, hpc⟩ := run_sunS hp hr hk hstep.inside
    have hcall := not_mayIterate_of_inCall (hp.inside (by rw [hpc]; simp))
    rw [hcall] at hm
    simp only [Bool.false_eq_true, false_or] at hm
    simp only [runStep, hpc] at hrun
    obtain rfl := Option.some.inj hrun
    exact ownSession_step (fun hb => h _ hr hk (Or.inr (by rw [hpc]; exact hb))) hm
  | controller hen hc =>
    rename_i event c
    cases callStep hc with
    | start hc hd htaken =>
      -- `Start` has not read the number of sessions yet
      have hkind : s.runningKind = some .sunS := kindOf_mem (htaken ▸ hr) hk
      rcases hm with hm | hm
      · exact absurd hm (by simp [hd, mayIterate])
      · exact absurd hm (by simp [runAfter, hkind, ExperimentKind.start, betweenSessions])
    | iterate hbg hd htaken =>
      exact h r (htaken ▸ hr) hk (Or.inl (by rw [hbg]; rfl))
    | @started result hd htaken =>
      have hkind : s.runningKind = some .sunS := kindOf_mem (htaken ▸ hr) hk
      rcases hm with hm | hm
      · have hrun : s.run = .started result := by
          rcases (by simpa [enabled] using hen : s.run = .started result ∨ s.run = .other) with h0 | h0
          · exact h0
          · exact absurd ((hp.other h0).symm.trans hkind) (by simp)
        refine h r (htaken ▸ hr) hk (Or.inr ?_)
        rw [hrun]
        rw [hd] at hm
        exact hm
      · exact absurd hm (by simp [runAfter, betweenSessions])
    | @iterated result hd htaken =>
      have hkind : s.runningKind = some .sunS := kindOf_mem (htaken ▸ hr) hk
      rcases hm with hm | hm
      · have hrun : s.run = .iterated result := by
          rcases (by simpa [enabled] using hen : s.run = .iterated result ∨ s.run = .other) with h0 | h0
          · exact h0
          · exact absurd ((hp.other h0).symm.trans hkind) (by simp)
        refine h r (htaken ▸ hr) hk (Or.inr ?_)
        rw [hrun]
        rw [hd] at hm
        exact hm
      · exact absurd hm (by simp [runAfter, betweenSessions])
    | beside hrun hd htaken =>
      rw [hd, hrun] at hm
      exact h r (htaken ▸ hr) hk hm
    | between hrun hc hd hmay =>
      rw [hrun] at hm
      rcases hm with hm | hm
      · obtain ⟨h1, h2⟩ := hmay hm
        exact h r (h2 ▸ hr) hk (Or.inl h1)
      · have hin := hp.inside (by rintro h0; rw [h0] at hm; exact Bool.noConfusion hm)
        rw [hc] at hin
        exact Bool.noConfusion hin
  | _ => exact h r hr hk hm

/-! ## What the runs use -/

/-- Every use so far is what the telecommand asked for. -/
def UsesOK (s : ExperimentSystem) : Prop :=
  ∀ x ∈ s.uses, ∃ p, (x.1, p) ∈ s.carried ∧ p.specifies x.1 x.2 = true

/-- A turn that uses nothing but parameters `p` specifies. -/
theorem UsesOK.turn {Object Pc : Type} {request : ℕ} {turn : Turn Object Pc}
    {store : Object → ExperimentObjects} {inject : Pc → RunPc} (h : UsesOK s) {p : ExperimentParams}
    (hp : (request, p) ∈ s.carried) (hu : ∀ u, turn.use = some u → p.specifies request u = true) :
    UsesOK (s.turn request turn store inject) := by
  intro x hx
  rcases List.mem_append.1 hx with hx | hx
  · exact h x hx
  · obtain ⟨u, huse, rfl⟩ : ∃ u, turn.use = some u ∧ (request, u) = x := by
      simpa [Option.mem_toList] using hx
    exact ⟨p, hp, hu u huse⟩

theorem UsesOK.step (h : UsesOK s) (hknown : Known s) (hheld : Held s) (hplaced : Placed s)
    (hsess : Sessions s) (hok : Undisturbed s e) (hs : s.step registered e = some t) : UsesOK t := by
  cases stepped hs with
  | @run answer r t htaken hrun =>
    have hstep := runStep_spec hrun
    obtain ⟨k, hk⟩ := Option.ne_none_iff_exists'.1 hstep.inside
    have hkind : ExperimentKind.ofCode r.code = some k := by
      have := hplaced.kind k hk
      rwa [runningKind, htaken] at this
    obtain ⟨p, hmem, hpk, hold⟩ := hheld.taken r htaken k hkind
    obtain ⟨hread, hfits⟩ := hknown.carried _ hmem
    unfold runStep at hrun
    cases hpc : s.run <;> rw [hpc] at hk hrun <;> simp only [RunPc.kind, reduceCtorEq, Option.some.injEq] at hk <;>
      obtain rfl := Option.some.inj hrun <;> refine h.turn hmem fun u hu => ?_ <;> rw [← hk] at hpk
    · exact specifies_detumbling hold hpk hu
    · refine specifies_sunS hold hpk hread hfits hu fun setBy hset => ?_
      subst hset
      obtain ⟨rfl, rfl, time, rfl, hlt⟩ := SunSExperiment.step_sessionAt hu
      -- a session of this run is over, since the time is too early
      have hfirst := of_decide_eq_true hok hpc
      rcases hsess r htaken (by rw [hkind, hk]) (Or.inr (by rw [hpc]; rfl)) with hown | hown
      · have := hfirst hown
        omega
      · exact hown
    · exact specifies_radFET hold hpk hread hu
    · exact specifies_payload hold hpk hread hfits hu
    · exact specifies_camera hold hpk hread hfits hu
    · exact specifies_copyBootSlots hold hpk hread hfits hu
  | passed hpc hin =>
    intro x hx
    obtain ⟨p, hp, hspec⟩ := h x hx
    exact ⟨p, List.mem_append_left _ hp, hspec⟩
  | _ => exact h

/-! ## Runs under the conditions -/

/-- The request is queued or running, or pending while no handler stores parameters of its
kind. -/
def InForce (s : ExperimentSystem) (r : Request) : Prop :=
  r ∈ s.controller.queue ∨ r ∈ s.controller.taken ∨
    (r ∈ s.controller.pending ∧ s.handler.settingUp ≠ ExperimentKind.ofCode r.code)

/-- All invariants together. -/
structure Invariant (s : ExperimentSystem) : Prop where
  known : Known s
  held : Held s
  placed : Placed s
  sessions : Sessions s
  uses : UsesOK s

theorem invariant_of_run {objects : ExperimentObjects} {es : List SystemEvent}
    (h : Run (step registered) Undisturbed (init objects) es s) : Invariant s := by
  refine h.inv ?_ fun s e t hi hok hs => ?_
  · have hknown : Known (init objects) := by
      constructor <;> simp [init, HandlerPc.params]
    have huses : UsesOK (init objects) := by
      intro x hx
      exact absurd hx (by simp [init])
    exact ⟨hknown, held_init _, placed_init _, sessions_init _, huses⟩
  · obtain ⟨h1, h2, h3, h4, h5⟩ := hi
    exact ⟨h1.step hok hs, h2.step hok hs, h3.step hs, h4.step h3 hok hs, h5.step h1 h2 h3 h4 hok hs⟩

theorem carried_mono {ok : ExperimentSystem → SystemEvent → Prop} {es : List SystemEvent}
    (h : Run (step registered) ok s es t) : ∀ x ∈ s.carried, x ∈ t.carried := by
  refine h.inv (I := fun t => ∀ x ∈ s.carried, x ∈ t.carried) (fun _ hx => hx) ?_
  intro s' e t' ih _ hs x hx
  have hx := ih x hx
  cases stepped hs with
  | passed hpc hin => exact List.mem_append_left _ hx
  | run htaken hrun => rwa [(runStep_spec hrun).carried]
  | _ => exact hx

theorem Held.inForce (h : Held s) {r : Request} {k : ExperimentKind}
    (hk : ExperimentKind.ofCode r.code = some k) (hr : InForce s r) : HeldFor s r k := by
  rcases hr with hr | hr | ⟨hr, hset⟩
  · exact h.queue r hr k hk
  · exact h.taken r hr k hk
  · exact h.pending r hr k hk (by rwa [hk] at hset)

/-- **Every run uses the parameters of its request**, and between any two states of the
system those of a request in force are the same. -/
theorem parameters_kept {objects : ExperimentObjects} {es : List SystemEvent}
    (h : Run (step registered) Undisturbed (init objects) es s) :
    (∀ x ∈ s.uses, ∃ p, (x.1, p) ∈ s.carried ∧ p.specifies x.1 x.2 = true) ∧
    (s.carried.map Prod.fst).Nodup ∧
    (∀ r k, ExperimentKind.ofCode r.code = some k → InForce s r →
      ∃ p, (r.id, p) ∈ s.carried ∧ p.kind = k ∧ s.objects.Holds p) ∧
    ∀ es₁ s₁ es₂, Run (step registered) Undisturbed (init objects) es₁ s₁ →
      Run (step registered) Undisturbed s₁ es₂ s → ∀ r, InForce s₁ r → InForce s r →
        ∀ p, ExperimentKind.ofCode r.code = some p.kind → (s₁.objects.Holds p ↔ s.objects.Holds p) := by
  have hi := invariant_of_run h
  refine ⟨hi.uses, hi.known.nodup, fun r k hk hr => hi.held.inForce hk hr, ?_⟩
  intro es₁ s₁ es₂ h₁ h₂ r hr₁ hr p hp
  obtain ⟨q, hq, hqk, hold⟩ := hi.held.inForce hp hr
  obtain ⟨q₁, hq₁, _, hold₁⟩ := (invariant_of_run h₁).held.inForce hp hr₁
  obtain rfl := hi.known.unique hq (carried_mono h₂ _ hq₁)
  exact ExperimentObjects.holds_iff_of_holds hold₁ hold hqk.symm

/-- The objects as constructed, with zeros where the code leaves them uninitialised. -/
def constructed : ExperimentObjects where
  detumbling := ⟨0, 0, 0⟩
  sunS := ⟨⟨0, 0, 0, 0, 0, 0⟩, [47, 115, 117, 110, 115], [47, 115, 117, 110, 115, 46, 115, 101, 99], 0, 0, none⟩
  radFET := ⟨0, 0, [47, 114, 97, 100, 102, 101, 116], 0⟩
  payload := ⟨[47, 112, 97, 121, 108, 111, 97, 100], 0⟩
  camera := ⟨[47, 99, 97, 109, 99, 111, 109], 0⟩
  copyBootSlots := ⟨0, 0⟩

/-- A telecommand from its frame to the check of the controller. -/
def telecommand (kind : ExperimentKind) (parameters : List Byte) : List SystemEvent :=
  [.frame kind parameters, .setup, .setupRest, .requestExperiment]

/-- The accepted request is started and its `Start` begins. -/
def toStart : List SystemEvent :=
  .storeRequest ::
    (ExperimentController.startCycle ++ ExperimentController.takeUp).map SystemEvent.controller

/-- A RadFET run goes through `Start`, and a payload telecommand is refused. -/
def quietRun : List SystemEvent :=
  telecommand .radFET [7, 2, 3, 97] ++ toStart ++ [.run (some 0), .run (some 0)] ++
    telecommand .payloadCommissioning [8, 98] ++ [.run none]

theorem parameters_kept_one :
    ∃ s, Run (step fun _ => true) Undisturbed (init constructed) quietRun s ∧
      s.uses = [(0, .outputFile [97]), (0, .delay 20)] ∧
      ∀ x ∈ s.uses, ∃ p, (x.1, p) ∈ s.carried ∧ p.specifies x.1 x.2 = true := by
  have h : Run (step fun _ => true) Undisturbed (init constructed) quietRun _ := run_of_exec quietRun rfl
  exact ⟨_, h, by decide, (parameters_kept h).1⟩

/-- Slots 0, 1, 2 are to be copied to 3, 4, 5; the other way round is refused, since the
first request is in progress. -/
def swappedRun : List SystemEvent :=
  telecommand .copyBootSlots [1, 0b000111, 0b111000] ++ toStart ++ [.run none] ++
    telecommand .copyBootSlots [2, 0b111000, 0b000111] ++
    [.controller (.startReturns .success), .controller (.background (.storeStartResult .success)),
      .controller (.checkAbort false), .controller (.background .clearIterationStarted),
      .controller (.background .iterate), .run none]

/-- Without the conditions a refused telecommand turns the running experiment round. -/
theorem parameters_replaced :
    ∃ s, Run (step fun _ => true) always (init constructed) swappedRun s ∧
      s.answers.map (·.response) = [.success, .experimentError] ∧
      s.carried = [(0, .copyBootSlots 0b000111 0b111000)] ∧
      s.uses = [(0, .sources [3, 4, 5])] ∧
      (ExperimentParams.copyBootSlots 0b000111 0b111000).specifies 0 (.sources [3, 4, 5]) = false := by
  have h : Run (step fun _ => true) always (init constructed) swappedRun _ := run_of_exec swappedRun rfl
  exact ⟨_, h, by decide, by decide, by decide, by decide⟩

end ExperimentSystem

end PWSat2OBC
