import Mathlib.Tactic
import PWSat2OBC.Spec.I2C

/-!
# A result belongs to its own transfer

The result queue is not emptied when a wait has timed out. An interrupt that completes the transfer
after that leaves its result to the next one.

* `ownResults_run`: in every run in which transfers are completed only while they are waited for,
  each result that is taken from the queue was pushed for the same transfer.
* `stale_of_late`: each later interrupt can make the next transfer return its result.
-/

namespace PWSat2OBC

namespace I2CLowLevelBus

open Runs

variable {s t : I2CLowLevelBus}

/-- Results that were taken from the queue are those of the interrupts of the same transfers. -/
def OwnResults (s : I2CLowLevelBus) : Prop :=
  ∀ r ∈ s.returned, ∀ p ∈ r.popped, p.call = r.call ∧ p ∈ s.interrupts ∧ r.result = .ofReturn p.result

/-- A transfer is completed only while its result is waited for. -/
def KeepsResults (s : I2CLowLevelBus) : Event → Prop
  | .interrupt (some _) => ∀ call ∈ s.hardware, s.pc = .waiting call
  | _ => True

instance (s : I2CLowLevelBus) : ∀ e, Decidable (KeepsResults s e)
  | .interrupt (some _) => inferInstanceAs (Decidable (∀ call ∈ s.hardware, s.pc = .waiting call))
  | .interrupt none => inferInstanceAs (Decidable True)
  | .executeTransfer _ => inferInstanceAs (Decidable True)
  | .isSclOrSdaLatched _ => inferInstanceAs (Decidable True)
  | .transferInit _ => inferInstanceAs (Decidable True)
  | .pop => inferInstanceAs (Decidable True)
  | .timeout => inferInstanceAs (Decidable True)
  | .abort => inferInstanceAs (Decidable True)
  | .status _ => inferInstanceAs (Decidable True)

/-! ## Steps -/

/-- What one step does. -/
inductive Stepped (s : I2CLowLevelBus) : Event → I2CLowLevelBus → Prop
  | refused : Stepped s (.executeTransfer false)
      { s with calls := s.calls + 1, returned := s.returned ++ [⟨s.calls, .failure, none⟩] }
  | locked (hpc : s.pc = .free) :
      Stepped s (.executeTransfer true) { s with calls := s.calls + 1, pc := .checking s.calls }
  | latchedBefore {call : ℕ} (hpc : s.pc = .checking call) :
      Stepped s (.isSclOrSdaLatched true) (s.returns call .lineAlreadyLatched none)
  | lineFree {call : ℕ} (hpc : s.pc = .checking call) :
      Stepped s (.isSclOrSdaLatched false) { s with pc := .starting call }
  | latched {call : ℕ} (answer : Bool) (hpc : s.pc = .checkingAgain call) :
      Stepped s (.isSclOrSdaLatched answer) (s.returns call (if answer then .lineLatched else .timeout) none)
  | started {call : ℕ} (hpc : s.pc = .starting call) :
      Stepped s (.transferInit none) { s with hardware := some call, pc := .waiting call }
  | notStarted {call : ℕ} (result : TransferReturn) (hpc : s.pc = .starting call) :
      Stepped s (.transferInit (some result))
        ((s.transferInit call (some result)).returns call (.ofReturn result) none)
  | popped {call : ℕ} {p : Pushed} (hpc : s.pc = .waiting call) (hqueue : s.resultQueue = some p) :
      Stepped s .pop ({ s with resultQueue := none }.returns call (.ofReturn p.result) (some p))
  | timedOut {call : ℕ} (hpc : s.pc = .waiting call) (hqueue : s.resultQueue = none) :
      Stepped s .timeout { s with pc := .aborting call }
  | aborted {call : ℕ} (hpc : s.pc = .aborting call) : Stepped s .abort { s with pc := .polling call }
  | polled {call : ℕ} (pabort : Bool) (hpc : s.pc = .polling call) :
      Stepped s (.status pabort) { s with pc := if pabort then .polling call else .checkingAgain call }
  | progressed : Stepped s (.interrupt none) s
  | completed {call : ℕ} (result : TransferReturn) (hhardware : s.hardware = some call) :
      Stepped s (.interrupt (some result))
        { s.pushISR ⟨call, result⟩ with hardware := none, interrupts := s.interrupts ++ [⟨call, result⟩] }

theorem step_stepped {e : Event} (hs : step s e = some t) : Stepped s e t := by
  cases e with
  | executeTransfer locked =>
    cases locked with
    | false =>
      obtain rfl := Option.some.inj hs
      exact .refused
    | true =>
      have hlock : (if s.pc = .free then some { s with calls := s.calls + 1, pc := .checking s.calls } else none) =
        some t := hs
      rw [Option.ite_none_right_eq_some] at hlock
      obtain ⟨hpc, heq⟩ := hlock
      obtain rfl := Option.some.inj heq
      exact .locked hpc
  | isSclOrSdaLatched latched =>
    rw [step] at hs
    split at hs
    · rename_i call hpc
      cases latched with
      | true =>
        obtain rfl := Option.some.inj hs
        exact .latchedBefore hpc
      | false =>
        obtain rfl := Option.some.inj hs
        exact .lineFree hpc
    · rename_i call hpc
      obtain rfl := Option.some.inj hs
      exact .latched latched hpc
    · exact absurd hs.symm (Option.some_ne_none t)
  | transferInit status =>
    rw [step] at hs
    split at hs
    · rename_i call hpc
      cases status with
      | none =>
        obtain rfl := Option.some.inj hs
        exact .started hpc
      | some result =>
        obtain rfl := Option.some.inj hs
        exact .notStarted result hpc
    · exact absurd hs.symm (Option.some_ne_none t)
  | pop =>
    rw [step] at hs
    split at hs
    · rename_i call p hpc hqueue
      obtain rfl := Option.some.inj hs
      exact .popped hpc hqueue
    · exact absurd hs.symm (Option.some_ne_none t)
  | timeout =>
    rw [step] at hs
    split at hs
    · rename_i call hpc hqueue
      obtain rfl := Option.some.inj hs
      exact .timedOut hpc hqueue
    · exact absurd hs.symm (Option.some_ne_none t)
  | abort =>
    rw [step] at hs
    split at hs
    · rename_i call hpc
      obtain rfl := Option.some.inj hs
      exact .aborted hpc
    · exact absurd hs.symm (Option.some_ne_none t)
  | status pabort =>
    rw [step] at hs
    split at hs
    · rename_i call hpc
      obtain rfl := Option.some.inj hs
      exact .polled pabort hpc
    · exact absurd hs.symm (Option.some_ne_none t)
  | interrupt status =>
    simp only [step] at hs
    split at hs
    · exact absurd hs.symm (Option.some_ne_none t)
    · obtain rfl := Option.some.inj hs
      exact .progressed
    · rename_i call result hhardware
      obtain rfl := Option.some.inj hs
      exact .completed result hhardware

/-! ## Invariants -/

/-- The call that has the lock. -/
def Pc.call : Pc → Option ℕ
  | .free => none
  | .checking call | .starting call | .waiting call | .aborting call | .polling call | .checkingAgain call => some call

/-- The transfer of the call has not been started. -/
def Pc.isNew : Pc → Bool
  | .checking _ => true
  | .starting _ => true
  | _ => false

/-- What holds in every run. -/
structure Inv (s : I2CLowLevelBus) : Prop where
  current : ∀ call ∈ s.pc.call, call < s.calls
  started : ∀ call ∈ s.hardware, call < s.calls
  /-- The hardware works on the current transfer, or on one before it. -/
  older : ∀ call ∈ s.hardware, ∀ call' ∈ s.pc.call, call ≤ call' ∧ (s.pc.isNew = true → call < call')
  waited : ∀ call ∈ s.hardware, ∀ call', s.pc = .waiting call' → call = call'

/-- What holds under the condition. -/
structure Clean (s : I2CLowLevelBus) : Prop where
  waits : ∀ p ∈ s.resultQueue, s.pc = .waiting p.call ∧ p ∈ s.interrupts
  own : OwnResults s

theorem inv_init : Inv init where
  current _ hcall := absurd hcall.symm (Option.some_ne_none _)
  started _ hcall := absurd hcall.symm (Option.some_ne_none _)
  older _ hcall := absurd hcall.symm (Option.some_ne_none _)
  waited _ hcall := absurd hcall.symm (Option.some_ne_none _)

/-- The lock is free again. -/
theorem Inv.free (h : Inv s) (hpc : t.pc = .free) (hhardware : ∀ call ∈ t.hardware, call ∈ s.hardware)
    (hcalls : t.calls = s.calls) : Inv t := by
  refine ⟨?_, ?_, ?_, ?_⟩
  · rw [hpc]
    exact fun _ hcall => absurd hcall.symm (Option.some_ne_none _)
  · rw [hcalls]
    exact fun call hcall => h.started call (hhardware call hcall)
  · rw [hpc]
    exact fun _ _ _ hcall => absurd hcall.symm (Option.some_ne_none _)
  · rw [hpc]
    exact fun _ _ _ hwaiting => Pc.noConfusion hwaiting

/-- The call goes on. -/
theorem Inv.next (h : Inv s) (hcall : t.pc.call = s.pc.call) (hnew : t.pc.isNew = true → s.pc.isNew = true)
    (hwaits : ∀ call, t.pc ≠ .waiting call) (hhardware : t.hardware = s.hardware) (hcalls : t.calls = s.calls) :
    Inv t := by
  refine ⟨?_, ?_, ?_, fun _ _ call' hwaiting => absurd hwaiting (hwaits call')⟩
  · rw [hcall, hcalls]
    exact h.current
  · rw [hhardware, hcalls]
    exact h.started
  · rw [hhardware, hcall]
    intro call hcall call' hcall'
    exact ⟨(h.older call hcall call' hcall').1, fun htnew => (h.older call hcall call' hcall').2 (hnew htnew)⟩

theorem inv_step {e : Event} (h : Inv s) (hs : step s e = some t) : Inv t := by
  cases step_stepped hs with
  | refused =>
    exact ⟨fun call hcall => Nat.lt_succ_of_lt (h.current call hcall),
      fun call hcall => Nat.lt_succ_of_lt (h.started call hcall), h.older, h.waited⟩
  | locked hpc =>
    refine ⟨fun call hcall => ?_, fun call hcall => Nat.lt_succ_of_lt (h.started call hcall),
      fun call hcall call' hcall' => ?_, fun _ _ _ hwaiting => Pc.noConfusion hwaiting⟩
    · rw [← Option.some.inj hcall]
      exact Nat.lt_succ_self _
    · -- the new call has a number of its own
      have hlt := h.started call hcall
      rw [← Option.some.inj hcall']
      exact ⟨hlt.le, fun _ => hlt⟩
  | latchedBefore hpc => exact h.free rfl (fun _ hcall => hcall) rfl
  | lineFree hpc =>
    -- the transfer is as new as before
    refine h.next ?_ (fun _ => ?_) (fun _ => Pc.noConfusion) rfl rfl
    · rw [hpc]
      rfl
    · rw [hpc]
      rfl
  | latched answer hpc => exact h.free rfl (fun _ hcall => hcall) rfl
  | @started call hpc =>
    -- from here the hardware works on this call
    have hlt : call < s.calls := by
      apply h.current
      rw [hpc]
      rfl
    refine ⟨fun call' hcall => ?_, fun call' hcall => ?_, fun call' hcall call'' hcall' => ?_,
      fun call' hcall call'' hwaiting => ?_⟩
    · rwa [← Option.some.inj hcall]
    · rwa [← Option.some.inj hcall]
    · rw [← Option.some.inj hcall, ← Option.some.inj hcall']
      exact ⟨le_rfl, fun hnew => Bool.noConfusion hnew⟩
    · rw [← Option.some.inj hcall]
      exact Pc.waiting.inj hwaiting
  | @notStarted call result hpc =>
    refine h.free rfl (fun call' hcall => ?_) ?_
    · cases result with
      | usageFault => exact hcall
      | _ => exact absurd hcall.symm (Option.some_ne_none _)
    · cases result <;> rfl
  | popped hpc hqueue => exact h.free rfl (fun _ hcall => hcall) rfl
  | timedOut hpc hqueue =>
    refine h.next ?_ (fun hnew => Bool.noConfusion hnew) (fun _ => Pc.noConfusion) rfl rfl
    rw [hpc]
    rfl
  | aborted hpc =>
    refine h.next ?_ (fun hnew => Bool.noConfusion hnew) (fun _ => Pc.noConfusion) rfl rfl
    rw [hpc]
    rfl
  | polled pabort hpc =>
    cases pabort with
    | true =>
      refine h.next ?_ (fun hnew => Bool.noConfusion hnew) (fun _ => Pc.noConfusion) rfl rfl
      rw [hpc]
      rfl
    | false =>
      refine h.next ?_ (fun hnew => Bool.noConfusion hnew) (fun _ => Pc.noConfusion) rfl rfl
      rw [hpc]
      rfl
  | progressed => exact h
  | completed result hhardware =>
    exact ⟨h.current, fun _ hcall => absurd hcall.symm (Option.some_ne_none _),
      fun _ hcall => absurd hcall.symm (Option.some_ne_none _),
      fun _ hcall => absurd hcall.symm (Option.some_ne_none _)⟩

/-- With nothing in the queue any step of a task keeps it clean. -/
theorem Clean.empty (h : Clean s) (hqueue : t.resultQueue = none) (hinterrupts : t.interrupts = s.interrupts)
    (hreturned : t.returned = s.returned ∨ ∃ r, r.popped = none ∧ t.returned = s.returned ++ [r]) : Clean t := by
  refine ⟨fun p hp => ?_, fun r hr p hp => ?_⟩
  · rw [hqueue] at hp
    exact absurd hp.symm (Option.some_ne_none p)
  · rw [hinterrupts]
    rcases hreturned with heq | ⟨r', hnone, heq⟩
    · rw [heq] at hr
      exact h.own r hr p hp
    · rw [heq] at hr
      rcases List.mem_append.1 hr with hr | hr
      · exact h.own r hr p hp
      · rw [List.mem_singleton.1 hr, hnone] at hp
        exact absurd hp.symm (Option.some_ne_none p)

/-- The queue is empty unless a call waits. -/
theorem Clean.queue_eq (h : Clean s) (hpc : ∀ call, s.pc ≠ .waiting call) : s.resultQueue = none := by
  cases hqueue : s.resultQueue with
  | none => rfl
  | some p => exact absurd (h.waits p hqueue).1 (hpc p.call)

theorem clean_step {e : Event} (h : Clean s) (hok : KeepsResults s e) (hs : step s e = some t) : Clean t := by
  have hqueue {pc : Pc} (hpc : s.pc = pc) (hne : ∀ call, pc ≠ .waiting call) : s.resultQueue = none :=
    h.queue_eq (hpc ▸ hne)
  cases step_stepped hs with
  | refused =>
    refine ⟨h.waits, fun r hr p hp => ?_⟩
    rcases List.mem_append.1 hr with hr | hr
    · exact h.own r hr p hp
    · rw [List.mem_singleton.1 hr] at hp
      exact absurd hp.symm (Option.some_ne_none p)
  | locked hpc => exact h.empty (hqueue hpc fun _ => Pc.noConfusion) rfl (Or.inl rfl)
  | latchedBefore hpc => exact h.empty (hqueue hpc fun _ => Pc.noConfusion) rfl (Or.inr ⟨_, rfl, rfl⟩)
  | lineFree hpc => exact h.empty (hqueue hpc fun _ => Pc.noConfusion) rfl (Or.inl rfl)
  | latched answer hpc => exact h.empty (hqueue hpc fun _ => Pc.noConfusion) rfl (Or.inr ⟨_, rfl, rfl⟩)
  | started hpc => exact h.empty (hqueue hpc fun _ => Pc.noConfusion) rfl (Or.inl rfl)
  | @notStarted call result hpc =>
    have hnone := hqueue hpc fun _ => Pc.noConfusion
    cases result <;> exact h.empty hnone rfl (Or.inr ⟨_, rfl, rfl⟩)
  | @popped call p hpc hpopped =>
    obtain ⟨hwaits, hmem⟩ := h.waits p hpopped
    refine ⟨fun p' hp' => absurd hp'.symm (Option.some_ne_none p'), fun r hr p' hp' => ?_⟩
    rcases List.mem_append.1 hr with hr | hr
    · exact h.own r hr p' hp'
    · -- the result is that of the call that waits
      obtain rfl := List.mem_singleton.1 hr
      obtain rfl : p = p' := Option.some.inj hp'
      have hcall : Pc.waiting call = .waiting p.call := hpc.symm.trans hwaits
      exact ⟨(Pc.waiting.inj hcall).symm, hmem, rfl⟩
  | timedOut hpc hnone => exact h.empty hnone rfl (Or.inl rfl)
  | aborted hpc => exact h.empty (hqueue hpc fun _ => Pc.noConfusion) rfl (Or.inl rfl)
  | polled pabort hpc => exact h.empty (hqueue hpc fun _ => Pc.noConfusion) rfl (Or.inl rfl)
  | progressed => exact h
  | @completed call result hhardware =>
    -- the interrupt comes while its own call waits
    have hpc : s.pc = .waiting call := hok call hhardware
    refine ⟨fun p hp => ?_, fun r hr p hp => ?_⟩
    · have hpush : (if s.resultQueue.isSome then s.resultQueue else some ⟨call, result⟩) = some p := hp
      split at hpush
      · obtain ⟨hwaits, hmem⟩ := h.waits p hpush
        exact ⟨hwaits, List.mem_append_left _ hmem⟩
      · obtain rfl := Option.some.inj hpush
        exact ⟨hpc, List.mem_append_right _ (List.mem_singleton_self _)⟩
    · obtain ⟨hcall, hmem, hresult⟩ := h.own r hr p hp
      exact ⟨hcall, List.mem_append_left _ hmem, hresult⟩

theorem clean_init : Clean init where
  waits _ hp := absurd hp.symm (Option.some_ne_none _)
  own _ hr := absurd hr List.not_mem_nil

theorem clean_run {es : List Event} (hrun : Run step KeepsResults init es s) : Clean s :=
  hrun.inv clean_init fun _ _ _ h hok hs => clean_step h hok hs

/-- **A result belongs to its own transfer.** -/
theorem ownResults_run {es : List Event} (hrun : Run step KeepsResults init es s) : OwnResults s :=
  (clean_run hrun).own

/-! ## A late interrupt -/

/-- A call has returned the result of another one. -/
theorem not_ownResults {call other : ℕ} {result : I2CResult} {r : TransferReturn}
    (hmem : ⟨call, result, some ⟨other, r⟩⟩ ∈ s.returned) (hne : other ≠ call) : ¬ OwnResults s :=
  fun h => hne (h _ hmem _ rfl).1

/-- The steps of a task up to the end of the next transfer, when a result is in the queue. -/
def untilPopped : Pc → List Event
  | .free => [.executeTransfer true, .isSclOrSdaLatched false, .transferInit none, .pop]
  | .checking _ => [.isSclOrSdaLatched false, .transferInit none, .pop]
  | .starting _ => [.transferInit none, .pop]
  | .waiting _ => [.pop]
  | .aborting _ => [.abort, .status false, .isSclOrSdaLatched false, .executeTransfer true, .isSclOrSdaLatched false,
      .transferInit none, .pop]
  | .polling _ => [.status false, .isSclOrSdaLatched false, .executeTransfer true, .isSclOrSdaLatched false,
      .transferInit none, .pop]
  | .checkingAgain _ => [.isSclOrSdaLatched false, .executeTransfer true, .isSclOrSdaLatched false,
      .transferInit none, .pop]

/-- Where the condition fails a transfer can return the result of an earlier one. -/
theorem stale_of_late {es : List Event} {e : Event} (hrun : Run step KeepsResults init es s)
    (hnot : ¬ KeepsResults s e) : ∃ s', Run step always s (e :: untilPopped s.pc) s' ∧ ¬ OwnResults s' := by
  have hinv : Inv s := hrun.inv inv_init fun _ _ _ h _ hs => inv_step h hs
  have hclean := clean_run hrun
  cases e with
  | interrupt status =>
    cases status with
    | none => exact absurd trivial hnot
    | some result =>
      simp only [KeepsResults, not_forall] at hnot
      obtain ⟨call, hhardware, hpc⟩ := hnot
      have hlate : ∀ call', s.pc ≠ .waiting call' := by
        intro call' hwaiting
        rw [hinv.waited call hhardware call' hwaiting] at hpc
        exact hpc hwaiting
      have hqueue := hclean.queue_eq hlate
      have hstarted := hinv.started call hhardware
      have holder := hinv.older call hhardware
      obtain ⟨pc, resultQueue, hardware, calls, interrupts, returned⟩ := s
      obtain rfl : hardware = some call := hhardware
      obtain rfl : resultQueue = none := hqueue
      -- the queue takes the result, and the transfer that is started next finds it
      cases pc with
      | waiting call' => exact absurd rfl (hlate call')
      | checking call' =>
        have hlt : call < call' := (holder call' rfl).2 rfl
        exact ⟨_, run_of_exec _ rfl, not_ownResults (List.mem_append_right _ (List.mem_singleton_self _)) hlt.ne⟩
      | starting call' =>
        have hlt : call < call' := (holder call' rfl).2 rfl
        exact ⟨_, run_of_exec _ rfl, not_ownResults (List.mem_append_right _ (List.mem_singleton_self _)) hlt.ne⟩
      | _ =>
        exact ⟨_, run_of_exec _ rfl,
          not_ownResults (List.mem_append_right _ (List.mem_singleton_self _)) (Nat.ne_of_lt hstarted)⟩
  | _ => exact absurd trivial hnot

/-- A transfer that times out, and one that is done. -/
theorem ownResults_run_timeout : ∃ s, Run step KeepsResults init
    [.executeTransfer true, .isSclOrSdaLatched false, .transferInit none, .interrupt none, .timeout, .abort,
      .status false, .isSclOrSdaLatched false, .executeTransfer true, .isSclOrSdaLatched false, .transferInit none,
      .interrupt (some .done), .pop] s ∧ OwnResults s := by
  have hrun : Run step KeepsResults init [.executeTransfer true, .isSclOrSdaLatched false, .transferInit none,
    .interrupt none, .timeout, .abort, .status false, .isSclOrSdaLatched false, .executeTransfer true,
    .isSclOrSdaLatched false, .transferInit none, .interrupt (some .done), .pop] _ :=
    run_of_exec _ (show exec step KeepsResults init _ = some ⟨.free, none, none, 2, [⟨1, .done⟩],
      [⟨0, .timeout, none⟩, ⟨1, .ok, some ⟨1, .done⟩⟩]⟩ by decide +kernel)
  exact ⟨_, hrun, ownResults_run hrun⟩

/-- The first transfer is completed after its abort, and the second one returns its result. -/
theorem not_ownResults_late : ∃ s, Run step always init
    [.executeTransfer true, .isSclOrSdaLatched false, .transferInit none, .timeout, .abort, .interrupt (some .done),
      .status false, .isSclOrSdaLatched false, .executeTransfer true, .isSclOrSdaLatched false, .transferInit none,
      .pop] s ∧ ¬ OwnResults s := by
  apply exists_run_of_exec
  refine ⟨_, rfl, not_ownResults (List.mem_cons_of_mem _ (List.mem_singleton_self _)) Nat.zero_ne_one⟩

end I2CLowLevelBus

end PWSat2OBC
