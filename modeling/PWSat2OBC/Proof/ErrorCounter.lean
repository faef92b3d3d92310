import PWSat2OBC.Spec.ErrorCounter

/-!
# Error counters under concurrency

The settled value of a counter is what it will be when every thread has applied its
correction (`settled`). A thread computes its correction from the value it has read, in
which the corrections of the others are missing. So a call takes the settled value on as a
saturating counter would exactly when those make no difference to it
(`settled_call_iff`).

* `counter_saturates`: if no call is disturbed, the finished counter is the saturating one.
  At most one correction is open at any time (`Sound`), so 16 bits are enough. Calls made one
  after another are never disturbed, and then `LimitReached` is called for exactly the
  failures that leave the counter at or above the limit.
* `two_failures_at_the_cap`: two failures at 255 leave 250, if both add before one of them
  subtracts.
-/

namespace PWSat2OBC.ErrorCounting

open Runs

variable {n : ℕ}

theorem internal_of_small {x : ℤ} (h : -32768 ≤ x) (h' : x < 32768) : internal x = x := by
  unfold internal
  exact Int.bmod_eq_of_le (by omega) (by omega)

theorem byte_lt (b : Byte) : b.toNat < 256 := b.isLt

/-! ## The settled value -/

/-- The correction a thread has still to apply. -/
def pending : Pc → ℤ
  | .subtract overflow _ _ => -overflow
  | .add amount => amount
  | _ => 0

/-- The value of the counter once all corrections are applied. -/
def settled (s : ErrorCounting n) : ℤ := s.counter + ∑ t, pending (s.threads t)

/-- The call takes a counter of this value out of the byte. -/
def Saturates (value : ℤ) : CounterCall → Prop
  | .failure increment _ => maxValue < value + increment.toNat
  | .success decrement => value < decrement.toNat

instance (value : ℤ) (c : CounterCall) : Decidable (Saturates value c) := by
  cases c <;> exact Int.decLt _ _

/-- The open corrections make no difference to a call that begins: they cancel out, or the
call does not saturate, with or without them. -/
def Undisturbed (s : ErrorCounting n) : CounterEvent n → Prop
  | .call _ c => s.settled = s.counter ∨ ¬ Saturates s.counter c ∧ ¬ Saturates s.settled c
  | .resume _ => True

instance (s : ErrorCounting n) (e : CounterEvent n) : Decidable (Undisturbed s e) := by
  cases e with
  | call t c =>
    exact inferInstanceAs
      (Decidable (s.settled = s.counter ∨ ¬ Saturates s.counter c ∧ ¬ Saturates s.settled c))
  | resume t => exact inferInstanceAs (Decidable True)

@[simp] theorem pending_idle : pending .idle = 0 := rfl

@[simp] theorem pending_checkLimit (sum : ℤ) (limit : Byte) : pending (checkLimit sum limit) = 0 := by
  unfold checkLimit
  split <;> rfl

/-- What a call adds to the counter at first. -/
def amount : CounterCall → ℤ
  | .failure increment _ => increment.toNat
  | .success decrement => -decrement.toNat

/-- What has to be added to that for a counter of this value to saturate. -/
def correction (value : ℤ) : CounterCall → ℤ
  | .failure increment _ => -max 0 (value + increment.toNat - maxValue)
  | .success decrement => max 0 (decrement.toNat - value)

theorem start_failure (counter : ℤ) (increment limit : Byte) :
    start counter (.failure increment limit) =
      (internal (counter + increment.toNat),
        if 0 < counter + increment.toNat - maxValue then
          .subtract (counter + increment.toNat - maxValue) (counter + increment.toNat) limit
        else checkLimit (counter + increment.toNat) limit) := rfl

theorem start_success (counter : ℤ) (decrement : Byte) :
    start counter (.success decrement) =
      (internal (counter - decrement.toNat),
        if counter < decrement.toNat then .add (decrement.toNat - counter) else .idle) := rfl

theorem start_counter (counter : ℤ) (c : CounterCall) :
    (start counter c).1 = internal (counter + amount c) := by
  cases c with
  | failure increment limit => rfl
  | success decrement => rw [start_success, amount, Int.sub_eq_add_neg]

/-- **A thread corrects by what it has read.** -/
theorem pending_start (counter : ℤ) (c : CounterCall) :
    pending (start counter c).2 = correction counter c := by
  cases c with
  | failure increment limit =>
    rw [start_failure, correction]
    by_cases h : 0 < counter + increment.toNat - maxValue
    · rw [if_pos h, pending, max_eq_right h.le]
    · rw [if_neg h, pending_checkLimit, max_eq_left (not_lt.1 h), neg_zero]
  | success decrement =>
    rw [start_success, correction]
    by_cases h : counter < decrement.toNat
    · rw [if_pos h, pending, max_eq_right (by omega)]
    · rw [if_neg h, max_eq_left (by omega)]
      rfl

/-- Saturation is an addition and a correction. -/
theorem saturate_eq (value : ℕ) (c : CounterCall) :
    (saturate value c : ℤ) = value + amount c + correction value c := by
  cases c with
  | failure increment limit => simp only [saturate, amount, correction, maxValue]; omega
  | success decrement => simp only [saturate, amount, correction]; omega

theorem saturate_le (value : ℕ) (c : CounterCall) (h : value ≤ 255) : saturate value c ≤ 255 := by
  cases c with
  | failure increment limit => exact min_le_left _ _
  | success decrement => exact le_trans (Nat.sub_le _ _) h

/-- Two values are corrected alike exactly when they are equal or neither saturates. -/
theorem correction_eq_iff (value value' : ℤ) (c : CounterCall) :
    correction value c = correction value' c ↔
      value' = value ∨ ¬ Saturates value c ∧ ¬ Saturates value' c := by
  cases c with
  | failure increment limit => simp only [correction, Saturates]; omega
  | success decrement => simp only [correction, Saturates]; omega

/-- The other threads keep their corrections. -/
theorem sum_pending_update (threads : Fin n → Pc) (t : Fin n) (pc : Pc) :
    ∑ u, pending (Function.update threads t pc u) =
      (∑ u, pending (threads u)) - pending (threads t) + pending pc := by
  have h := Finset.sum_update_of_mem (Finset.mem_univ t) (fun u => pending (threads u)) (pending pc)
  have h' := Finset.sum_erase_eq_sub (f := fun u => pending (threads u)) (Finset.mem_univ t)
  rw [Finset.sdiff_singleton_eq_erase] at h
  have hcongr : (fun u => pending (Function.update threads t pc u)) =
      Function.update (fun u => pending (threads u)) t (pending pc) := by
    funext u
    by_cases hu : u = t
    · rw [hu, Function.update_self, Function.update_self]
    · rw [Function.update_of_ne hu, Function.update_of_ne hu]
  rw [hcongr, h, h']
  ring

/-! ## Steps -/

theorem step_call {s s' : ErrorCounting n} {t : Fin n} {c : CounterCall}
    (h : step s (.call t c) = some s') :
    s.threads t = .idle ∧
      s' = { s with
        counter := (start s.counter c).1,
        threads := Function.update s.threads t (start s.counter c).2 } := by
  by_cases hidle : s.threads t = .idle
  · simp only [step, hidle, if_true, Option.some.injEq] at h
    exact ⟨hidle, h.symm⟩
  · simp only [step, hidle, if_false, reduceCtorEq] at h

theorem step_resume {s s' : ErrorCounting n} {t : Fin n} (h : step s (.resume t) = some s') :
    ∃ counter pc reached, ErrorCounting.resume s.counter (s.threads t) = some (counter, pc, reached) ∧
      s' = { s with
        counter := counter, threads := Function.update s.threads t pc,
        limitReached := s.limitReached ++ reached } := by
  obtain ⟨⟨counter, pc, reached⟩, hresume, rfl⟩ := Option.map_eq_some_iff.1 h
  exact ⟨counter, pc, reached, hresume, rfl⟩

/-- Inside a call the open correction is applied and nothing is left open. -/
theorem resume_spec {counter counter' : ℤ} {pc pc' : Pc} {reached : List Byte}
    (h : ErrorCounting.resume counter pc = some (counter', pc', reached))
    (hlow : -32768 ≤ counter + pending pc) (hhigh : counter + pending pc < 32768) :
    counter' = counter + pending pc ∧ pending pc' = 0 := by
  cases pc with
  | idle => exact absurd h (by simp [ErrorCounting.resume])
  | subtract overflow sum limit =>
    simp only [ErrorCounting.resume, Option.some.injEq, Prod.mk.injEq] at h
    obtain ⟨rfl, rfl, -⟩ := h
    exact ⟨internal_of_small hlow hhigh, pending_checkLimit sum limit⟩
  | report =>
    simp only [ErrorCounting.resume, Option.some.injEq, Prod.mk.injEq] at h
    obtain ⟨rfl, rfl, -⟩ := h
    exact ⟨(Int.add_zero _).symm, rfl⟩
  | add amount =>
    simp only [ErrorCounting.resume, Option.some.injEq, Prod.mk.injEq] at h
    obtain ⟨rfl, rfl, -⟩ := h
    exact ⟨internal_of_small hlow hhigh, rfl⟩

/-! ## Runs -/

/-- The counter is a byte away from a settled value that is a byte: at most one thread has a
correction open. -/
structure Sound (s : ErrorCounting n) (value : ℕ) : Prop where
  settled : s.settled = value
  value_le : value ≤ 255
  one_open : ∀ t u, pending (s.threads t) ≠ 0 → pending (s.threads u) ≠ 0 → t = u
  small : ∀ t, -255 ≤ pending (s.threads t) ∧ pending (s.threads t) ≤ 255

namespace Sound

variable {s : ErrorCounting n} {value : ℕ}

/-- If any correction is open, it is the difference to the settled value. -/
theorem sum_eq (h : Sound s value) {t : Fin n} (ht : pending (s.threads t) ≠ 0) :
    ∑ u, pending (s.threads u) = pending (s.threads t) := by
  apply Finset.sum_eq_single t
  · intro u _ hu
    by_contra hopen
    exact hu (h.one_open u t hopen ht)
  · intro ht'
    exact absurd (Finset.mem_univ t) ht'

theorem pending_eq_zero (h : Sound s value) (hsum : s.settled = s.counter) (t : Fin n) :
    pending (s.threads t) = 0 := by
  by_contra ht
  have hs := h.sum_eq ht
  unfold ErrorCounting.settled at hsum
  omega

/-- So 16 bits are enough. -/
theorem counter_bounds (h : Sound s value) : -255 ≤ s.counter ∧ s.counter ≤ 510 := by
  have hsettled := h.settled
  have hle := h.value_le
  unfold ErrorCounting.settled at hsettled
  by_cases hopen : ∃ t, pending (s.threads t) ≠ 0
  · obtain ⟨t, ht⟩ := hopen
    have hs := h.sum_eq ht
    have := h.small t
    omega
  · have hs : ∑ u, pending (s.threads u) = 0 := by
      apply Finset.sum_eq_zero
      intro u _
      by_contra hu
      exact hopen ⟨u, hu⟩
    omega

end Sound

/-- The settled value after a call begins, as long as 16 bits are enough. -/
theorem settled_call {s s' : ErrorCounting n} {t : Fin n} {c : CounterCall}
    (h : step s (.call t c) = some s') (hlow : -32768 ≤ s.counter + amount c)
    (hhigh : s.counter + amount c < 32768) :
    s'.settled = s.settled + amount c + correction s.counter c := by
  obtain ⟨hidle, rfl⟩ := step_call h
  unfold settled
  simp only
  rw [sum_pending_update, hidle, start_counter, pending_start, internal_of_small hlow hhigh,
    pending_idle]
  ring

/-- **Where saturation fails.** A call takes the settled value on as a saturating counter
would exactly when the open corrections make no difference to it. -/
theorem settled_call_iff {s s' : ErrorCounting n} {t : Fin n} {c : CounterCall} {value : ℕ}
    (h : step s (.call t c) = some s') (hlow : -32768 ≤ s.counter + amount c)
    (hhigh : s.counter + amount c < 32768) (hvalue : s.settled = value) :
    s'.settled = saturate value c ↔ Undisturbed s (.call t c) := by
  have hiff := correction_eq_iff s.counter s.settled c
  rw [settled_call h hlow hhigh, hvalue, saturate_eq, Int.add_right_inj, ← hvalue, hiff]
  rfl

theorem amount_bounds (c : CounterCall) : -255 ≤ amount c ∧ amount c ≤ 255 := by
  cases c with
  | failure increment limit => have := byte_lt increment; simp only [amount]; omega
  | success decrement => have := byte_lt decrement; simp only [amount]; omega

theorem correction_bounds {value : ℤ} (h : 0 ≤ value) (h' : value ≤ 255) (c : CounterCall) :
    -255 ≤ correction value c ∧ correction value c ≤ 255 := by
  cases c with
  | failure increment limit =>
    have := byte_lt increment
    simp only [correction, maxValue]
    omega
  | success decrement =>
    have := byte_lt decrement
    simp only [correction]
    omega

/-- A call that leaves a correction open saturates. -/
theorem saturates_of_correction {value : ℤ} {c : CounterCall} (h : correction value c ≠ 0) :
    Saturates value c := by
  cases c with
  | failure increment limit => simp only [correction, Saturates] at h ⊢; omega
  | success decrement => simp only [correction, Saturates] at h ⊢; omega

/-- **An undisturbed call** counts as on a saturating counter. -/
theorem Sound.call {s s' : ErrorCounting n} {value : ℕ} {t : Fin n} {c : CounterCall}
    (hs : Sound s value) (hok : Undisturbed s (.call t c)) (h : step s (.call t c) = some s') :
    Sound s' (saturate value c) := by
  have hbounds := hs.counter_bounds
  have hamount := amount_bounds c
  have hsettled := (settled_call_iff h (by omega) (by omega) hs.settled).2 hok
  obtain ⟨hidle, rfl⟩ := step_call h
  have hle := saturate_le value c hs.value_le
  -- a call that opens a correction finds none open
  have hopens : correction s.counter c ≠ 0 → ∀ u, pending (s.threads u) = 0 := by
    intro hne u
    rcases hok with hsum | ⟨hno, -⟩
    · exact hs.pending_eq_zero hsum u
    · exact absurd (saturates_of_correction hne) hno
  have hother : ∀ u, u ≠ t → pending (Function.update s.threads t (start s.counter c).2 u) =
      pending (s.threads u) := by
    intro u hu
    rw [Function.update_of_ne hu]
  have hself : pending (Function.update s.threads t (start s.counter c).2 t) =
      correction s.counter c := by
    rw [Function.update_self, pending_start]
  refine ⟨hsettled, hle, ?_, ?_⟩
  · intro u u' hu hu'
    by_cases hut : u = t
    · by_cases hut' : u' = t
      · rw [hut, hut']
      · rw [hut, hself] at hu
        rw [hother u' hut'] at hu'
        exact absurd (hopens hu u') hu'
    · rw [hother u hut] at hu
      by_cases hut' : u' = t
      · rw [hut', hself] at hu'
        exact absurd (hopens hu' u) hu
      · rw [hother u' hut'] at hu'
        exact hs.one_open u u' hu hu'
  · intro u
    by_cases hut : u = t
    · rw [hut, hself]
      by_cases hne : correction s.counter c = 0
      · omega
      · have hzero : s.settled = s.counter := by
          unfold ErrorCounting.settled
          rw [Finset.sum_eq_zero fun u _ => hopens hne u, Int.add_zero]
        have := hs.settled
        have := hs.value_le
        exact correction_bounds (by omega) (by omega) c
    · rw [hother u hut]
      exact hs.small u

/-- A thread inside a call leaves the settled value alone. -/
theorem Sound.resume {s s' : ErrorCounting n} {value : ℕ} {t : Fin n} (hs : Sound s value)
    (h : step s (.resume t) = some s') : Sound s' value := by
  have hbounds := hs.counter_bounds
  have hsmall := hs.small t
  obtain ⟨counter, pc, reached, hresume, rfl⟩ := step_resume h
  obtain ⟨hcounter, hpc⟩ := resume_spec hresume (by omega) (by omega)
  have hother : ∀ u, pending (Function.update s.threads t pc u) ≠ 0 →
      pending (s.threads u) ≠ 0 := by
    intro u hu
    by_cases hut : u = t
    · rw [hut, Function.update_self] at hu
      exact absurd hpc hu
    · rwa [Function.update_of_ne hut] at hu
  refine ⟨?_, hs.value_le, ?_, ?_⟩
  · -- the correction leaves the sum of the pending ones and enters the counter
    have hsettled := hs.settled
    unfold ErrorCounting.settled at hsettled ⊢
    simp only
    rw [sum_pending_update, hpc, hcounter]
    omega
  · intro u u' hu hu'
    exact hs.one_open u u' (hother u hu) (hother u' hu')
  · intro u
    by_cases hut : u = t
    · simp only [hut, Function.update_self, hpc]
      omega
    · simp only [Function.update_of_ne hut]
      exact hs.small u

theorem sound_init : Sound (init n) 0 := by
  have hzero : ∀ t : Fin n, pending ((init n).threads t) = 0 := by
    intro t
    rfl
  refine ⟨?_, by omega, ?_, ?_⟩
  · unfold settled
    rw [Finset.sum_eq_zero fun t _ => hzero t]
    rfl
  · intro t _ ht
    exact absurd (hzero t) ht
  · intro t
    rw [hzero t]
    omega

@[simp] theorem calls_snoc (es : List (CounterEvent n)) (e : CounterEvent n) :
    calls (es ++ [e]) = calls es ++ e.begins.toList := by
  unfold calls
  rw [List.filterMap_append]
  cases e <;> rfl

/-- A run without disturbed calls. -/
theorem sound_of_run {es : List (CounterEvent n)} {s : ErrorCounting n}
    (h : Run step Undisturbed (init n) es s) : Sound s ((calls es).foldl saturate 0) := by
  refine Run.inv_trace (I := fun es s => Sound s ((calls es).foldl saturate 0)) sound_init ?_ h
  intro es s e s' hs hok he
  rw [calls_snoc]
  cases e with
  | call t c =>
    rw [CounterEvent.begins, Option.toList_some, List.foldl_append]
    exact hs.call hok he
  | resume t =>
    rw [CounterEvent.begins, Option.toList_none, List.append_nil]
    exact hs.resume he

theorem Sound.counter_of_finished {s : ErrorCounting n} {value : ℕ} (hs : Sound s value)
    (hfinished : s.Finished) : s.counter = value := by
  have hsettled := hs.settled
  unfold ErrorCounting.settled at hsettled
  rw [Finset.sum_eq_zero] at hsettled
  · omega
  · intro t _
    rw [hfinished t]
    rfl

/-! ## Calls one after another -/

/-- No other thread is in a call. -/
def Alone (s : ErrorCounting n) (e : CounterEvent n) : Prop :=
  ∀ u, u ≠ e.thread → s.threads u = .idle

instance (s : ErrorCounting n) (e : CounterEvent n) : Decidable (Alone s e) :=
  inferInstanceAs (Decidable (∀ u, u ≠ e.thread → s.threads u = .idle))

/-- The `LimitReached` call a thread is about to make. -/
def owed (value : ℕ) : Pc → List Byte
  | .subtract _ sum limit => if (limit.toNat : ℤ) ≤ sum then [BitVec.ofNat 8 value] else []
  | .report => [BitVec.ofNat 8 value]
  | _ => []

@[simp] theorem owed_idle (value : ℕ) : owed value .idle = [] := rfl

theorem owed_checkLimit (value : ℕ) (sum : ℤ) (limit : Byte) :
    owed value (checkLimit sum limit) =
      if (limit.toNat : ℤ) ≤ sum then [BitVec.ofNat 8 value] else [] := by
  unfold checkLimit
  by_cases h : (limit.toNat : ℤ) ≤ sum
  · rw [if_pos h, if_pos h, owed]
  · rw [if_neg h, if_neg h]
    rfl

/-- The comparison before saturation comes out as the one after it. -/
theorem owed_start {value : ℕ} (c : CounterCall) :
    owed (saturate value c) (start value c).2 = limitAfter value c := by
  cases c with
  | failure increment limit =>
    have hlimit := byte_lt limit
    have hsum : ((limit.toNat : ℤ) ≤ value + increment.toNat) ↔
        limit.toNat ≤ saturate value (.failure increment limit) := by
      simp only [saturate]
      omega
    rw [start_failure, limitAfter]
    -- a limit is a byte, so a sum above the cap reaches it too
    by_cases hover : 0 < (value : ℤ) + increment.toNat - maxValue
    · rw [if_pos hover, owed]
      simp only [hsum]
    · rw [if_neg hover, owed_checkLimit]
      simp only [hsum]
  | success decrement =>
    rw [start_success, limitAfter]
    by_cases h : (value : ℤ) < decrement.toNat
    · rw [if_pos h]
      rfl
    · rw [if_neg h]
      rfl

theorem limits_snoc (value : ℕ) (cs : List CounterCall) (c : CounterCall) :
    limits value (cs ++ [c]) = limits value cs ++ limitAfter (cs.foldl saturate value) c := by
  induction cs generalizing value with
  | nil => rw [List.nil_append, limits, limits, limits, List.append_nil]; rfl
  | cons c' cs ih => rw [List.cons_append, limits, limits, ih, List.append_assoc]; rfl

/-- Alone, a thread reads the settled value, up to its own correction. -/
theorem Sound.counter_of_alone {s : ErrorCounting n} {value : ℕ} (hs : Sound s value)
    {t : Fin n} (hothers : ∀ u, u ≠ t → s.threads u = .idle) :
    s.counter + pending (s.threads t) = value := by
  have hsettled := hs.settled
  unfold ErrorCounting.settled at hsettled
  rwa [Finset.sum_eq_single t] at hsettled
  · intro u _ hu
    rw [hothers u hu, pending_idle]
  · intro ht
    exact absurd (Finset.mem_univ t) ht

/-- A call that is alone is not disturbed. -/
theorem undisturbed_of_alone {s s' : ErrorCounting n} {e : CounterEvent n} (h : Alone s e)
    (he : step s e = some s') : Undisturbed s e := by
  cases e with
  | call t c =>
    left
    obtain ⟨hidle, -⟩ := step_call he
    unfold settled
    rw [Finset.sum_eq_zero, Int.add_zero]
    intro u _
    by_cases hu : u = t
    · rw [hu, hidle, pending_idle]
    · rw [h u hu, pending_idle]
  | resume t => trivial

/-- What has been reported and is about to be. -/
structure Reported (es : List (CounterEvent n)) (s : ErrorCounting n) : Prop where
  sound : Sound s ((calls es).foldl saturate 0)
  finished : s.Finished → s.limitReached = limits 0 (calls es)
  alone : ∀ t, (∀ u, u ≠ t → s.threads u = .idle) →
    s.limitReached ++ owed ((calls es).foldl saturate 0) (s.threads t) = limits 0 (calls es)

/-- After a step of a thread that is alone, it is enough to look at that thread. -/
theorem Reported.of_thread {es : List (CounterEvent n)} {s : ErrorCounting n} {t : Fin n}
    (hsound : Sound s ((calls es).foldl saturate 0)) (hothers : ∀ u, u ≠ t → s.threads u = .idle)
    (h : s.limitReached ++ owed ((calls es).foldl saturate 0) (s.threads t) = limits 0 (calls es)) :
    Reported es s := by
  refine ⟨hsound, ?_, ?_⟩
  · intro hfinished
    rwa [hfinished t, owed_idle, List.append_nil] at h
  · intro t' ht'
    by_cases htt' : t' = t
    · rwa [htt']
    · rw [ht' t (Ne.symm htt'), owed_idle, List.append_nil] at h
      rwa [hothers t' htt', owed_idle, List.append_nil]

theorem Reported.step {es : List (CounterEvent n)} {s s' : ErrorCounting n} {e : CounterEvent n}
    (hs : Reported es s) (hok : Alone s e) (he : ErrorCounting.step s e = some s') :
    Reported (es ++ [e]) s' := by
  have hreport := hs.alone e.thread hok
  have hcounter := hs.sound.counter_of_alone hok
  have hundisturbed := undisturbed_of_alone hok he
  cases e with
  | call t c =>
    have hsound := hs.sound.call hundisturbed he
    obtain ⟨hidle, rfl⟩ := step_call he
    have hcalls : calls (es ++ [.call t c]) = calls es ++ [c] := calls_snoc es _
    simp only [CounterEvent.thread] at hreport hcounter
    rw [hidle, pending_idle, Int.add_zero] at hcounter
    rw [hidle, owed_idle, List.append_nil] at hreport
    apply Reported.of_thread (t := t)
    · rw [hcalls, List.foldl_append]
      exact hsound
    · intro u hu
      simp only [Function.update_of_ne hu]
      exact hok u hu
    · rw [hcalls, limits_snoc, List.foldl_append]
      simp only [Function.update_self, hcounter, List.foldl_cons, List.foldl_nil]
      rw [owed_start, hreport]
  | resume t =>
    have hsound := hs.sound.resume he
    have hcalls : calls (es ++ [.resume t]) = calls es := by
      rw [calls_snoc, CounterEvent.begins, Option.toList_none, List.append_nil]
    obtain ⟨counter, pc, reached, hresume, rfl⟩ := step_resume he
    simp only [CounterEvent.thread] at hreport hcounter
    apply Reported.of_thread (t := t)
    · rw [hcalls]
      exact hsound
    · intro u hu
      simp only [Function.update_of_ne hu]
      exact hok u hu
    · rw [hcalls]
      simp only [Function.update_self, List.append_assoc]
      rw [← hreport]
      congr 1
      -- what the thread owed is reported now or still owed
      cases hpc : s.threads t with
      | idle => rw [hpc] at hresume; exact absurd hresume (by simp [ErrorCounting.resume])
      | subtract overflow sum limit =>
        rw [hpc] at hresume
        simp only [ErrorCounting.resume, Option.some.injEq, Prod.mk.injEq] at hresume
        obtain ⟨-, rfl, rfl⟩ := hresume
        rw [owed_checkLimit, owed, List.nil_append]
      | report =>
        rw [hpc] at hresume hcounter
        simp only [ErrorCounting.resume, Option.some.injEq, Prod.mk.injEq] at hresume
        obtain ⟨-, rfl, rfl⟩ := hresume
        simp only [pending, Int.add_zero] at hcounter
        rw [hcounter, owed_idle, owed, List.append_nil, BitVec.ofInt_natCast]
      | add amount =>
        rw [hpc] at hresume
        simp only [ErrorCounting.resume, Option.some.injEq, Prod.mk.injEq] at hresume
        obtain ⟨-, rfl, rfl⟩ := hresume
        rfl

theorem reported_of_run {es : List (CounterEvent n)} {s : ErrorCounting n}
    (h : Run ErrorCounting.step Alone (init n) es s) : Reported es s := by
  refine Run.inv_trace (I := Reported) ?_ ?_ h
  · refine ⟨sound_init, fun _ => rfl, ?_⟩
    intro t _
    rfl
  · intro es s e s' hs hok he
    exact hs.step hok he

/-- **Counters saturate as long as no call is disturbed**, and calls made one after another
report the limit after exactly the failures that reach it. -/
theorem counter_saturates (n : ℕ) :
    (∀ es s, Run ErrorCounting.step Undisturbed (init n) es s → s.Finished →
      (0 ≤ s.counter ∧ s.counter ≤ 255) ∧
        ∃ order : List CounterCall, order.Perm (calls es) ∧ s.counter = order.foldl saturate 0) ∧
    ∀ es s, Run ErrorCounting.step Alone (init n) es s → s.Finished →
      s.limitReached = limits 0 (calls es) := by
  refine ⟨?_, ?_⟩
  · intro es s hrun hfinished
    have hsound := sound_of_run hrun
    have hcounter := hsound.counter_of_finished hfinished
    have hle := hsound.value_le
    exact ⟨by omega, calls es, List.Perm.refl _, hcounter⟩
  · intro es s hrun hfinished
    exact (reported_of_run hrun).finished hfinished

theorem counter_saturates_example :
    (∃ s : ErrorCounting 2, 0 ≤ s.counter ∧ s.counter ≤ 255) ∧
      ∃ s : ErrorCounting 2,
        s.limitReached = limits 0 [.failure 200 255, .failure 100 255, .success 5] := by
  let es : List (CounterEvent 2) :=
    [.call 0 (.failure 200 255), .call 0 (.failure 100 255), .resume 0, .resume 0,
      .call 1 (.success 5)]
  obtain ⟨s, hrun, hfinished⟩ :=
    @exists_run_of_exec _ _ ErrorCounting.step Undisturbed _ (init 2) es Finished (by decide +kernel)
  obtain ⟨s', hrun', hfinished'⟩ :=
    @exists_run_of_exec _ _ ErrorCounting.step Alone _ (init 2) es Finished (by decide +kernel)
  exact ⟨⟨s, ((counter_saturates 2).1 es s hrun hfinished).1⟩,
    s', (counter_saturates 2).2 es s' hrun' hfinished'⟩

/-- **Two failures at 255**: both add 5 before one of them takes back what is too much. -/
theorem two_failures_at_the_cap :
    ∃ (es : List (CounterEvent 2)) (s : ErrorCounting 2),
      Run ErrorCounting.step always (init 2) es s ∧ s.Finished ∧ s.counter = 250 ∧
        ¬ ∃ order : List CounterCall,
          order.Perm (calls es) ∧ s.counter = order.foldl saturate 0 := by
  let es : List (CounterEvent 2) :=
    [.call 0 (.failure 255 255), .resume 0, .call 0 (.failure 5 255), .call 1 (.failure 5 255),
      .resume 0, .resume 1, .resume 0, .resume 1]
  obtain ⟨s, hrun, hfinished, hcounter⟩ :=
    @exists_run_of_exec _ _ ErrorCounting.step always _ (init 2) es
      (fun s => s.Finished ∧ s.counter = 250) (by decide +kernel)
  refine ⟨es, s, hrun, hfinished, hcounter, ?_⟩
  rintro ⟨order, horder, hvalue⟩
  have horders : ∀ order ∈ (calls es).permutations', (250 : ℤ) ≠ (order.foldl saturate 0 : ℕ) := by
    decide +kernel
  rw [hcounter] at hvalue
  exact horders order (List.mem_permutations'.2 horder) hvalue

end PWSat2OBC.ErrorCounting
