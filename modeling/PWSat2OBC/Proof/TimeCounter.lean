import PWSat2OBC.Spec.TimeCounter

/-!
# Counters fire at their times

`Waits k t v`: with `v` left at time `t`, a counter of kind `k` reaches zero at the first of
its times behind `t`. A round keeps this for every counter, since none is stepped beyond
zero, and a counter fires in it exactly when it is due (`Waits.round`). Nothing in this
depends on the other counters.
-/

namespace PWSat2OBC

namespace TimeCounter

/-- The times at which a counter is to fire. -/
def Due (k : CounterKind) (t : ℕ) : Prop := ∃ j, t = k.startDelay + j * k.period

/-! ### One counter -/

/-- `v` is the time from `t` to the next time at which the counter is due. -/
structure Waits (k : CounterKind) (t v : ℕ) : Prop where
  pos : 0 < v
  next : ∃ j, t + v = k.startDelay + j * k.period ∧ (j = 0 ∨ v ≤ k.period)

variable {k : CounterKind} {t v m : ℕ}

theorem Waits.start (k : CounterKind) : Waits k 0 k.startDelay :=
  ⟨k.startDelay_pos, 0, by omega, .inl rfl⟩

theorem Waits.due (h : Waits k t v) : Due k (t + v) := by
  obtain ⟨j, hj, -⟩ := h.next
  exact ⟨j, hj⟩

/-- No time is due before the counter reaches zero. -/
theorem Waits.not_due (h : Waits k t v) (hm : 0 < m) (hlt : m < v) : ¬ Due k (t + m) := by
  rintro ⟨i, hi⟩
  obtain ⟨j, hj, hnear⟩ := h.next
  rcases Nat.lt_or_ge i j with hij | hij
  · -- the due time before the next one is not behind `t`
    have hmul : (i + 1) * k.period ≤ j * k.period := Nat.mul_le_mul_right _ hij
    rw [Nat.succ_mul] at hmul
    rcases hnear with rfl | hnear
    · omega
    · omega
  · have hmul : j * k.period ≤ i * k.period := Nat.mul_le_mul_right _ hij
    omega

/-- Counting down, not to zero. -/
theorem Waits.down (h : Waits k t v) (hlt : m < v) : Waits k (t + m) (v - m) := by
  obtain ⟨j, hj, hnear⟩ := h.next
  refine ⟨by omega, j, by omega, ?_⟩
  rcases hnear with rfl | hnear
  · exact .inl rfl
  · exact .inr (by omega)

/-- Counting down to zero and starting over. -/
theorem Waits.reload (h : Waits k t v) : Waits k (t + v) k.period := by
  obtain ⟨j, hj, -⟩ := h.next
  refine ⟨k.period_pos, j + 1, ?_, .inr (Nat.le_refl _)⟩
  rw [Nat.succ_mul]
  omega

/-- **One counter in one round**: it waits for its next time again, and it has fired exactly
if it was due. -/
theorem Waits.round {c : TimeCounter} (h : Waits c.kind t c.value) (hm : 0 < m) (hle : m ≤ c.value) :
    ((c.step m).doOnBottom.1 = true ↔ Due c.kind (t + m)) ∧ (c.step m).doOnBottom.2.kind = c.kind ∧
      Waits c.kind (t + m) (c.step m).doOnBottom.2.value := by
  have hpos := h.pos
  have hstep : c.step m = { c with value := c.value - m } := by
    rw [step, if_neg (by omega), stepDown, if_neg (by omega)]
  rw [hstep]
  unfold doOnBottom
  rcases Nat.eq_or_lt_of_le hle with rfl | hlt
  · have hzero : c.value - c.value = 0 := Nat.sub_self _
    rw [if_pos hzero]
    exact ⟨iff_of_true rfl h.due, rfl, h.reload⟩
  · have hnonzero : ¬ c.value - m = 0 := by omega
    rw [if_neg hnonzero]
    exact ⟨iff_of_false (by simp) (h.not_due hm hlt), rfl, h.down hlt⟩

/-! ### The least of the counters -/

theorem foldl_min_le (cs : List TimeCounter) (m : ℕ) :
    cs.foldl (fun m d => min m d.timeToZero) m ≤ m ∧
      ∀ c ∈ cs, cs.foldl (fun m d => min m d.timeToZero) m ≤ c.value := by
  induction cs generalizing m with
  | nil => simp
  | cons d cs ih =>
    obtain ⟨hle, hall⟩ := ih (min m d.timeToZero)
    rw [List.foldl_cons]
    refine ⟨Nat.le_trans hle (Nat.min_le_left _ _), ?_⟩
    intro c hc
    rcases List.mem_cons.1 hc with rfl | hc
    · exact Nat.le_trans hle (Nat.min_le_right _ _)
    · exact hall c hc

theorem foldl_min_mem (cs : List TimeCounter) (m : ℕ) :
    cs.foldl (fun m d => min m d.timeToZero) m = m ∨
      ∃ c ∈ cs, cs.foldl (fun m d => min m d.timeToZero) m = c.value := by
  induction cs generalizing m with
  | nil => exact .inl rfl
  | cons d cs ih =>
    rw [List.foldl_cons]
    rcases ih (min m d.timeToZero) with h | ⟨c, hc, h⟩
    · rw [h]
      rcases Nat.le_total m d.timeToZero with hle | hle
      · exact .inl (Nat.min_eq_left hle)
      · exact .inr ⟨d, List.mem_cons_self, Nat.min_eq_right hle⟩
    · exact .inr ⟨c, List.mem_cons_of_mem _ hc, h⟩

/-- No counter goes beyond zero. -/
theorem sleepTime_le {cs : List TimeCounter} {c : TimeCounter} (hc : c ∈ cs) :
    sleepTime cs ≤ c.value := by
  cases cs with
  | nil => exact absurd hc List.not_mem_nil
  | cons d cs =>
    obtain ⟨hle, hall⟩ := foldl_min_le cs d.timeToZero
    rcases List.mem_cons.1 hc with rfl | hc
    · exact hle
    · exact hall c hc

/-- Some counter gets there. -/
theorem exists_sleepTime {cs : List TimeCounter} (hne : cs ≠ []) :
    ∃ c ∈ cs, sleepTime cs = c.value := by
  cases cs with
  | nil => exact absurd rfl hne
  | cons d cs =>
    rcases foldl_min_mem cs d.timeToZero with h | ⟨c, hc, h⟩
    · exact ⟨d, List.mem_cons_self, h⟩
    · exact ⟨c, List.mem_cons_of_mem _ hc, h⟩

/-! ### All counters, round by round -/

theorem Rounds.round_elapsed (r : Rounds) : r.round.elapsed = r.elapsed + sleepTime r.counters := rfl

theorem Rounds.round_counters (r : Rounds) : r.round.counters =
    r.counters.map fun c => (c.step (sleepTime r.counters)).doOnBottom.2 := by
  simp only [Rounds.round, stepAll, List.map_map]
  rfl

theorem Rounds.round_fired (r : Rounds) : r.round.fired =
    r.counters.map fun c => (c.step (sleepTime r.counters)).doOnBottom.1 := by
  simp only [Rounds.round, stepAll, List.map_map]
  rfl

/-- Every counter waits for the next of its times. -/
def AllWait (kinds : List CounterKind) (r : Rounds) : Prop :=
  List.Forall₂ (fun k c => c.kind = k ∧ Waits k r.elapsed c.value) kinds r.counters

variable {kinds : List CounterKind} {r : Rounds}

theorem AllWait.ne_nil (h : AllWait kinds r) (hne : kinds ≠ []) : r.counters ≠ [] := by
  intro hnil
  apply hne
  have hlen := h.length_eq
  rw [hnil, List.length_nil] at hlen
  exact List.length_eq_zero_iff.1 hlen

theorem AllWait.waits (h : AllWait kinds r) {c : TimeCounter} (hc : c ∈ r.counters) :
    Waits c.kind r.elapsed c.value := by
  obtain ⟨i, hi, rfl⟩ := List.getElem_of_mem hc
  have hkind : i < kinds.length := h.length_eq ▸ hi
  obtain ⟨hk, hw⟩ := h.get hkind hi
  rw [List.get_eq_getElem, List.get_eq_getElem] at hw hk
  rw [hk]
  exact hw

theorem AllWait.sleepTime_pos (h : AllWait kinds r) (hne : kinds ≠ []) : 0 < sleepTime r.counters := by
  obtain ⟨c, hc, hsleep⟩ := exists_sleepTime (h.ne_nil hne)
  rw [hsleep]
  exact (h.waits hc).pos

/-- **One round**: every counter waits again, those that were due have fired, and there was
one. -/
theorem AllWait.round (h : AllWait kinds r) (hne : kinds ≠ []) :
    AllWait kinds r.round ∧
      List.Forall₂ (fun k b => b = true ↔ Due k r.round.elapsed) kinds r.round.fired ∧
      true ∈ r.round.fired := by
  have hpos := h.sleepTime_pos hne
  have hall : List.Forall₂ (fun k c => (c.kind = k ∧ Waits k r.elapsed c.value) ∧ c ∈ r.counters)
      kinds r.counters := by
    unfold AllWait at h
    rw [List.forall₂_iff_get] at h ⊢
    exact ⟨h.1, fun i h1 h2 => ⟨h.2 i h1 h2, List.get_mem _ _⟩⟩
  refine ⟨?_, ?_, ?_⟩
  · unfold AllWait
    rw [Rounds.round_counters, Rounds.round_elapsed, List.forall₂_map_right_iff]
    refine hall.imp ?_
    rintro k c ⟨⟨rfl, hw⟩, hc⟩
    obtain ⟨-, hkind, hwaits⟩ := hw.round hpos (sleepTime_le hc)
    exact ⟨hkind, hwaits⟩
  · rw [Rounds.round_fired, Rounds.round_elapsed, List.forall₂_map_right_iff]
    refine hall.imp ?_
    rintro k c ⟨⟨rfl, hw⟩, hc⟩
    exact (hw.round hpos (sleepTime_le hc)).1
  · obtain ⟨c, hc, hsleep⟩ := exists_sleepTime (h.ne_nil hne)
    have hw := h.waits hc
    have hfired := (hw.round hpos (sleepTime_le hc)).1.2 (hsleep ▸ hw.due)
    rw [Rounds.round_fired, List.mem_map]
    exact ⟨c, hc, hfired⟩

theorem allWait_afterRounds (hne : kinds ≠ []) (n : ℕ) : AllWait kinds (afterRounds kinds n) := by
  induction n with
  | zero =>
    unfold AllWait afterRounds
    rw [List.forall₂_map_right_iff, List.forall₂_same]
    intro k _
    exact ⟨rfl, Waits.start k⟩
  | succ n ih => exact (ih.round hne).1

/-- Time advances in every round. -/
theorem elapsed_lt (hne : kinds ≠ []) (n : ℕ) :
    (afterRounds kinds n).elapsed < (afterRounds kinds (n + 1)).elapsed :=
  Nat.lt_add_of_pos_right ((allWait_afterRounds hne n).sleepTime_pos hne)

/-- A round does not go past a due time. -/
theorem elapsed_le_due (hne : kinds ≠ []) {n : ℕ} (hk : k ∈ kinds) (hdue : Due k t)
    (hlt : (afterRounds kinds n).elapsed < t) : (afterRounds kinds (n + 1)).elapsed ≤ t := by
  have h := allWait_afterRounds hne n
  obtain ⟨i, hi, rfl⟩ := List.getElem_of_mem hk
  have hic : i < (afterRounds kinds n).counters.length := h.length_eq ▸ hi
  obtain ⟨-, hw⟩ := h.get hi hic
  rw [List.get_eq_getElem, List.get_eq_getElem] at hw
  have hsleep := sleepTime_le (List.getElem_mem hic)
  by_contra hbehind
  have helapsed : (afterRounds kinds (n + 1)).elapsed =
      (afterRounds kinds n).elapsed + sleepTime (afterRounds kinds n).counters := rfl
  obtain ⟨d, rfl⟩ := Nat.exists_eq_add_of_lt hlt
  rw [Nat.add_assoc] at hdue
  rw [helapsed] at hbehind
  exact hw.not_due (m := d + 1) (by omega) (Nat.lt_of_lt_of_le (by omega) hsleep) hdue

/-- Every due time is the time of some round. -/
theorem exists_round (hne : kinds ≠ []) (hk : k ∈ kinds) (hdue : Due k t) :
    ∃ n, (afterRounds kinds (n + 1)).elapsed = t := by
  have hpos : 0 < t := by
    obtain ⟨j, rfl⟩ := hdue
    exact Nat.add_pos_left k.startDelay_pos _
  have hreach : ∃ n, t ≤ (afterRounds kinds n).elapsed := by
    refine ⟨t, ?_⟩
    have hgrow : ∀ n, n ≤ (afterRounds kinds n).elapsed := by
      intro n
      induction n with
      | zero => exact Nat.zero_le _
      | succ n ih => exact Nat.succ_le_of_lt (Nat.lt_of_le_of_lt ih (elapsed_lt hne n))
    exact hgrow t
  -- the first round that gets to `t` gets there exactly
  have hfirst := Nat.find_spec hreach
  have hbefore (n : ℕ) (hn : n < Nat.find hreach) : (afterRounds kinds n).elapsed < t :=
    Nat.lt_of_not_le (Nat.find_min hreach hn)
  obtain ⟨n, hn⟩ : ∃ n, Nat.find hreach = n + 1 := by
    apply Nat.exists_eq_succ_of_ne_zero
    intro hzero
    rw [hzero] at hfirst
    have hstart : (afterRounds kinds 0).elapsed = 0 := rfl
    omega
  refine ⟨n, ?_⟩
  rw [hn] at hfirst hbefore
  exact Nat.le_antisymm (elapsed_le_due hne hk hdue (hbefore n (by omega))) hfirst

/-- The counters keep their periods. -/
structure Scheduled (kinds : List CounterKind) : Prop where
  advances : ∀ n, (afterRounds kinds n).elapsed < (afterRounds kinds (n + 1)).elapsed
  /-- In every round exactly the counters that are due then fire. -/
  fires : ∀ n, List.Forall₂ (fun k b => b = true ↔ Due k (afterRounds kinds (n + 1)).elapsed) kinds
    (afterRounds kinds (n + 1)).fired
  someone : ∀ n, true ∈ (afterRounds kinds (n + 1)).fired
  /-- No time at which a counter is due is passed over. -/
  reached : ∀ k ∈ kinds, ∀ j, ∃ n, (afterRounds kinds (n + 1)).elapsed = k.startDelay + j * k.period

/-- **Counter-driven scheduling keeps its periods.** -/
theorem scheduled {kinds : List CounterKind} (hne : kinds ≠ []) : Scheduled kinds where
  advances := elapsed_lt hne
  fires := fun n => ((allWait_afterRounds hne n).round hne).2.1
  someone := fun n => ((allWait_afterRounds hne n).round hne).2.2
  reached := fun _ hk j => exists_round hne hk ⟨j, rfl⟩

end TimeCounter

namespace OBCScrubbing

open Runs TimeCounter

/-- The turns of the task's loop. -/
def iterations (es : List ScrubberEvent) : ℕ := es.countP fun e => e ≠ .runOnce

theorem iterations_snoc (es : List ScrubberEvent) (e : ScrubberEvent) :
    iterations (es ++ [e]) = iterations es + if e = .runOnce then 0 else 1 := by
  rw [iterations, List.countP_append, List.countP_singleton]
  by_cases h : e = .runOnce
  · simp [iterations, h]
  · simp [iterations, h]

/-- What a run of the task has done. -/
structure Kept (es : List ScrubberEvent) (s : OBCScrubbing) : Prop where
  rounds : s.rounds = afterRounds scrubbers (iterations es)
  iterationsCount : s.iterationsCount = BitVec.ofNat 32 (iterations es)
  slept : s.slept ≤ s.rounds.elapsed
  /-- Without a request the task has slept the whole time. -/
  undisturbed : (∀ e ∈ es, e = .timeout) → s.slept = s.rounds.elapsed

theorem kept_init : Kept [] init := ⟨rfl, rfl, Nat.le_refl _, fun _ => rfl⟩

/-- One turn of the loop, after a wait of at most the sleep time. -/
theorem Kept.iteration {es : List ScrubberEvent} {s : OBCScrubbing} (h : Kept es s) {e : ScrubberEvent}
    (he : e ≠ .runOnce) {slept : ℕ} (f : Bool) (hle : slept ≤ sleepTime s.rounds.counters)
    (hfull : e = .timeout → slept = sleepTime s.rounds.counters) :
    Kept (es ++ [e]) (s.iteration slept f) := by
  have hcount : iterations (es ++ [e]) = iterations es + 1 := by
    rw [iterations_snoc, if_neg he]
  refine ⟨?_, ?_, Nat.add_le_add h.slept hle, ?_⟩
  · rw [hcount, OBCScrubbing.iteration, h.rounds]
    rfl
  · rw [hcount, OBCScrubbing.iteration, h.iterationsCount, BitVec.ofNat_add]
    rfl
  · intro hall
    have hbefore := h.undisturbed fun e' he' => hall e' (List.mem_append_left _ he')
    have hlast := hfull (hall e (List.mem_append_right _ (List.mem_singleton_self e)))
    show s.slept + slept = s.rounds.elapsed + sleepTime s.rounds.counters
    rw [hbefore, hlast]

theorem Kept.step {es : List ScrubberEvent} {s t : OBCScrubbing} {e : ScrubberEvent} (h : Kept es s)
    (hs : s.step e = some t) : Kept (es ++ [e]) t := by
  cases e with
  | runOnce =>
    obtain rfl := Option.some.inj hs
    have hcount : iterations (es ++ [.runOnce]) = iterations es := by
      rw [iterations_snoc, if_pos rfl, Nat.add_zero]
    refine ⟨?_, ?_, h.slept, ?_⟩
    · rw [hcount]
      exact h.rounds
    · rw [hcount]
      exact h.iterationsCount
    · intro hall
      exact absurd (hall .runOnce (List.mem_append_right _ (List.mem_singleton_self _))) (by simp)
  | timeout =>
    rw [OBCScrubbing.step] at hs
    split at hs
    · exact absurd hs (by simp)
    · obtain rfl := Option.some.inj hs
      exact h.iteration (by simp) false (Nat.le_refl _) fun _ => rfl
  | woken slept =>
    rw [OBCScrubbing.step] at hs
    split at hs
    · rename_i hwoken
      obtain rfl := Option.some.inj hs
      exact h.iteration (by simp) true hwoken.2 fun heq => absurd heq (by simp)
    · exact absurd hs (by simp)

theorem kept_of_run {es : List ScrubberEvent} {s : OBCScrubbing} (h : Run step always init es s) :
    Kept es s :=
  h.inv_trace kept_init fun _ _ _ _ hkept _ hs => hkept.step hs

/-- A turn of the loop that a request has woken after `slept`: the scrubbers that are next run,
although the wait was cut short. -/
structure Answered (s : OBCScrubbing) (slept : ℕ) (t : OBCScrubbing) : Prop where
  finished : t.runOnceFinished = true
  taken : t.runOnceRequested = false
  slept : t.slept = s.slept + slept
  rounds : t.rounds = s.rounds.round
  someone : true ∈ t.rounds.fired

/-- **A request is answered** by the turn it wakes. -/
theorem Kept.answered {es : List ScrubberEvent} {s t : OBCScrubbing} {slept : ℕ} (h : Kept es s)
    (hs : s.step (.woken slept) = some t) : Answered s slept t := by
  rw [OBCScrubbing.step] at hs
  split at hs
  · obtain rfl := Option.some.inj hs
    refine ⟨rfl, rfl, rfl, rfl, ?_⟩
    have hnext : (s.iteration slept true).rounds = afterRounds scrubbers (iterations es + 1) := by
      rw [OBCScrubbing.iteration, h.rounds]
      rfl
    rw [hnext]
    exact (scheduled (by simp [scrubbers])).someone _
  · exact absurd hs (by simp)

/-- **The scrubber task keeps the periods**, woken early or not, when each wait counts with
the time it asked for. That is the time it has slept as long as there are no requests, and a request
runs the scrubbers that are next at once. -/
theorem scrubbers_scheduled :
    (∀ kinds : List CounterKind, kinds ≠ [] → Scheduled kinds) ∧
      ∀ (es : List ScrubberEvent) (s : OBCScrubbing), Run step always init es s →
        Kept es s ∧ ∀ slept t, s.step (.woken slept) = some t → Answered s slept t := by
  refine ⟨fun _ hne => scheduled hne, fun es s h => ?_⟩
  have hkept := kept_of_run h
  exact ⟨hkept, fun _ _ hs => hkept.answered hs⟩

theorem scrubbers_scheduled_woken :
    Scheduled scrubbers ∧ Kept [.runOnce, .woken 0] (init.iteration 0 true) ∧
      Answered { init with runOnceRequested := true } 0 (init.iteration 0 true) :=
  ⟨scrubbers_scheduled.1 scrubbers (by simp [scrubbers]),
    (scrubbers_scheduled.2 [.runOnce, .woken 0] (init.iteration 0 true)
      (run_of_exec [ScrubberEvent.runOnce, .woken 0] rfl)).1,
    (scrubbers_scheduled.2 [.runOnce] { init with runOnceRequested := true }
      (run_of_exec [ScrubberEvent.runOnce] rfl)).2 0 _ rfl⟩

/-- A request right after the start: the primary slots and the boot loader are scrubbed
although no time has passed. -/
theorem woken_before_start :
    ∃ s, Run step always init [.runOnce, .woken 0] s ∧ s.slept = 0 ∧
      s.rounds.fired = [true, false, true, false, false] ∧
      ¬ List.Forall₂ (fun k b => b = true ↔ Due k s.slept) scrubbers s.rounds.fired := by
  refine ⟨(init.iteration 0 true), run_of_exec [ScrubberEvent.runOnce, .woken 0] rfl, rfl, rfl, ?_⟩
  intro h
  obtain ⟨hfirst, -⟩ := List.forall₂_cons.1 h
  obtain ⟨j, hj⟩ := hfirst.1 rfl
  have hstart : (minutes 1 7 (by decide) (by decide)).startDelay = 60000 := rfl
  rw [hstart] at hj
  have hzero : (init.iteration 0 true).slept = 0 := rfl
  omega

/-- Three undisturbed turns: at one, two and eight minutes. -/
example : (exec step always init [.timeout, .timeout, .timeout]).map (fun s => (s.slept, s.rounds.fired)) =
    some (480000, [true, false, false, false, false]) := by decide +kernel

end OBCScrubbing

end PWSat2OBC
