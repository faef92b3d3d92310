import PWSat2OBC.Lib.Windows
import PWSat2OBC.Proof.ErrorCounter
import PWSat2OBC.Spec.Fdir

/-!
# When FDIR power cycles the satellite

The counters of different devices do not meet, so the counter of a device makes a run of its own
(`Tracks.counted`), with the calls that the scopes of the device end with. As long as the limit is not
reached the counter never saturates at its cap, so it is a sum cut off at zero, and the limit is
reached exactly if a window of reports reaches it (`limits_ne_nil_iff`).
-/

namespace PWSat2OBC

open State SetErrorCounterConfig Runs

/-! ## Words of the configuration -/

theorem SetErrorCounterConfig.getLimit_config (limit increment decrement : Byte) :
    getLimit (config limit increment decrement) = limit := by
  apply BitVec.eq_of_getLsbD_eq
  intro k hk
  unfold getLimit config
  interval_cases k <;> simp

theorem SetErrorCounterConfig.getIncrement_config (limit increment decrement : Byte) :
    getIncrement (config limit increment decrement) = increment := by
  apply BitVec.eq_of_getLsbD_eq
  intro k hk
  unfold getIncrement config
  interval_cases k <;> simp [BitVec.getLsbD_of_ge]

theorem SetErrorCounterConfig.getDecrement_config (limit increment decrement : Byte) :
    getDecrement (config limit increment decrement) = decrement := by
  apply BitVec.eq_of_getLsbD_eq
  intro k hk
  unfold getDecrement config
  interval_cases k <;> simp [BitVec.getLsbD_of_ge]

/-! ## Reporters -/

namespace AggregatedErrorCounter

theorem errorCount_foldl (results : List Bool) (c : AggregatedErrorCounter) :
    (results.foldl report c).errorCount = c.errorCount + BitVec.ofNat 32 (results.count false) := by
  induction results generalizing c with
  | nil => simp
  | cons flag results ih =>
    rw [List.foldl_cons, ih]
    cases flag with
    | true => simp [report]
    | false =>
      have hcount : BitVec.ofNat 32 (results.count false + 1) = BitVec.ofNat 32 (results.count false) + 1 := by
        rw [BitVec.ofNat_add]
        rfl
      simp only [report, failure, Bool.false_eq_true, if_false, List.count_cons_self, hcount]
      rw [BitVec.add_assoc, BitVec.add_comm 1]

/-- The scope is a success exactly if all results are. -/
theorem getAggregatedResult_ofResults {results : List Bool} (h : results.length < 2 ^ 32) :
    (ofResults results).getAggregatedResult = !decide (false ∈ results) := by
  have hcount := List.count_le_length (a := false) (l := results)
  have hzero : (ofResults results).errorCount = BitVec.ofNat 32 (results.count false) := by
    rw [ofResults, errorCount_foldl]
    exact BitVec.zero_add _
  rw [getAggregatedResult, hzero, Bool.eq_iff_iff, beq_iff_eq]
  have hiff : BitVec.ofNat 32 (results.count false) = 0 ↔ results.count false = 0 := by
    rw [← BitVec.toNat_inj, BitVec.toNat_ofNat, Nat.mod_eq_of_lt (by omega)]
    rfl
  rw [hiff, List.count_eq_zero]
  simp

end AggregatedErrorCounter

/-! ## Windows of reports -/

namespace Fdir

theorem reflect_nonneg (xs : List ℤ) : 0 ≤ Windows.reflect xs :=
  (Windows.le_reflect_iff xs 0).2 ⟨[], List.nil_suffix, le_rfl⟩

/-- Before the limit is reached the cap is out of reach. -/
theorem foldl_saturate_eq {cs : List CounterCall} (h : ErrorCounting.limits 0 cs = []) :
    ((cs.foldl ErrorCounting.saturate 0 : ℕ) : ℤ) = Windows.reflect (cs.map net) := by
  induction cs using List.reverseRecOn with
  | nil => rfl
  | append_singleton cs c ih =>
    rw [ErrorCounting.limits_snoc, List.append_eq_nil_iff] at h
    obtain ⟨hbefore, hafter⟩ := h
    have ih := ih hbefore
    have hnonneg := reflect_nonneg (cs.map net)
    rw [List.foldl_append, List.map_append, List.map_singleton, Windows.reflect_snoc, ← ih]
    rw [← ih] at hnonneg
    cases c with
    | failure increment limit =>
      have hlimit := ErrorCounting.byte_lt limit
      have hnot : ¬ limit.toNat ≤ ErrorCounting.saturate (cs.foldl ErrorCounting.saturate 0)
          (.failure increment limit) := by
        intro hle
        rw [ErrorCounting.limitAfter, if_pos hle] at hafter
        exact absurd hafter (by simp)
      simp only [List.foldl_cons, List.foldl_nil, ErrorCounting.saturate, net] at hnot ⊢
      omega
    | success decrement =>
      simp only [List.foldl_cons, List.foldl_nil, ErrorCounting.saturate, net]
      omega

theorem windowReaches_nil : ¬ WindowReaches [] := by
  rintro ⟨earlier, window, increment, limit, later, h, -⟩
  exact absurd h (by simp)

/-- With another report, a window that ends with it may reach the limit. -/
theorem windowReaches_snoc (cs : List CounterCall) (c : CounterCall) :
    WindowReaches (cs ++ [c]) ↔ WindowReaches cs ∨ ∃ window increment limit, window <:+ cs ∧
      c = .failure increment limit ∧ (limit.toNat : ℤ) ≤ (window.map net).sum + increment.toNat := by
  constructor
  · rintro ⟨earlier, window, increment, limit, later, heq, hle⟩
    rcases List.eq_nil_or_concat later with rfl | ⟨later, c', rfl⟩
    · right
      obtain ⟨rfl, hc⟩ := List.append_inj' heq rfl
      exact ⟨window, increment, limit, ⟨earlier, rfl⟩, List.singleton_inj.1 hc, hle⟩
    · left
      rw [List.concat_eq_append, ← List.cons_append, ← List.append_assoc] at heq
      exact ⟨earlier, window, increment, limit, later, (List.append_inj' heq rfl).1, hle⟩
  · rintro (⟨earlier, window, increment, limit, later, rfl, hle⟩ |
      ⟨window, increment, limit, ⟨earlier, rfl⟩, rfl, hle⟩)
    · exact ⟨earlier, window, increment, limit, later ++ [c], by simp, hle⟩
    · exact ⟨earlier, window, increment, limit, [], rfl, hle⟩

/-- The report after which the limit is reached for the first time. -/
theorem limitAfter_ne_nil_iff {cs : List CounterCall} (h : ErrorCounting.limits 0 cs = []) (c : CounterCall) :
    ErrorCounting.limitAfter (cs.foldl ErrorCounting.saturate 0) c ≠ [] ↔
      ∃ window increment limit, window <:+ cs ∧ c = .failure increment limit ∧
        (limit.toNat : ℤ) ≤ (window.map net).sum + increment.toNat := by
  have hvalue := foldl_saturate_eq h
  cases c with
  | success decrement =>
    refine iff_of_false (fun hne => hne rfl) ?_
    rintro ⟨window, increment, limit, -, hc, -⟩
    exact CounterCall.noConfusion hc
  | failure increment limit =>
    have hlimit := ErrorCounting.byte_lt limit
    -- the limit is compared with the sum
    have hiff : ErrorCounting.limitAfter (cs.foldl ErrorCounting.saturate 0) (.failure increment limit) ≠ [] ↔
        (limit.toNat : ℤ) - increment.toNat ≤ Windows.reflect (cs.map net) := by
      rw [← hvalue, ErrorCounting.limitAfter]
      by_cases hle : limit.toNat ≤
          ErrorCounting.saturate (cs.foldl ErrorCounting.saturate 0) (.failure increment limit)
      · rw [if_pos hle]
        rw [ErrorCounting.saturate] at hle
        exact iff_of_true (by simp) (by omega)
      · rw [if_neg hle]
        rw [ErrorCounting.saturate] at hle
        exact iff_of_false (by simp) (by omega)
    rw [hiff, Windows.le_reflect_iff]
    constructor
    · rintro ⟨ys, hys, hle⟩
      obtain ⟨xs, hxs⟩ := hys
      obtain ⟨earlier, window, rfl, -, rfl⟩ := List.map_eq_append_iff.1 hxs.symm
      exact ⟨window, increment, limit, List.suffix_append _ _, rfl, by omega⟩
    · rintro ⟨window, increment', limit', ⟨earlier, rfl⟩, hc, hle⟩
      obtain ⟨rfl, rfl⟩ := CounterCall.failure.inj hc
      refine ⟨window.map net, ?_, by omega⟩
      rw [List.map_append]
      exact List.suffix_append _ _

/-- **The limit is reached exactly if a window reaches it.** -/
theorem limits_ne_nil_iff (cs : List CounterCall) : ErrorCounting.limits 0 cs ≠ [] ↔ WindowReaches cs := by
  induction cs using List.reverseRecOn with
  | nil => exact iff_of_false (fun h => h rfl) windowReaches_nil
  | append_singleton cs c ih =>
    rw [windowReaches_snoc, ErrorCounting.limits_snoc, ← ih]
    by_cases hbefore : ErrorCounting.limits 0 cs = []
    · rw [hbefore, List.nil_append, limitAfter_ne_nil_iff hbefore]
      exact (or_iff_right fun h => h rfl).symm
    · refine iff_of_true ?_ (Or.inl hbefore)
      intro h
      exact hbefore (List.append_eq_nil_iff.1 h).1

/-! ## One step -/

variable {n : ℕ} {maskedDevices : BitVec 16} {s t : Fdir n} {es : List (FdirEvent n)}

theorem foldl_limitReached (device : Fin maxDevices) (reached : List Byte) (s : Fdir n) :
    ∃ powerCycles, reached.foldl (fun s errorsCount => s.limitReached device errorsCount) s =
        { s with powerCycles := s.powerCycles ++ powerCycles } ∧
      ∀ d, d ∈ powerCycles ↔ d = device ∧ ¬ IsMasked s.maskedDevices device ∧ reached ≠ [] := by
  induction reached generalizing s with
  | nil => exact ⟨[], by simp, by simp⟩
  | cons errorsCount reached ih =>
    rw [List.foldl_cons, limitReached]
    by_cases hmask : IsMasked s.maskedDevices device
    · rw [if_pos hmask]
      obtain ⟨powerCycles, heq, hmem⟩ := ih s
      refine ⟨powerCycles, heq, fun d => ?_⟩
      rw [hmem]
      simp [hmask]
    · rw [if_neg hmask]
      obtain ⟨powerCycles, heq, hmem⟩ := ih { s with powerCycles := s.powerCycles ++ [device] }
      refine ⟨device :: powerCycles, by rw [heq]; simp, fun d => ?_⟩
      rw [List.mem_cons, hmem]
      simp only [ne_eq, reduceCtorEq, not_false_eq_true, and_true, hmask]
      tauto

/-- A counter only adds to its calls of the callback. -/
theorem limitReached_step {c c' : ErrorCounting n} {e : CounterEvent n} (h : c.step e = some c') :
    ∃ reached, c'.limitReached = c.limitReached ++ reached := by
  cases e with
  | call t call =>
    obtain ⟨-, rfl⟩ := ErrorCounting.step_call h
    exact ⟨[], by simp⟩
  | resume t =>
    obtain ⟨counter, pc, reached, -, rfl⟩ := ErrorCounting.step_resume h
    exact ⟨reached, rfl⟩

/-- **An atomic operation**: the counter of the device takes a step, and the device is power cycled for
if that calls the callback and there is no mask. -/
theorem counted_spec {device : Fin maxDevices} {e : CounterEvent n} (h : s.counted device e = some t) :
    ∃ counting, (s.errorCounting device).step e = some counting ∧
      t.configuration = s.configuration ∧ t.maskedDevices = s.maskedDevices ∧
      t.errorCounting = Function.update s.errorCounting device counting ∧
      ∀ d, d ∈ t.powerCycles ↔ d ∈ s.powerCycles ∨ d = device ∧ ¬ IsMasked s.maskedDevices device ∧
        counting.limitReached ≠ (s.errorCounting device).limitReached := by
  obtain ⟨counting, hstep, rfl⟩ := Option.map_eq_some_iff.1 h
  obtain ⟨reached, hreached⟩ := limitReached_step hstep
  have hdrop : counting.limitReached.drop (s.errorCounting device).limitReached.length = reached := by
    rw [hreached, List.drop_left]
  rw [hdrop]
  obtain ⟨powerCycles, heq, hmem⟩ := foldl_limitReached device reached
    { s with errorCounting := Function.update s.errorCounting device counting }
  rw [heq]
  refine ⟨counting, hstep, rfl, rfl, rfl, fun d => ?_⟩
  rw [List.mem_append, hmem, hreached]
  simp

/-! ## Runs -/

theorem ratesOf_set (configuration : Vector (BitVec 32) maxDevices) (device : Fin maxDevices)
    (limit increment decrement : Byte) :
    ratesOf (configuration.set device (config limit increment decrement) device.isLt) =
      Function.update (ratesOf configuration) device ⟨limit, increment, decrement⟩ := by
  funext d
  by_cases hd : d = device
  · subst hd
    rw [Function.update_self]
    simp [ratesOf, getLimit_config, getIncrement_config, getDecrement_config]
  · have hne : device.val ≠ d.val := fun h => hd (Fin.ext h.symm)
    rw [Function.update_of_ne hd]
    simp [ratesOf, hne]

/-- The call that a scope ends with. -/
theorem reportResult_eq (s : Fdir n) (device : Fin maxDevices) {results : List Bool}
    (h : results.length < 2 ^ 32) :
    s.reportResult device results =
      if false ∈ results then
        .failure (ratesOf s.configuration device).increment (ratesOf s.configuration device).limit
      else .success (ratesOf s.configuration device).decrement := by
  rw [reportResult, AggregatedErrorCounter.getAggregatedResult_ofResults h]
  by_cases hfalse : false ∈ results
  · simp [hfalse, ratesOf, increment, limit]
  · simp [hfalse, ratesOf, decrement]

theorem reports_append (device : Fin maxDevices) (rates : Fin maxDevices → Rates)
    (es es' : List (FdirEvent n)) :
    reports device rates (es ++ es') = reports device rates es ++ reports device (es.foldl configured rates) es' := by
  induction es generalizing rates with
  | nil => rfl
  | cons e es ih =>
    cases e with
    | report thread d results => simp only [List.cons_append, reports, ih, List.append_assoc]; rfl
    | resume thread d => exact ih _
    | set d limit increment decrement => exact ih _
    | loadConfig config => exact ih _

/-- The counter of a device as it is after the calls `cs`, none of which overlaps another one. -/
structure Counts (counting : ErrorCounting n) (cs : List CounterCall) : Prop where
  run : ∃ es, Run ErrorCounting.step ErrorCounting.Alone (ErrorCounting.init n) es counting ∧
    ErrorCounting.calls es = cs
  single : ∀ t u, counting.threads t ≠ .idle → counting.threads u ≠ .idle → t = u

theorem Counts.call {c c' : ErrorCounting n} {cs : List CounterCall} (h : Counts c cs)
    (hfinished : c.Finished) {t : Fin n} {call : CounterCall} (hs : c.step (.call t call) = some c') :
    Counts c' (cs ++ [call]) := by
  obtain ⟨es, hrun, rfl⟩ := h.run
  refine ⟨⟨es ++ [.call t call], hrun.snoc (fun u _ => hfinished u) hs, ErrorCounting.calls_snoc es _⟩, ?_⟩
  obtain ⟨-, rfl⟩ := ErrorCounting.step_call hs
  have honly : ∀ u, Function.update c.threads t (ErrorCounting.start c.counter call).2 u ≠ .idle → u = t := by
    intro u hu
    by_contra hne
    rw [Function.update_of_ne hne] at hu
    exact hu (hfinished u)
  intro u v hu hv
  rw [honly u hu, honly v hv]

theorem Counts.resume {c c' : ErrorCounting n} {cs : List CounterCall} (h : Counts c cs) {t : Fin n}
    (hs : c.step (.resume t) = some c') : Counts c' cs := by
  obtain ⟨es, hrun, rfl⟩ := h.run
  obtain ⟨counter, pc, reached, hresume, rfl⟩ := ErrorCounting.step_resume hs
  have hbusy : c.threads t ≠ .idle := by
    intro hidle
    rw [hidle] at hresume
    exact absurd hresume (by simp [ErrorCounting.resume])
  have hothers : ∀ u, u ≠ t → c.threads u = .idle := by
    intro u hu
    by_contra hidle
    exact hu (h.single u t hidle hbusy)
  have halone : ErrorCounting.Alone c (.resume t) := hothers
  refine ⟨⟨es ++ [.resume t], hrun.snoc halone hs, ?_⟩, ?_⟩
  · rw [ErrorCounting.calls_snoc, CounterEvent.begins, Option.toList_none, List.append_nil]
  · have honly : ∀ u, Function.update c.threads t pc u ≠ .idle → u = t := by
      intro u hu
      by_contra hne
      rw [Function.update_of_ne hne] at hu
      exact hu (hothers u hne)
    intro u v hu hv
    rw [honly u hu, honly v hv]

/-- **The invariant**: every counter makes a run of its own with the reports of its device. -/
structure Tracks (maskedDevices : BitVec 16) (es : List (FdirEvent n)) (s : Fdir n) : Prop where
  masked : s.maskedDevices = maskedDevices
  rates : ratesOf s.configuration = es.foldl configured (ratesOf (init n maskedDevices).configuration)
  counts : ∀ d, Counts (s.errorCounting d) (reports d (ratesOf (init n maskedDevices).configuration) es)
  powerCycles : ∀ d, d ∈ s.powerCycles ↔
    ¬ IsMasked maskedDevices d ∧ (s.errorCounting d).limitReached ≠ []

theorem tracks_init : Tracks maskedDevices [] (init n maskedDevices) where
  masked := rfl
  rates := rfl
  counts := by
    intro d
    exact ⟨⟨[], .nil, rfl⟩, fun t u ht => absurd rfl ht⟩
  powerCycles := by
    intro d
    simp [init, ErrorCounting.init]

/-- An operation on a counter, whose device then has made the calls `call`. -/
theorem Tracks.counted (h : Tracks maskedDevices es s) {device : Fin maxDevices} {e : CounterEvent n}
    {e' : FdirEvent n} (hconfigured : ∀ rates, configured rates e' = rates)
    (hothers : ∀ d rates, d ≠ device → reports d rates [e'] = [])
    (hcounts : ∀ counting, (s.errorCounting device).step e = some counting → Counts counting
      (reports device (ratesOf (init n maskedDevices).configuration) es ++
        reports device (ratesOf s.configuration) [e']))
    (hs : s.counted device e = some t) : Tracks maskedDevices (es ++ [e']) t := by
  obtain ⟨counting, hstep, hconfiguration, hmasked, hcounting, hmem⟩ := counted_spec hs
  refine ⟨hmasked.trans h.masked, ?_, ?_, ?_⟩
  · rw [hconfiguration, h.rates, List.foldl_append, List.foldl_cons, List.foldl_nil, hconfigured]
  · intro d
    rw [hcounting, reports_append, ← h.rates]
    by_cases hd : d = device
    · subst hd
      rw [Function.update_self]
      exact hcounts counting hstep
    · rw [Function.update_of_ne hd, hothers d _ hd, List.append_nil]
      exact h.counts d
  · intro d
    rw [hmem, h.powerCycles, hcounting, h.masked]
    by_cases hd : d = device
    · subst hd
      rw [Function.update_self]
      obtain ⟨reached, hreached⟩ := limitReached_step hstep
      rw [hreached]
      by_cases hbefore : (s.errorCounting d).limitReached = []
      · simp [hbefore]
      · simp only [ne_eq, hbefore, List.append_eq_nil_iff, false_and, not_false_eq_true, and_true, true_and]
        exact or_iff_left_of_imp fun hnew => hnew.1
    · simp [hd]

theorem Tracks.step (h : Tracks maskedDevices es s) {e : FdirEvent n} (hok : Apart s e)
    (hs : s.step e = some t) : Tracks maskedDevices (es ++ [e]) t := by
  cases e with
  | report thread device results =>
    obtain ⟨hfinished, hlength⟩ := hok
    rw [Fdir.step] at hs
    split at hs
    · refine h.counted (fun _ => rfl) ?_ ?_ hs
      · intro d rates hd
        simp [reports, Ne.symm hd]
      · intro counting hstep
        have hcounts := (h.counts device).call hfinished hstep
        rw [reportResult_eq s device hlength] at hcounts
        simpa [reports] using hcounts
    · exact absurd hs (by simp)
  | resume thread device =>
    refine h.counted (fun _ => rfl) (fun _ _ _ => rfl) ?_ hs
    intro counting hstep
    have hcounts := (h.counts device).resume hstep
    simpa [reports] using hcounts
  | set device limit increment decrement =>
    obtain rfl := Option.some.inj hs
    refine ⟨h.masked, ?_, ?_, h.powerCycles⟩
    · rw [ratesOf_set, h.rates, List.foldl_append]
      rfl
    · intro d
      rw [reports_append]
      simpa [reports] using h.counts d
  | loadConfig config =>
    obtain rfl := Option.some.inj hs
    refine ⟨h.masked, ?_, ?_, h.powerCycles⟩
    · rw [List.foldl_append]
      rfl
    · intro d
      rw [reports_append]
      simpa [reports] using h.counts d

theorem tracks_of_run (h : Run step Apart (init n maskedDevices) es s) : Tracks maskedDevices es s :=
  h.inv_trace tracks_init fun _ _ _ _ hI hok hs => hI.step hok hs

/-- **Power cycles.** The satellite is power cycled for a device exactly if the device is not masked and
in some window of its reports, which ends with a failure, what the configuration in force adds for
failures outweighs what it takes off for successes by the limit. -/
theorem powerCycles_iff (h : Run step Apart (init n maskedDevices) es s) (device : Fin maxDevices)
    (hfinished : (s.errorCounting device).Finished) :
    device ∈ s.powerCycles ↔ ¬ IsMasked maskedDevices device ∧
      WindowReaches (reports device (fun _ => ⟨128, 5, 2⟩) es) := by
  have htracks := tracks_of_run h
  obtain ⟨ces, hrun, hcalls⟩ := (htracks.counts device).run
  have hrates : ratesOf (init n maskedDevices).configuration = fun _ => ⟨128, 5, 2⟩ := by
    funext d
    have hword : (init n maskedDevices).configuration[d] = config 128 5 2 := Vector.getElem_replicate _
    rw [ratesOf, hword, getLimit_config, getIncrement_config, getDecrement_config]
  rw [hrates] at hcalls
  rw [htracks.powerCycles, (ErrorCounting.reported_of_run hrun).finished hfinished, hcalls, limits_ne_nil_iff]

theorem eps_lt : 1 < maxDevices := by decide

/-- `EPSDriver::ErrorCounter::DeviceId`. -/
def eps : Fin maxDevices := ⟨1, eps_lt⟩

/-- One failure of EPS, whose limit has been lowered to an increment. -/
theorem powerCycles_iff_eps : ∃ s : Fdir 1, eps ∈ s.powerCycles ∧ ¬ IsMasked getErrorCounterMask eps := by
  let es : List (FdirEvent 1) := [.set eps 5 5 2, .report 0 eps [true, false], .resume 0 eps]
  obtain ⟨s, hrun, hfinished⟩ :=
    @exists_run_of_exec _ _ step Apart _ (init 1 getErrorCounterMask) es
      (fun s => (s.errorCounting eps).Finished) (by decide +kernel)
  have hmask : ¬ IsMasked getErrorCounterMask eps := by decide
  refine ⟨s, (powerCycles_iff hrun eps hfinished).2 ⟨hmask, ?_⟩, hmask⟩
  exact ⟨[], [], 5, 5, [], rfl, by decide⟩

end Fdir

end PWSat2OBC
