import PWSat2OBC.Spec.MissionLogic

/-!
# What verifying the mission state reports

`verifyLoop_spec`: the overall result tells whether any verdict is a failure, the loop runs
the descriptors through the first failing one, and every verdict goes into the first entry
of the results. `reports_iff`: so the results are those of the descriptors only where the
last verdict is also the first and the other entries held their verdicts before.
-/

namespace PWSat2OBC

namespace MissionLogic

variable {State Param : Type*}

/-! ### Updating -/

/-- The loop fails exactly when a descriptor fails on the state the ones before it leave;
the ones behind it do not run. -/
theorem updateLoop_failure (state : State) (result : UpdateResult)
    (ds : List (UpdateDescriptor State Param)) (hresult : result ≠ .failure) :
    (updateLoop state result ds).1 = .failure ↔
      ∃ before d after, ds = before ++ d :: after ∧
        (updateLoop state result before).1 ≠ .failure ∧
        d.execute (updateLoop state result before).2 =
          (.failure, (updateLoop state result ds).2) := by
  induction ds generalizing state result with
  | nil => simp [updateLoop, hresult]
  | cons d ds ih =>
    -- a descriptor that does not fail is passed over on both sides
    have passed (state' : State) (result' : UpdateResult) (hne : result' ≠ .failure)
        (heq : ∀ rest, updateLoop state result (d :: rest) = updateLoop state' result' rest)
        (hd : (d.execute state).1 ≠ .failure) :
        (updateLoop state result (d :: ds)).1 = .failure ↔
          ∃ before e after, d :: ds = before ++ e :: after ∧
            (updateLoop state result before).1 ≠ .failure ∧
            e.execute (updateLoop state result before).2 =
              (.failure, (updateLoop state result (d :: ds)).2) := by
      rw [heq ds, ih state' result' hne]
      constructor
      · rintro ⟨before, e, after, rfl, hbefore, hexecute⟩
        refine ⟨d :: before, e, after, rfl, ?_, ?_⟩
        · rw [heq]
          exact hbefore
        · rw [heq]
          exact hexecute
      · rintro ⟨before, e, after, hsplit, hbefore, hexecute⟩
        cases before with
        | nil =>
          obtain ⟨rfl, -⟩ := List.cons_eq_cons.1 hsplit
          rw [updateLoop] at hexecute
          exact absurd (congrArg Prod.fst hexecute) hd
        | cons b before =>
          obtain ⟨rfl, rfl⟩ := List.cons_eq_cons.1 hsplit
          rw [heq] at hbefore hexecute
          exact ⟨before, e, after, rfl, hbefore, hexecute⟩
    rcases hexec : d.execute state with ⟨r, state'⟩
    cases r with
    | ok =>
      refine passed state' result hresult (fun rest => ?_) (by simp [hexec])
      rw [updateLoop, hexec]
    | warning =>
      refine passed state' .warning (by decide) (fun rest => ?_) (by simp [hexec])
      rw [updateLoop, hexec]
    | failure =>
      have hloop : updateLoop state result (d :: ds) = (.failure, state') := by
        rw [updateLoop, hexec]
      rw [hloop]
      refine iff_of_true rfl ⟨[], d, ds, rfl, hresult, ?_⟩
      rw [updateLoop]
      exact hexec

/-! ### One call of the verification -/

variable {state : State} {ds : List (VerifyDescriptor State Param)}
  {results : List VerifyDescriptorResult}

theorem getLast?_verdicts (hne : ds ≠ []) :
    (verdicts state ds).getLast? = some ((ds.getLast hne).verdict state) := by
  rw [verdicts, List.getLast?_map, List.getLast?_eq_some_getLast hne, Option.map_some]

/-- What the loop over `ds` leaves of `results`. -/
structure LoopSpec (state : State) (ds : List (VerifyDescriptor State Param))
    (results : List VerifyDescriptorResult) (out : Verified State Param) : Prop where
  failure_iff : out.result = .failure ↔ ∃ d ∈ ds, (d.verdict state).result = .failure
  /-- All of them run when none in front of another one fails. -/
  ran_iff : out.ran = ds ↔ ∀ d ∈ ds.dropLast, (d.verdict state).result ≠ .failure
  results_eq : out.results =
    match out.ran.getLast? with
    | none => results
    | some d => results.set count (d.verdict state)

/-- **The loop of the verification**, where the results have room for a verdict. -/
theorem verifyLoop_spec (state : State) (ds : List (VerifyDescriptor State Param))
    (results : List VerifyDescriptorResult) (hroom : ds ≠ [] → 0 < results.length) :
    ∃ out, verifyLoop state results ds = some out ∧ LoopSpec state ds results out := by
  induction ds generalizing results with
  | nil =>
    refine ⟨⟨.ok, results, []⟩, rfl, ?_, ?_, rfl⟩
    · simp
    · simp
  | cons d ds ih =>
    have hpos : count < results.length := hroom (List.cons_ne_nil _ _)
    by_cases hfail : (d.verdict state).result = .failure
    · -- the early exit
      refine ⟨⟨.failure, results.set count (d.verdict state), [d]⟩, ?_, ?_, ?_, rfl⟩
      · rw [verifyLoop, if_pos hpos, if_pos hfail]
      · exact iff_of_true rfl ⟨d, List.mem_cons_self, hfail⟩
      · cases ds with
        | nil => simp
        | cons e ds =>
          have hmem : d ∈ (d :: e :: ds).dropLast := by simp [List.dropLast]
          exact iff_of_false (by simp) fun h => h d hmem hfail
    · obtain ⟨rest, hrest, hspec⟩ := ih (results.set count (d.verdict state)) fun _ => by
        rw [List.length_set]
        exact hpos
      refine ⟨{ rest with ran := d :: rest.ran }, ?_, ?_, ?_, ?_⟩
      · rw [verifyLoop, if_pos hpos, if_neg hfail, hrest, Option.map_some]
      · show rest.result = .failure ↔ _
        rw [hspec.failure_iff, List.exists_mem_cons_iff]
        simp only [hfail, false_or]
      · show d :: rest.ran = d :: ds ↔ _
        rw [List.cons_inj_right, hspec.ran_iff]
        cases ds with
        | nil => simp
        | cons e ds => rw [List.dropLast_cons_cons, List.forall_mem_cons, and_iff_right hfail]
      · show rest.results = _
        have hlast := hspec.results_eq
        rw [List.getLast?_cons]
        cases hran : rest.ran.getLast? with
        | none =>
          rw [hran] at hlast
          exact hlast
        | some e =>
          rw [hran] at hlast
          rw [hlast, Option.getD_some]
          exact List.set_set _

/-- **The overall result is right** for results with room: `Failure` exactly when some
verdict is. -/
theorem systemStateVerify_result (hlen : results.length = ds.length) :
    ∃ out, systemStateVerify state ds results = some out ∧
      (out.result = .failure ↔ ∃ d ∈ ds, (d.verdict state).result = .failure) := by
  obtain ⟨out, hout, hspec⟩ := verifyLoop_spec state ds results fun hne => by
    rw [hlen]
    exact List.length_pos_iff.2 hne
  exact ⟨out, hout, hspec.failure_iff⟩

/-- The verification reports every verdict: each descriptor has run once, the results are
the verdicts in order, and the overall result is `Failure` when one of them is. -/
def Reports (state : State) (ds : List (VerifyDescriptor State Param))
    (results : List VerifyDescriptorResult) : Prop :=
  ∃ out, systemStateVerify state ds results = some out ∧ out.ran = ds ∧
    out.results = verdicts state ds ∧
    (out.result = .failure ↔ ∃ v ∈ verdicts state ds, v.result = .failure)

/-- No descriptor but the last fails, the last verdict is also the first, and the results
behind the first are right before the call. -/
structure Lucky (state : State) (ds : List (VerifyDescriptor State Param))
    (results : List VerifyDescriptorResult) : Prop where
  passes : ∀ d ∈ ds.dropLast, (d.verdict state).result ≠ .failure
  ends : (verdicts state ds).getLast? = (verdicts state ds).head?
  stored : results.tail = (verdicts state ds).tail

/-- **When the verification reports every verdict**, for results of the length the
documentation asks for. -/
theorem reports_iff (state : State) (ds : List (VerifyDescriptor State Param))
    (results : List VerifyDescriptorResult) (hlen : results.length = ds.length) :
    Reports state ds results ↔ Lucky state ds results := by
  obtain ⟨out, hout, hspec⟩ := verifyLoop_spec state ds results fun hne => by
    rw [hlen]
    exact List.length_pos_iff.2 hne
  have hfailure : out.result = .failure ↔ ∃ v ∈ verdicts state ds, v.result = .failure := by
    simp only [hspec.failure_iff, verdicts, List.mem_map, exists_exists_and_eq_and]
  -- where all of them have run, the first entry holds the last verdict
  have hstored (hran : out.ran = ds) : out.results = verdicts state ds ↔
      (verdicts state ds).getLast? = (verdicts state ds).head? ∧
        results.tail = (verdicts state ds).tail := by
    have hresults := hspec.results_eq
    rw [hran] at hresults
    cases ds with
    | nil =>
      rw [List.length_nil, List.length_eq_zero_iff] at hlen
      simp [hresults, hlen, verdicts]
    | cons d ds =>
      cases results with
      | nil => simp at hlen
      | cons r results =>
        have hne : d :: ds ≠ [] := List.cons_ne_nil _ _
        rw [List.getLast?_eq_some_getLast hne] at hresults
        rw [hresults, getLast?_verdicts hne]
        simp [verdicts, count]
  constructor
  · rintro ⟨out', hout', hran, hresults, -⟩
    obtain rfl : out = out' := Option.some.inj (hout.symm.trans hout')
    obtain ⟨hends, htail⟩ := (hstored hran).1 hresults
    exact ⟨hspec.ran_iff.1 hran, hends, htail⟩
  · intro h
    have hran := hspec.ran_iff.2 h.passes
    exact ⟨out, hout, hran, (hstored hran).2 ⟨h.ends, h.stored⟩, hfailure⟩

/-- Two checks of a state, the first of which fails. -/
def failingChecks : List (VerifyDescriptor Unit Unit) :=
  [⟨fun _ _ => ⟨.failure, 5⟩, ()⟩, ⟨fun _ _ => ⟨.ok, 7⟩, ()⟩]

/-- The second check never runs, and its result stays what it was. -/
theorem failingChecks_not_reported :
    ([{}, {}] : List VerifyDescriptorResult).length = failingChecks.length ∧
      (systemStateVerify () failingChecks [{}, {}]).map (fun out => (out.ran.length, out.results)) =
        some (1, [⟨.failure, 5⟩, {}]) ∧
      ¬ Reports () failingChecks [{}, {}] := by
  refine ⟨rfl, rfl, ?_⟩
  rintro ⟨out, hout, -, hresults, -⟩
  obtain rfl : _ = out := Option.some.inj hout
  exact absurd hresults (by decide)

/-- A check that is fine, with a reason. -/
def fine (reason : BitVec 32) : VerifyDescriptor Unit Unit := ⟨fun _ _ => ⟨.ok, reason⟩, ()⟩

/-- Two checks that agree are reported where the second result is there already, and not where it is
the default one. -/
theorem reports_two :
    Reports () [fine 7, fine 7] [{}, ⟨.ok, 7⟩] ∧ ¬ Reports () [fine 7, fine 7] [{}, {}] := by
  refine ⟨(reports_iff () _ _ rfl).2 ⟨by simp [fine, VerifyDescriptor.verdict], rfl, rfl⟩, fun h => ?_⟩
  exact absurd ((reports_iff () [fine 7, fine 7] [{}, {}] rfl).1 h).stored (by decide)

/-- The results of `MissionLoop::RunOnce` start out as default values: there the report is
complete only if there is at most one check or every verdict is the default one. -/
theorem lucky_fresh_iff (state : State) (ds : List (VerifyDescriptor State Param)) :
    Lucky state ds (List.replicate ds.length {}) ↔
      ds.length ≤ 1 ∨ ∀ d ∈ ds, d.verdict state = {} := by
  cases ds with
  | nil => exact iff_of_true ⟨by simp, rfl, rfl⟩ (.inl (by simp))
  | cons d ds =>
    have htail : (List.replicate (d :: ds).length ({} : VerifyDescriptorResult)).tail =
        (verdicts state (d :: ds)).tail ↔ ∀ e ∈ ds, e.verdict state = {} := by
      simp only [List.length_cons, List.replicate_succ, List.tail_cons, verdicts, List.map_cons]
      rw [eq_comm, List.eq_replicate_iff]
      simp
    constructor
    · rintro ⟨-, hends, hstored⟩
      have hrest := htail.1 hstored
      cases ds with
      | nil => exact .inl (Nat.le_refl 1)
      | cons e ds =>
        -- the last verdict is a default one, and the first is equal to it
        refine .inr (List.forall_mem_cons.2 ⟨?_, hrest⟩)
        have hne : d :: e :: ds ≠ [] := List.cons_ne_nil _ _
        have hmem : (d :: e :: ds).getLast hne ∈ e :: ds := by
          rw [List.getLast_cons (List.cons_ne_nil _ _)]
          exact List.getLast_mem _
        rw [getLast?_verdicts hne, hrest _ hmem] at hends
        exact (Option.some.inj hends).symm
    · rintro (hshort | hall)
      · have hnil : ds = [] := List.eq_nil_of_length_eq_zero (by simpa using hshort)
        subst hnil
        exact ⟨by simp, rfl, rfl⟩
      · have heq : verdicts state (d :: ds) = List.replicate (d :: ds).length {} := by
          rw [List.eq_replicate_iff]
          simpa [verdicts] using hall
        refine ⟨?_, ?_, ?_⟩
        · intro e he
          rw [hall e (List.dropLast_subset _ he)]
          decide
        · rw [heq, List.getLast?_replicate, List.length_cons, List.replicate_succ, List.head?_cons]
          simp
        · rw [heq]

end MissionLogic

end PWSat2OBC
