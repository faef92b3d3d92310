import PWSat2OBC.Spec.SensorExperiments

/-!
# The sampling sessions of the sun sensor experiment

The counter of the sessions is a byte that is decremented before it is compared with zero, the
time of the next session is kept from one run to the next, and after a session the time is used
whether or not there is one.

* `iteration_cases`: an iteration waits, or holds a session.
* `sampled`: the sessions are as configured in every run that is set up for at least one session,
  is not put off by the run before it, and has a time behind each session but the last.
-/

namespace PWSat2OBC

namespace SunSExperiment

open Runs

/-! ## One iteration -/

/-- A session is held at this reading. -/
def Sampling.Due (s : Sampling) (r : Readings) (t : ℤ) : Prop := r.before = some t ∧ s.nextSessionAt ≤ t

/-- The state after a session. -/
def Sampling.sampled (s : Sampling) (r : Readings) (t : ℤ) : Sampling :=
  { s with
    remainingSessions := s.remainingSessions - 1
    sensPower := false
    sunSPower := false
    sessions := s.sessions ++ [⟨s.readings.length, t, r.after, samples s.parameters⟩]
    nextSessionAt := if s.remainingSessions - 1 = 0 then s.nextSessionAt
      else r.after.getD 0 + s.parameters.longDelay * 60000 }

/-- **An iteration** waits, or holds a session, the last of which ends the run. -/
theorem iteration_cases (s : Sampling) (r : Readings) :
    (iteration s r = (.waitForNextCycle, s) ∧ ∀ t, ¬ s.Due r t) ∨
      ∃ t, s.Due r t ∧ iteration s r =
        (if s.remainingSessions - 1 = 0 then .finished else .waitForNextCycle, s.sampled r t) := by
  cases hbefore : r.before with
  | none =>
    left
    refine ⟨?_, fun t h => ?_⟩
    · simp only [iteration, hbefore]
    · rw [Sampling.Due, hbefore] at h
      exact absurd h.1 (by simp)
  | some t =>
    by_cases hlt : t < s.nextSessionAt
    · left
      refine ⟨?_, fun t' h => ?_⟩
      · simp only [iteration, hbefore, if_pos hlt]
      · rw [Sampling.Due, hbefore] at h
        obtain rfl := Option.some.inj h.1
        exact absurd h.2 (not_le.2 hlt)
    · right
      refine ⟨t, ⟨hbefore, not_lt.1 hlt⟩, ?_⟩
      simp only [iteration, hbefore, if_neg hlt, Sampling.sampled]
      by_cases hlast : s.remainingSessions - 1 = 0
      · rw [if_pos hlast, if_pos hlast, if_pos hlast]
      · rw [if_neg hlast, if_neg hlast, if_neg hlast]

theorem length_samples (parameters : SunSExperimentParams) :
    (samples parameters).length = parameters.samplesCount.toNat := by
  rw [samples, List.length_map, List.length_range]

/-! ## What a run is to do -/

/-- The end of a session by the clock; without a time, what is known is that it began before. -/
def Session.endsAt (session : Session) : ℤ := session.after.getD session.beginsAt

/-- What holds in a run of the experiment: the sessions and the measurements in them are as
configured, the first is held in the first iteration with a time, the others when the delay has
passed, and the power lines are off between them and at the end. -/
structure Sampled (s : Sampling) : Prop where
  atMost : s.sessions.length ≤ s.parameters.samplingSessionsCount.toNat
  finished : s.phase = .ended .finished ↔
    s.sessions.length = s.parameters.samplingSessionsCount.toNat
  running : s.phase = .running ∨ s.phase = .ended .finished
  measurements : ∀ session ∈ s.sessions,
    session.measurements.length = s.parameters.samplesCount.toNat
  first : s.sessions.head?.map Session.iteration = s.readings.findIdx? Option.isSome
  apart : s.sessions.IsChain fun a b => a.endsAt + (s.parameters.longDelay : ℤ) * 60000 ≤ b.beginsAt
  prompt : s.phase = .running → ∀ last ∈ s.sessions.getLast?,
    s.nextSessionAt = last.endsAt + s.parameters.longDelay * 60000
  off : s.sessions ≠ [] → s.sensPower = false ∧ s.sunSPower = false

/-- The condition on a step: the run is set up for a session, the first session is not put off,
and there is a time behind every session but the last. -/
def TimesGiven (s : Sampling) : SamplingEvent → Prop
  | .start _ _ => 0 < s.parameters.samplingSessionsCount
  | .iteration r => (s.sessions = [] → ∀ t, r.before = some t → s.nextSessionAt ≤ t) ∧
      ((∃ t, s.Due r t) → r.after = none → s.remainingSessions = 1)
  | _ => True

/-- The invariant of a run. -/
structure Inv (s : Sampling) : Prop where
  sampled : Sampled s
  remaining : s.remainingSessions.toNat + s.sessions.length = s.parameters.samplingSessionsCount.toNat

theorem toNat_sub_one {b : Byte} (h : 0 < b.toNat) : (b - 1).toNat = b.toNat - 1 := by
  have hlt := b.isLt
  have hone : (1 : Byte).toNat = 1 := rfl
  rw [BitVec.toNat_sub, hone]
  omega

theorem eq_one_iff {b : Byte} : b = 1 ↔ b.toNat = 1 := by
  constructor
  · rintro rfl
    rfl
  · exact fun h => BitVec.eq_of_toNat_eq h

theorem sub_one_eq_zero {b : Byte} : b - 1 = 0 ↔ b = 1 := by
  constructor
  · intro h
    rw [← BitVec.sub_add_cancel b 1, h]
    rfl
  · rintro rfl
    rfl

/-- **One iteration** of a run. -/
theorem Inv.iteration {s : Sampling} (h : Inv s) (hrunning : s.phase = .running) {r : Readings}
    (hok : TimesGiven s (.iteration r)) {result : IterationResult} {t : Sampling}
    (ht : SunSExperiment.iteration s r = (result, t)) :
    Inv { t with phase := .after result, readings := s.readings ++ [r.before] } := by
  obtain ⟨hfirst, hafter⟩ := hok
  have hnotEnded : s.sessions.length ≠ s.parameters.samplingSessionsCount.toNat := by
    intro hlength
    have hended := h.sampled.finished.2 hlength
    rw [hrunning] at hended
    cases hended
  have hremaining := h.remaining
  rcases iteration_cases s r with ⟨heq, hdue⟩ | ⟨t', hdue, heq⟩
  · -- the iteration waits
    rw [heq] at ht
    obtain ⟨rfl, rfl⟩ := Prod.mk.inj ht
    refine ⟨⟨h.sampled.atMost, ?_, Or.inl rfl, h.sampled.measurements, ?_, h.sampled.apart,
      fun _ => h.sampled.prompt hrunning, h.sampled.off⟩, h.remaining⟩
    · exact iff_of_false (by simp [ExperimentPhase.after]) hnotEnded
    · dsimp only
      rw [List.findIdx?_append, h.sampled.first]
      cases hfind : s.readings.findIdx? Option.isSome with
      | some i => rfl
      | none =>
        -- without a session so far, none of the readings is a time
        have hnil : s.sessions = [] := by
          have hhead := h.sampled.first
          rw [hfind, Option.map_eq_none_iff, List.head?_eq_none_iff] at hhead
          exact hhead
        cases hbefore : r.before with
        | none => rfl
        | some t => exact absurd ⟨hbefore, hfirst hnil t hbefore⟩ (hdue t)
  · -- the iteration holds a session
    rw [heq] at ht
    obtain ⟨rfl, rfl⟩ := Prod.mk.inj ht
    have hpos : 0 < s.remainingSessions.toNat := by
      have hle := h.sampled.atMost
      omega
    have hdec := toNat_sub_one hpos
    have hlast : s.remainingSessions - 1 = 0 ↔ s.remainingSessions.toNat = 1 :=
      sub_one_eq_zero.trans eq_one_iff
    have hlength : (s.sampled r t').sessions.length = s.sessions.length + 1 := by
      rw [Sampling.sampled, List.length_append, List.length_singleton]
    refine ⟨⟨?_, ?_, ?_, ?_, ?_, ?_, ?_, ?_⟩, ?_⟩
    · rw [hlength]
      change s.sessions.length + 1 ≤ s.parameters.samplingSessionsCount.toNat
      omega
    · rw [hlength]
      change _ ↔ s.sessions.length + 1 = s.parameters.samplingSessionsCount.toNat
      by_cases hone : s.remainingSessions - 1 = 0
      · rw [if_pos hone]
        have hcount := hlast.1 hone
        exact iff_of_true rfl (by omega)
      · rw [if_neg hone]
        have hcount : s.remainingSessions.toNat ≠ 1 := fun heq => hone (hlast.2 heq)
        exact iff_of_false (by simp [ExperimentPhase.after]) (by omega)
    · by_cases hone : s.remainingSessions - 1 = 0
      · rw [if_pos hone]
        exact Or.inr rfl
      · rw [if_neg hone]
        exact Or.inl rfl
    · intro session hsession
      rcases List.mem_append.1 hsession with hsession | hsession
      · exact h.sampled.measurements session hsession
      · rw [List.mem_singleton.1 hsession]
        exact length_samples s.parameters
    · -- the first session is held in the first iteration with a time
      change (s.sessions ++ [_]).head?.map Session.iteration = _
      rw [List.findIdx?_append, ← h.sampled.first, hdue.1]
      cases hsessions : s.sessions with
      | nil => simp
      | cons session sessions => rfl
    · change (s.sessions ++ [_]).IsChain _
      refine List.isChain_append.2 ⟨h.sampled.apart, List.isChain_singleton _, ?_⟩
      intro last hlast' session hsession
      obtain rfl := Option.some.inj hsession
      exact (h.sampled.prompt hrunning last hlast').ge.trans hdue.2
    · intro hphase last hlast'
      have hone : ¬ s.remainingSessions - 1 = 0 := by
        intro hone
        rw [if_pos hone] at hphase
        cases hphase
      change last ∈ (s.sessions ++ [_]).getLast? at hlast'
      rw [List.getLast?_append, List.getLast?_singleton] at hlast'
      obtain rfl := Option.some.inj hlast'
      simp only [Sampling.sampled, if_neg hone, Session.endsAt]
      -- there is a time behind the session, which is not the last
      cases hr : r.after with
      | none => exact absurd (eq_one_iff.1 (hafter ⟨t', hdue⟩ hr)) fun heq => hone (hlast.2 heq)
      | some after => rfl
    · exact fun _ => ⟨rfl, rfl⟩
    · rw [hlength]
      change (s.remainingSessions - 1).toNat + _ = s.parameters.samplingSessionsCount.toNat
      omega

/-! ## Runs -/

/-- **One event.** -/
theorem inv_step {s t : Sampling} {e : SamplingEvent} (h : s.phase ≠ .idle → Inv s) (hok : TimesGiven s e)
    (hs : samplingStep s e = some t) : t.phase ≠ .idle → Inv t := by
  cases e with
  | setParameters parameters =>
    simp only [samplingStep, Option.ite_none_right_eq_some, Option.some.injEq] at hs
    obtain ⟨hidle, rfl⟩ := hs
    exact fun hphase => absurd hidle hphase
  | start openPrimary openSecondary =>
    simp only [samplingStep, Option.ite_none_right_eq_some, Option.some.injEq] at hs
    obtain ⟨-, rfl⟩ := hs
    intro hphase
    have hpos : 0 < s.parameters.samplingSessionsCount.toNat := hok
    cases openPrimary <;> cases openSecondary <;> simp [start] at hphase ⊢
    refine ⟨⟨Nat.zero_le _, ?_, Or.inl rfl, ?_, rfl, List.IsChain.nil, ?_, fun h => absurd rfl h⟩, ?_⟩
    · exact iff_of_false (by simp) hpos.ne
    · exact fun session hsession => absurd hsession List.not_mem_nil
    · exact fun _ last hlast => absurd hlast (by simp)
    · exact Nat.add_zero _
  | iteration r =>
    simp only [samplingStep, Option.ite_none_right_eq_some, Option.some.injEq] at hs
    obtain ⟨hrunning, rfl⟩ := hs
    have hinv := h (by rw [hrunning]; exact ExperimentPhase.noConfusion)
    exact fun _ => hinv.iteration hrunning hok rfl
  | stop =>
    simp only [samplingStep, Option.ite_none_left_eq_some, Option.some.injEq] at hs
    obtain ⟨-, rfl⟩ := hs
    exact fun hphase => absurd rfl hphase

/-- The operations of an iteration, up to its result. -/
inductive Steps (request : ℕ) (answer : Pc → Option ℕ) :
    SunSExperiment → Pc → SunSExperiment → IterationResult → Prop
  | returned {o : SunSExperiment} (pc : Pc) {result : IterationResult} :
      (step request o pc (answer pc)).next = .iterated result →
        Steps request answer o pc (step request o pc (answer pc)).object result
  | goto {o o' : SunSExperiment} {pc : Pc} (pc' : Pc) {result : IterationResult} :
      (step request o pc (answer pc)).next = .goto pc' →
        Steps request answer (step request o pc (answer pc)).object pc' o' result →
        Steps request answer o pc o' result

/-- The fields that both models have. -/
structure Matches (o : SunSExperiment) (s : Sampling) : Prop where
  parameters : o.parameters = s.parameters
  remainingSessions : o.remainingSessions = s.remainingSessions
  nextSessionAt : (o.nextSessionAt : ℤ) = s.nextSessionAt

variable {request : ℕ} {answer : Pc → Option ℕ} {o o' : SunSExperiment} {result : IterationResult}

/-- The loop over the samples leaves the object as it is. -/
theorem steps_samples (n i : ℕ) (hn : i + n = o.parameters.samplesCount.toNat)
    (hend : Steps request answer o .sessionEnd o' result) : Steps request answer o (.samples i) o' result := by
  induction n generalizing i with
  | zero =>
    refine .goto .sessionEnd ?_ hend
    simp only [step, if_neg (show ¬ i < o.parameters.samplesCount.toNat by omega)]
  | succ n ih =>
    have hlt : i < o.parameters.samplesCount.toNat := by omega
    have hmeasure : Steps request answer o (.measure i) o' result :=
      .goto (.samples (i + 1)) rfl (ih (i + 1) (by omega))
    rcases Nat.eq_zero_or_pos i with rfl | hpos
    · refine .goto (.measure 0) ?_ hmeasure
      simp only [step, if_pos hlt, if_neg (lt_irrefl 0)]
    · refine .goto (.shortDelay i) ?_ (.goto (.measure i) rfl hmeasure)
      simp only [step, if_pos hlt, if_pos hpos]

/-- **The operations of an iteration** do what `iteration` does, at times since the start of the
mission. -/
theorem steps_iteration {s : Sampling} (h : Matches o s) (before after : Option ℕ)
    (hbefore : answer .iteration = before) (hafter : answer .nextSession = after) :
    ∃ o', Steps request answer o .iteration o'
        (iteration s ⟨before.map Nat.cast, after.map Nat.cast⟩).1 ∧
      Matches o' (iteration s ⟨before.map Nat.cast, after.map Nat.cast⟩).2 := by
  cases before with
  | none =>
    refine ⟨o, ?_, h⟩
    have hstep : step request o .iteration (answer .iteration) = ⟨o, .iterated .waitForNextCycle, none⟩ := by
      rw [hbefore]
      rfl
    have hreturned := @Steps.returned request answer o .iteration _ (congrArg Turn.next hstep)
    rwa [hstep] at hreturned
  | some t =>
    have hdue : (t : ℤ) < s.nextSessionAt ↔ t < o.nextSessionAt := by rw [← h.nextSessionAt, Nat.cast_lt]
    by_cases hlt : t < o.nextSessionAt
    · have hstep : step request o .iteration (answer .iteration) =
          ⟨o, .iterated .waitForNextCycle, some (.sessionAt o.nextSessionBy)⟩ := by
        rw [hbefore]
        exact if_pos hlt
      have hreturned := @Steps.returned request answer o .iteration _ (congrArg Turn.next hstep)
      rw [hstep] at hreturned
      have hiteration : iteration s ⟨(some t).map Nat.cast, after.map Nat.cast⟩ = (.waitForNextCycle, s) :=
        if_pos (hdue.2 hlt)
      rw [hiteration]
      exact ⟨o, hreturned, h⟩
    · -- the session takes the object through the loop
      let o₁ : SunSExperiment := { o with remainingSessions := o.remainingSessions - 1 }
      have hstep : step request o .iteration (answer .iteration) = ⟨o₁, .goto (.samples 0), none⟩ := by
        rw [hbefore]
        exact if_neg hlt
      have hfront : ∀ {o' result}, Steps request answer o₁ .sessionEnd o' result →
          Steps request answer o .iteration o' result := by
        intro o' result hend
        refine .goto (.samples 0) (congrArg Turn.next hstep) ?_
        rw [hstep]
        exact steps_samples _ 0 (Nat.zero_add _) hend
      obtain ⟨hparameters, hremaining, hnext⟩ := h
      have hresult : iteration s ⟨(some t).map Nat.cast, after.map Nat.cast⟩ =
          (if s.remainingSessions - 1 = 0 then .finished else .waitForNextCycle,
            s.sampled ⟨(some t).map Nat.cast, after.map Nat.cast⟩ t) := by
        rcases iteration_cases s ⟨(some t).map Nat.cast, after.map Nat.cast⟩ with ⟨-, hwait⟩ | ⟨t', ht', heq⟩
        · exact absurd ⟨rfl, not_lt.1 (mt hdue.1 hlt)⟩ (hwait t)
        · rw [heq, ← Option.some.inj ht'.1]
      rw [hresult]
      by_cases hlast : s.remainingSessions - 1 = 0
      · have hend : Steps request answer o₁ .sessionEnd o₁ .finished := by
          refine .returned (o := o₁) .sessionEnd ?_
          simp only [step, if_pos (show o₁.remainingSessions = 0 by rw [← hlast, ← hremaining])]
        rw [if_pos hlast]
        refine ⟨o₁, hfront hend, hparameters, congrArg (· - 1) hremaining, ?_⟩
        simp only [Sampling.sampled, if_pos hlast]
        exact hnext
      · have hend : Steps request answer o₁ .sessionEnd
            (step request o₁ .nextSession (answer .nextSession)).object .waitForNextCycle := by
          refine .goto .nextSession ?_ (.returned (o := o₁) .nextSession rfl)
          simp only [step, if_neg (show ¬ o₁.remainingSessions = 0 by rw [← hremaining] at hlast; exact hlast)]
        rw [if_neg hlast]
        refine ⟨_, hfront hend, hparameters, congrArg (· - 1) hremaining, ?_⟩
        simp only [step, Sampling.sampled, if_neg hlast, hafter, ← hparameters, o₁]
        cases after with
        | none => simp
        | some after => simp

end SunSExperiment

end PWSat2OBC
