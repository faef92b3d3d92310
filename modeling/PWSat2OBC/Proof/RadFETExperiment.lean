import PWSat2OBC.Spec.SensorExperiments

/-!
# What the RadFET experiment stores, and what it leaves switched on

An iteration counts a sample before it knows the time, and without a time it stores nothing.

* `iteration_cases`: an iteration ends with a failure, counts a sample without one, or stores one.
* `recorded`: in every run with a time in each iteration, in which the commands that switch off are
  carried out, a run that has finished has stored what was asked for, and between runs everything
  is switched off.
-/

namespace PWSat2OBC

namespace RadFETExperiment

open Runs

/-! ## The data set -/

/-- The record at the start and at the end of a run. -/
def record (r : ℤ × List Byte) : List Packet := [.timestamp r.1, .payloadRadFet r.2]

/-- A sample: the time, the RadFET and the two temperatures. -/
structure Sample where
  time : ℤ
  telemetry : List Byte
  temperatures : BitVec 16 × BitVec 16

/-- The packets of a sample. -/
def Sample.packets (x : Sample) : List Packet :=
  [.timestamp x.time, .payloadRadFet x.telemetry, .supplySADSTemperature x.temperatures.1 x.temperatures.2]

/-- What was stored since the file was opened: the record of the start and the samples. -/
def Holds (dataSet : List Packet) (samples : List Sample) : Prop :=
  ∃ first, dataSet = record first ++ samples.flatMap Sample.packets

/-- What a whole run stores. -/
def Stored (count : Byte) (dataSet : List Packet) : Prop :=
  ∃ (first : ℤ × List Byte) (samples : List Sample) (last : ℤ × List Byte), samples.length = count.toNat ∧
    dataSet = record first ++ samples.flatMap Sample.packets ++ record last

theorem save_eq {writes : ℕ → Bool} {dataSet packets : List Packet}
    (h : (save writes dataSet packets).1 = true) : (save writes dataSet packets).2 = dataSet ++ packets := by
  induction packets generalizing writes dataSet with
  | nil => exact (List.append_nil _).symm
  | cons packet packets ih =>
    rw [save] at h ⊢
    by_cases hw : writes 0 = true
    · rw [if_pos hw] at h ⊢
      rw [ih h, List.append_assoc]
      rfl
    · rw [if_neg hw] at h
      exact absurd h (by simp)

/-- Both packets of the last record are written. -/
theorem saveRadFETTelemetry_eq {writes : ℕ → Bool} (h0 : writes 0 = true) (h1 : writes 1 = true)
    (dataSet : List Packet) (telemetry : List Byte) (timestamp : ℤ) :
    (saveRadFETTelemetry writes dataSet telemetry timestamp).2 = dataSet ++ record (timestamp, telemetry) := by
  apply save_eq
  rw [save, if_pos h0, save, if_pos h1]
  rfl

/-! ## One iteration -/

/-- The object after a sample has been counted. -/
def Recording.counted (s : Recording) : Recording :=
  { s with object := { s.object with samplesCollected := s.object.samplesCollected + 1 } }

/-- **An iteration** with a time fails, or stores a sample and counts it. -/
theorem iteration_cases (s : Recording) {a : IterationAnswers} (htime : a.currentTime ≠ none) :
    (∃ t, iteration s a = (.failure, t)) ∨
      ∃ x : Sample, iteration s a =
        (if s.object.samplesCollected + 1 < s.object.samplesCount then .waitForNextCycle else .finished,
          { s.counted with dataSet := s.dataSet ++ x.packets }) := by
  obtain ⟨time, htime⟩ := Option.ne_none_iff_exists'.1 htime
  cases hradfet : a.measureRadFET with
  | none =>
    left
    exact ⟨s.counted, by simp only [iteration, htime, hradfet, Recording.counted]⟩
  | some telemetry =>
  cases htemperatures : a.measureTemperatures with
  | none =>
    left
    exact ⟨s.counted, by simp only [iteration, htime, hradfet, htemperatures, Recording.counted]⟩
  | some temperatures =>
  -- both sensors have answered; what is left is the file
  rcases hsave : saveLoopTelemetry a.writes s.dataSet telemetry temperatures time with ⟨saved, dataSet⟩
  cases saved with
  | false =>
    left
    refine ⟨{ s.counted with dataSet := dataSet }, ?_⟩
    simp only [iteration, htime, hradfet, htemperatures, hsave, Recording.counted]
    rfl
  | true =>
    right
    have heq : dataSet = s.dataSet ++ (⟨time, telemetry, temperatures⟩ : Sample).packets := by
      have hpackets := @save_eq a.writes s.dataSet (⟨time, telemetry, temperatures⟩ : Sample).packets
        (congrArg Prod.fst hsave)
      exact (congrArg Prod.snd hsave).symm.trans hpackets
    refine ⟨⟨time, telemetry, temperatures⟩, ?_⟩
    rw [← heq]
    simp only [iteration, htime, hradfet, htemperatures, hsave, Recording.counted]
    rfl

/-! ## Runs -/

/-- What holds between any two events: when nothing is going on, the RadFET and its power line are
switched off, and a run that has finished has stored what was asked for. -/
structure Recorded (s : Recording) : Prop where
  off : s.phase = .idle → s.radFET = false ∧ s.sens = false
  stored : s.phase = .idle → s.finished = true → Stored s.asked s.dataSet

/-- The condition on a step: there is a time in each iteration, a command that fails has not
switched on, the commands that switch off are carried out, the last record is written, and
samples are asked for. -/
def Answered (s : Recording) : RecordingEvent → Prop
  | .setup _ _ _ => True
  | .start a => 0 < s.object.samplesCount ∧ (a.sensOn.reported = false → a.sensOn.done = false) ∧
      (a.radFETOn.reported = false → a.radFETOn.done = false) ∧
      a.radFETOff.done = true ∧ a.sensOff.done = true
  | .iteration a => a.currentTime ≠ none
  | .stop a => a.radFETOff.done = true ∧ a.sensOff.done = true ∧ a.writes 0 = true ∧ a.writes 1 = true

/-- The invariant of a run. -/
structure Inv (s : Recording) : Prop where
  recorded : Recorded s
  running : s.phase = .running → s.finished = false ∧ s.asked = s.object.samplesCount ∧
    s.object.samplesCollected < s.object.samplesCount ∧
    ∃ samples, samples.length = s.object.samplesCollected.toNat ∧ Holds s.dataSet samples
  finished : s.phase ≠ .idle → s.finished = true →
    ∃ samples, samples.length = s.asked.toNat ∧ Holds s.dataSet samples

theorem toNat_add_one {b c : Byte} (h : b < c) : (b + 1).toNat = b.toNat + 1 := by
  have hlt : b.toNat < c.toNat := h
  have hc := c.isLt
  have hone : (1 : Byte).toNat = 1 := rfl
  rw [BitVec.toNat_add, hone]
  omega

/-- A start that fails leaves everything switched off. -/
theorem start_failure {s t : Recording} {a : StartAnswers} (hs : s.radFET = false ∧ s.sens = false)
    (hok : Answered s (.start a)) (h : start s a = (.failure, t)) : t.radFET = false ∧ t.sens = false := by
  obtain ⟨hradfet, hsens⟩ := hs
  obtain ⟨-, hsensOn, hradFETOn, hradFETOff, hsensOff⟩ := hok
  unfold start at h
  by_cases hopened : a.opened = true
  swap
  · rw [if_pos hopened] at h
    obtain rfl := (Prod.mk.inj h).2
    exact ⟨hradfet, hsens⟩
  rw [if_neg (not_not.2 hopened)] at h
  by_cases hsensOn' : a.sensOn.reported = true
  swap
  · -- the power line could not be switched on
    rw [if_pos hsensOn'] at h
    obtain rfl := (Prod.mk.inj h).2
    have hdone := hsensOn (Bool.eq_false_iff.2 hsensOn')
    exact ⟨hradfet, by simp [Switched.state, hdone, hsens]⟩
  rw [if_neg (not_not.2 hsensOn')] at h
  by_cases hradFETOn' : a.radFETOn.reported = true
  swap
  · -- the RadFET could not be switched on
    rw [if_pos hradFETOn'] at h
    obtain rfl := (Prod.mk.inj h).2
    have hdone := hradFETOn (Bool.eq_false_iff.2 hradFETOn')
    exact ⟨by simp [Switched.state, hdone, hradfet], by simp [Switched.state, hsensOff]⟩
  rw [if_neg (not_not.2 hradFETOn')] at h
  cases htime : a.currentTime with
  | none =>
    rw [htime] at h
    obtain rfl := (Prod.mk.inj h).2
    exact ⟨by simp [Switched.state, hradFETOff], by simp [Switched.state, hsensOff]⟩
  | some currentTime =>
    rw [htime] at h
    dsimp only at h
    split at h
    · obtain rfl := (Prod.mk.inj h).2
      exact ⟨by simp [Switched.state, hradFETOff], by simp [Switched.state, hsensOff]⟩
    · exact absurd (Prod.mk.inj h).1 (by simp)

theorem start_finished (s : Recording) (a : StartAnswers) : (start s a).2.finished = s.finished := by
  unfold start
  split
  · rfl
  dsimp only
  split
  · rfl
  split
  · rfl
  split
  · rfl
  split
  · rfl
  · rfl

/-- A start that succeeds has stored its record. -/
theorem start_success {s t : Recording} {a : StartAnswers} (h : start s a = (.success, t)) :
    t.object = { s.object with samplesCollected := 0 } ∧ t.asked = s.asked ∧ t.finished = s.finished ∧
      Holds t.dataSet [] := by
  unfold start at h
  split at h
  · exact absurd (Prod.mk.inj h).1 (by simp)
  dsimp only at h
  split at h
  · exact absurd (Prod.mk.inj h).1 (by simp)
  split at h
  · exact absurd (Prod.mk.inj h).1 (by simp)
  split at h
  · exact absurd (Prod.mk.inj h).1 (by simp)
  rename_i currentTime _
  split at h
  · exact absurd (Prod.mk.inj h).1 (by simp)
  rename_i hsaved
  obtain rfl := (Prod.mk.inj h).2
  refine ⟨rfl, rfl, rfl, (currentTime, a.telemetry), ?_⟩
  exact (save_eq (not_not.1 hsaved)).trans (List.append_nil _).symm

/-- Nothing is promised while a run goes on. -/
theorem Recorded.of_not_idle {s : Recording} (h : s.phase ≠ .idle) : Recorded s :=
  ⟨fun hidle => absurd hidle h, fun hidle => absurd hidle h⟩

/-- A start begins a run without samples, or leaves everything switched off. -/
theorem inv_start {s t : Recording} {a : StartAnswers} {result : StartResult}
    (hoff : s.radFET = false ∧ s.sens = false) (hasked : s.asked = s.object.samplesCount)
    (hfinished : s.finished = false) (hok : Answered s (.start a)) (hstart : start s a = (result, t)) :
    Inv { t with phase := if result = .success then .running else .idle } := by
  cases result with
  | failure =>
    have hkeeps : t.finished = false := by
      have hsame := start_finished s a
      rw [hstart] at hsame
      exact hsame.trans hfinished
    have hoff' := start_failure hoff hok hstart
    refine ⟨⟨fun _ => hoff', fun _ hf => ?_⟩, fun hphase => ?_, fun hphase => absurd rfl hphase⟩
    · exact absurd (hkeeps.symm.trans hf) Bool.false_ne_true
    · exact absurd hphase ExperimentPhase.noConfusion
  | success =>
    obtain ⟨hobject, hasked', hfinished', hholds⟩ := start_success hstart
    refine ⟨.of_not_idle ExperimentPhase.noConfusion, fun _ => ?_, fun _ hf => ?_⟩
    · refine ⟨hfinished'.trans hfinished, ?_, ?_, [], ?_, hholds⟩
      · exact (hasked'.trans hasked).trans (congrArg samplesCount hobject).symm
      · change t.object.samplesCollected < t.object.samplesCount
        rw [hobject]
        exact hok.1
      · change 0 = t.object.samplesCollected.toNat
        rw [hobject]
        rfl
    · exact absurd ((hfinished'.trans hfinished).symm.trans hf) Bool.false_ne_true

/-- An iteration stores one more sample, or ends the run. -/
theorem Inv.iteration {s t : Recording} {a : IterationAnswers} {result : IterationResult} (h : Inv s)
    (hrunning : s.phase = .running) (hok : Answered s (.iteration a)) (hiteration : iteration s a = (result, t)) :
    Inv { t with phase := .after result, finished := result = .finished } := by
  obtain ⟨-, hasked, hcollected, samples, hlength, first, hholds⟩ := h.running hrunning
  rcases iteration_cases s hok with ⟨u, hu⟩ | ⟨x, hx⟩
  · -- the run ends without `Finished`
    obtain ⟨rfl, rfl⟩ := Prod.mk.inj (hiteration.symm.trans hu)
    exact ⟨.of_not_idle ExperimentPhase.noConfusion, fun hphase => absurd hphase ExperimentPhase.noConfusion,
      fun _ hf => absurd hf (by simp)⟩
  · -- one more sample has been stored and counted
    obtain ⟨rfl, rfl⟩ := Prod.mk.inj (hiteration.symm.trans hx)
    have hnext := toNat_add_one hcollected
    have hsamples : (samples ++ [x]).length = (s.object.samplesCollected + 1).toNat := by
      rw [List.length_append, List.length_singleton, hlength, hnext]
    have hholds' : Holds (s.dataSet ++ x.packets) (samples ++ [x]) := by
      refine ⟨first, ?_⟩
      rw [hholds, List.flatMap_append, List.flatMap_singleton, List.append_assoc]
    by_cases hlt : s.object.samplesCollected + 1 < s.object.samplesCount
    · rw [if_pos hlt]
      refine ⟨.of_not_idle ExperimentPhase.noConfusion, fun _ => ?_, fun _ hf => absurd hf (by simp)⟩
      exact ⟨by simp, hasked, hlt, samples ++ [x], hsamples, hholds'⟩
    · rw [if_neg hlt]
      refine ⟨.of_not_idle ExperimentPhase.noConfusion, fun hphase => absurd hphase ExperimentPhase.noConfusion,
        fun _ _ => ⟨samples ++ [x], ?_, hholds'⟩⟩
      -- the count has come to the number of samples that was asked for
      have hlt' : s.object.samplesCollected.toNat < s.object.samplesCount.toNat := hcollected
      have hge : ¬ (s.object.samplesCollected + 1).toNat < s.object.samplesCount.toNat := hlt
      change _ = s.asked.toNat
      rw [hsamples, hasked]
      omega

/-- **One event** keeps the invariant. -/
theorem inv_step {s t : Recording} {e : RecordingEvent} (h : Inv s) (hok : Answered s e)
    (hs : recordingStep s e = some t) : Inv t := by
  cases e with
  | setup delay samplesCount outputFileName =>
    simp only [recordingStep, Option.ite_none_right_eq_some, Option.some.injEq] at hs
    obtain ⟨hidle, rfl⟩ := hs
    refine ⟨⟨h.recorded.off, h.recorded.stored⟩, fun hphase => ?_, fun hphase => absurd hidle hphase⟩
    exact absurd (hidle.symm.trans hphase) ExperimentPhase.noConfusion
  | start a =>
    simp only [recordingStep, Option.ite_none_right_eq_some, Option.some.injEq] at hs
    obtain ⟨hidle, rfl⟩ := hs
    exact inv_start (s := { s with asked := s.object.samplesCount, finished := false }) (h.recorded.off hidle) rfl rfl
      hok rfl
  | iteration a =>
    simp only [recordingStep, Option.ite_none_right_eq_some, Option.some.injEq] at hs
    obtain ⟨hrunning, rfl⟩ := hs
    exact h.iteration hrunning hok rfl
  | stop a =>
    simp only [recordingStep, Option.ite_none_left_eq_some, Option.some.injEq] at hs
    obtain ⟨hphase, rfl⟩ := hs
    obtain ⟨hradFETOff, hsensOff, h0, h1⟩ := hok
    refine ⟨⟨fun _ => ?_, fun _ hf => ?_⟩, fun hrunning => absurd hrunning ExperimentPhase.noConfusion,
      fun hne => absurd rfl hne⟩
    · simp [stop, Switched.state, hradFETOff, hsensOff]
    · -- the last record closes what the run has stored
      obtain ⟨samples, hlength, first, hholds⟩ := h.finished hphase hf
      refine ⟨first, samples, (a.currentTime.getD 0, a.telemetry), hlength, ?_⟩
      rw [← hholds]
      exact saveRadFETTelemetry_eq h0 h1 _ _ _

/-- **The RadFET experiment stores what it was asked for** and switches off behind itself. -/
theorem recorded_run {es : List RecordingEvent} {s : Recording}
    (hrun : Run recordingStep Answered .init es s) : Recorded s := by
  have hinit : Inv .init := by
    refine ⟨⟨fun _ => ⟨rfl, rfl⟩, fun _ hf => absurd hf Bool.false_ne_true⟩, fun hphase => ?_, fun hphase => ?_⟩
    · exact absurd hphase ExperimentPhase.noConfusion
    · exact absurd rfl hphase
  exact (hrun.inv hinit fun _ _ _ h hok hs => inv_step h hok hs).recorded

/-! ## A run with an iteration without a time -/

/-- Everything works. -/
def startAnswers : StartAnswers where
  opened := true
  sensOn := ⟨true, true⟩
  radFETOn := ⟨true, true⟩
  telemetry := []
  currentTime := some 0
  writes := fun _ => true
  radFETOff := ⟨true, true⟩
  sensOff := ⟨true, true⟩

def iterationAnswers (currentTime : Option ℤ) : IterationAnswers where
  currentTime := currentTime
  measureRadFET := some []
  measureTemperatures := some (0, 0)
  writes := fun _ => true

def stopAnswers : StopAnswers where
  radFETOff := ⟨true, true⟩
  telemetry := []
  sensOff := ⟨true, true⟩
  currentTime := some 10
  writes := fun _ => true

theorem length_packets (samples : List Sample) :
    (samples.flatMap Sample.packets).length = 3 * samples.length := by
  induction samples with
  | nil => rfl
  | cons x samples ih =>
    have hx : x.packets.length = 3 := rfl
    rw [List.flatMap_cons, List.length_append, List.length_cons, ih, hx]
    omega

/-- A run with one sample. -/
theorem recorded_run_oneSample : ∃ s, Run recordingStep Answered .init [.setup 20 1 [47], .start startAnswers,
    .iteration (iterationAnswers (some 5)), .stop stopAnswers] s ∧ Recorded s := by
  have hstart : Run recordingStep Answered .init ([.setup 20 1 [47]] ++ [.start startAnswers]) _ :=
    .snoc (show Run recordingStep Answered .init ([] ++ [.setup 20 1 [47]]) _ from .snoc .nil trivial rfl)
      ⟨show (0 : Byte) < 1 by decide, by decide, by decide, rfl, rfl⟩ rfl
  have hiteration : Run recordingStep Answered .init ([.setup 20 1 [47], .start startAnswers] ++
      [.iteration (iterationAnswers (some 5))]) _ :=
    .snoc hstart (Option.some_ne_none 5) rfl
  have hrun : Run recordingStep Answered .init ([.setup 20 1 [47], .start startAnswers,
      .iteration (iterationAnswers (some 5))] ++ [.stop stopAnswers]) _ :=
    .snoc hiteration ⟨rfl, rfl, rfl, rfl⟩ rfl
  exact ⟨_, hrun, recorded_run hrun⟩

/-- One sample has been stored instead of two. -/
theorem not_recorded_missingTime :
    ∃ s, Run recordingStep always .init [.setup 20 2 [47], .start startAnswers,
      .iteration (iterationAnswers none), .iteration (iterationAnswers (some 5)), .stop stopAnswers] s ∧
      ¬ Recorded s := by
  apply exists_run_of_exec
  refine ⟨_, rfl, ?_⟩
  intro h
  obtain ⟨first, samples, last, hlength, hdata⟩ := h.stored rfl rfl
  have hpackets := congrArg List.length hdata
  have htwo : samples.length = 2 := hlength
  have hseven : 7 = (record first ++ samples.flatMap Sample.packets ++ record last).length := hpackets
  rw [List.length_append, List.length_append, length_packets, htwo] at hseven
  exact absurd hseven (by simp [record])

end RadFETExperiment

end PWSat2OBC
