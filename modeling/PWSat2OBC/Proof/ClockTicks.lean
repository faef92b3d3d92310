import PWSat2OBC.Spec.MissionTime

/-!
# Clock ticks during a time correction

One call of `CorrectTime`, with ticks of the clock anywhere before, in and behind it. The
call reads the clock, computes and then overwrites the clock: `run_corrected` says what
it leaves. The ticks between reading and setting are in neither term, so
`ticksKept_iff` asks that there are none.
-/

namespace PWSat2OBC

open Runs

namespace MissionTime

variable {s t u : MissionTime} {es : List MissionTimeEvent}

/-! ### Ticks -/

/-- `TimeProvider::AdvanceTime`. -/
def IsTick : MissionTimeEvent → Prop
  | .advanceTime _ => True
  | _ => False

instance : DecidablePred IsTick
  | .advanceTime _ => isTrue trivial
  | .update | .store _ _ | .configure _ | .correctTime | .correctTimeReturns | .determineFails
  | .setCorrectedTime _ _ | .notifyTimeChanged | .setTime _ _ _ => isFalse id

/-- The time ticked in a run. -/
def ticks : List MissionTimeEvent → ℤ
  | [] => 0
  | .advanceTime delta :: es => delta + ticks es
  | _ :: es => ticks es

theorem ticks_append (es es' : List MissionTimeEvent) : ticks (es ++ es') = ticks es + ticks es' := by
  induction es with
  | nil => rw [List.nil_append, ticks, Int.zero_add]
  | cons e es ih =>
    cases e with
    | advanceTime delta => rw [List.cons_append, ticks, ticks, ih, Int.add_assoc]
    | _ =>
      rw [List.cons_append, ticks, ticks, ih]
      all_goals simp

/-- The events of a call other than ticks. -/
def calls (es : List MissionTimeEvent) : List MissionTimeEvent := es.filter fun e => ¬ IsTick e

theorem isTick_of_calls_nil (h : calls es = []) : ∀ e ∈ es, IsTick e := by
  intro e he
  have hkept := List.filter_eq_nil_iff.1 h e he
  simpa using hkept

/-- The state after the clock has ticked. -/
def advanced (s : MissionTime) (delta : ℤ) : MissionTime :=
  { s with currentTime := s.currentTime + delta, uptime := s.uptime + delta }

/-- **Ticks alone** move the clock and nothing else. -/
theorem run_ticks (htick : ∀ e ∈ es, IsTick e) (h : Run step always s es t) : t = s.advanced (ticks es) := by
  induction es generalizing s with
  | nil =>
    rw [h.eq_of_nil, advanced, ticks, Int.add_zero, Int.add_zero]
  | cons e es ih =>
    obtain ⟨u, -, hs, hrest⟩ := h.uncons
    have hrest := ih (fun e' he' => htick e' (List.mem_cons_of_mem _ he')) hrest
    have he := htick e List.mem_cons_self
    cases e with
    | advanceTime delta =>
      obtain rfl := Option.some.inj hs
      rw [hrest, ticks]
      simp only [advanced, Int.add_assoc]
    | _ => exact absurd he id

/-- A first event that is not a tick, with the ticks before it. -/
theorem split_calls {e : MissionTimeEvent} {rest : List MissionTimeEvent} (h : calls es = e :: rest) :
    ∃ a b, es = a ++ e :: b ∧ calls a = [] ∧ calls b = rest := by
  obtain ⟨a, b, rfl, ha, -, hb⟩ := List.filter_eq_cons_iff.1 h
  refine ⟨a, b, rfl, ?_, hb⟩
  rw [calls, List.filter_eq_nil_iff]
  exact ha

theorem calls_append (es es' : List MissionTimeEvent) : calls (es ++ es') = calls es ++ calls es' :=
  List.filter_append _ _

theorem calls_cons {e : MissionTimeEvent} (he : ¬ IsTick e) (es : List MissionTimeEvent) :
    calls (e :: es) = e :: calls es :=
  List.filter_cons_of_pos (by simpa using he)

/-- What is not a tick is one of the calls. -/
theorem mem_calls {e : MissionTimeEvent} (he : ¬ IsTick e) (hmem : e ∈ es) : e ∈ calls es :=
  List.mem_filter.2 ⟨hmem, by simpa using he⟩

/-! ### One call of `CorrectTime` -/

/-- The events are those of one call, whatever the ticks: it returns before it has set the
clock, or it sets the clock and notifies the tasks. -/
def OneCall (es : List MissionTimeEvent) : Prop :=
  calls es = [.correctTime, .correctTimeReturns] ∨ calls es = [.correctTime, .determineFails] ∨
    ∃ externalTime saved,
      calls es = [.correctTime, .setCorrectedTime externalTime saved, .notifyTimeChanged]

section Call

variable {a b c d : List MissionTimeEvent} {externalTime : ℤ} {saved : Bool}

/-- **Up to the notification**: the clock shows the corrected time and the ticks behind it. -/
theorem run_to_notify (hidle : s.correctTime = .idle) (ha : calls a = []) (hb : calls b = [])
    (hc : calls c = [])
    (h : Run step always s (a ++ .correctTime :: (b ++ .setCorrectedTime externalTime saved :: c)) u) :
    u.currentTime = TimeTask.performTimeCorrection (s.currentTime + ticks a) externalTime s.timeState
        s.configuration + ticks c ∧
      u.correctTime = .notify (TimeTask.performTimeCorrection (s.currentTime + ticks a) externalTime
        s.timeState s.configuration - (s.currentTime + ticks a)) := by
  obtain ⟨s1, h1, hrest⟩ := h.split
  obtain ⟨s2, -, hread, hrest⟩ := hrest.uncons
  obtain ⟨s3, h3, hrest⟩ := hrest.split
  obtain ⟨s4, -, hset, h4⟩ := hrest.uncons
  have e1 : s1 = s.advanced (ticks a) := run_ticks (isTick_of_calls_nil ha) h1
  have e2 : s2 = { s1 with correctTime := .determine s1.currentTime } := by
    have hpc : s1.correctTime = .idle := by
      rw [e1]
      exact hidle
    rw [step, if_pos hpc] at hread
    exact (Option.some.inj hread).symm
  have e3 : s3 = s2.advanced (ticks b) := run_ticks (isTick_of_calls_nil hb) h3
  have hpc : s3.correctTime = .determine (s.currentTime + ticks a) := by
    rw [e3, e2, e1]
    rfl
  have hstate : s3.timeState = s.timeState ∧ s3.configuration = s.configuration := by
    rw [e3, e2, e1]
    exact ⟨rfl, rfl⟩
  have e4 : u = s4.advanced (ticks c) := run_ticks (isTick_of_calls_nil hc) h4
  simp only [step, hpc, hstate.1, hstate.2] at hset
  rw [e4, ← Option.some.inj hset]
  exact ⟨rfl, rfl⟩

/-- **The whole call.** -/
theorem run_corrected (hidle : s.correctTime = .idle) (ha : calls a = []) (hb : calls b = [])
    (hc : calls c = []) (hd : calls d = [])
    (h : Run step always s (a ++ .correctTime :: (b ++ .setCorrectedTime externalTime saved ::
      (c ++ .notifyTimeChanged :: d))) t) :
    t.currentTime = TimeTask.performTimeCorrection (s.currentTime + ticks a) externalTime s.timeState
      s.configuration + ticks c + ticks d := by
  have hsplit : a ++ .correctTime :: (b ++ .setCorrectedTime externalTime saved ::
      (c ++ .notifyTimeChanged :: d)) =
        (a ++ .correctTime :: (b ++ .setCorrectedTime externalTime saved :: c)) ++ .notifyTimeChanged :: d := by
    simp
  rw [hsplit] at h
  obtain ⟨u, hu, hrest⟩ := h.split
  obtain ⟨v, -, hnotify, hv⟩ := hrest.uncons
  obtain ⟨hclock, hpc⟩ := run_to_notify hidle ha hb hc hu
  have et : t = v.advanced (ticks d) := run_ticks (isTick_of_calls_nil hd) hv
  simp only [step, hpc] at hnotify
  rw [et, ← Option.some.inj hnotify, ← hclock]
  rfl

/-- A call that sets nothing leaves the clock to the ticks. -/
theorem run_uncorrected {e : MissionTimeEvent} (he : e = .correctTimeReturns ∨ e = .determineFails)
    (ha : calls a = []) (hb : calls b = []) (hc : calls c = [])
    (h : Run step always s (a ++ .correctTime :: (b ++ e :: c)) t) :
    t.currentTime = s.currentTime + ticks a + ticks b + ticks c := by
  obtain ⟨s1, h1, hrest⟩ := h.split
  obtain ⟨s2, -, hread, hrest⟩ := hrest.uncons
  obtain ⟨s3, h3, hrest⟩ := hrest.split
  obtain ⟨s4, -, hend, h4⟩ := hrest.uncons
  have e1 : s1 = s.advanced (ticks a) := run_ticks (isTick_of_calls_nil ha) h1
  have e2 : s2.currentTime = s1.currentTime := by
    rw [step] at hread
    split at hread
    · rw [← Option.some.inj hread]
    · exact absurd hread (by simp)
  have e3 : s3 = s2.advanced (ticks b) := run_ticks (isTick_of_calls_nil hb) h3
  have e4 : s4.currentTime = s3.currentTime := by
    rcases he with rfl | rfl
    · rw [step] at hend
      split at hend
      · rw [← Option.some.inj hend]
      · exact absurd hend (by simp)
    · rw [step] at hend
      split at hend
      · rw [← Option.some.inj hend]
      · exact absurd hend (by simp)
  have e5 : t = s4.advanced (ticks c) := run_ticks (isTick_of_calls_nil hc) h4
  rw [e5]
  show s4.currentTime + ticks c = _
  rw [e4, e3]
  show s2.currentTime + ticks b + ticks c = _
  rw [e2, e1]
  rfl

theorem ticks_call {e : MissionTimeEvent} (he : ¬ IsTick e) : ticks (e :: es) = ticks es := by
  cases e with
  | advanceTime delta => exact absurd trivial he
  | _ => rfl

end Call

/-! ### When no tick is lost -/

/-- The ticks around a call from `s` to `t` are kept: a clock that was set shows the time
corrected for some instant before that and the ticks behind this instant, a clock that was
not set shows all ticks, and the tasks are notified of the rest of the change. -/
structure TicksKept (s : MissionTime) (es : List MissionTimeEvent) (t : MissionTime) : Prop where
  corrected : ∀ externalTime saved, .setCorrectedTime externalTime saved ∈ es →
    ∃ es₁ es₂ u, es = es₁ ++ es₂ ∧ .setCorrectedTime externalTime saved ∈ es₂ ∧
      Run step always s es₁ u ∧
      t.currentTime =
        TimeTask.performTimeCorrection u.currentTime externalTime s.timeState s.configuration + ticks es₂
  uncorrected : (∀ externalTime saved, .setCorrectedTime externalTime saved ∉ es) →
    t.currentTime = s.currentTime + ticks es
  notified : ∀ es₁ es₂ u amount, es = es₁ ++ .notifyTimeChanged :: es₂ → Run step always s es₁ u →
    u.correctTime = .notify amount → amount = t.currentTime - s.currentTime - ticks es

/-- The clock has not ticked between being read and being set. -/
def NoTickBetween (es : List MissionTimeEvent) : Prop :=
  ∀ a b c externalTime saved,
    es = a ++ .correctTime :: (b ++ .setCorrectedTime externalTime saved :: c) → ticks b = 0

/-- The ticks of a call that sets the clock, by where they fall. -/
theorem ticks_corrected (a b c d : List MissionTimeEvent) (externalTime : ℤ) (saved : Bool) :
    ticks (a ++ .correctTime :: (b ++ .setCorrectedTime externalTime saved ::
      (c ++ .notifyTimeChanged :: d))) = ticks a + ticks b + ticks c + ticks d := by
  simp only [ticks_append, ticks]
  omega

/-- A call that has returned early loses nothing. -/
theorem ticksKept_of_uncorrected {e : MissionTimeEvent} (he : e = .correctTimeReturns ∨ e = .determineFails)
    (hcalls : calls es = [.correctTime, e]) (h : Run step always s es t) :
    TicksKept s es t ∧ NoTickBetween es := by
  have hetick : ¬ IsTick e := by
    rcases he with rfl | rfl
    · exact id
    · exact id
  have hset (externalTime : ℤ) (saved : Bool) : .setCorrectedTime externalTime saved ∉ es := by
    intro hmem
    have hcall := mem_calls (by exact id) hmem
    rw [hcalls] at hcall
    rcases he with rfl | rfl
    · simp at hcall
    · simp at hcall
  have hnotify : .notifyTimeChanged ∉ es := by
    intro hmem
    have hcall := mem_calls (by exact id) hmem
    rw [hcalls] at hcall
    rcases he with rfl | rfl
    · simp at hcall
    · simp at hcall
  refine ⟨⟨?_, ?_, ?_⟩, ?_⟩
  · intro externalTime saved hmem
    exact absurd hmem (hset externalTime saved)
  · intro _
    obtain ⟨a, rest, rfl, ha, hrest⟩ := split_calls hcalls
    obtain ⟨b, c, rfl, hb, hc⟩ := split_calls hrest
    rw [run_uncorrected he ha hb hc h, ticks_append, ticks_call (e := .correctTime) id, ticks_append,
      ticks_call hetick]
    omega
  · intro es₁ es₂ u amount heq
    exact absurd (heq ▸ List.mem_append_right _ List.mem_cons_self) hnotify
  · intro a b c externalTime saved heq
    exact absurd (heq ▸ List.mem_append_right _ (List.mem_cons_of_mem _
      (List.mem_append_right _ List.mem_cons_self))) (hset externalTime saved)

section Corrected

variable {externalTime : ℤ} {saved : Bool}

/-- The events of a call around the setting of the clock. -/
theorem split_at_set {a b c : List MissionTimeEvent} {x : ℤ} {v : Bool}
    (hcalls : calls (a ++ .correctTime :: (b ++ .setCorrectedTime x v :: c)) =
      [.correctTime, .setCorrectedTime externalTime saved, .notifyTimeChanged]) :
    calls a = [] ∧ calls b = [] ∧ (x = externalTime ∧ v = saved) ∧
      ∃ c₁ d, c = c₁ ++ .notifyTimeChanged :: d ∧ calls c₁ = [] ∧ calls d = [] := by
  have hread : ¬ IsTick .correctTime := id
  have hset : ¬ IsTick (.setCorrectedTime x v) := id
  rw [calls_append, calls_cons hread, calls_append, calls_cons hset] at hcalls
  -- only one of the three events is a reading of the clock, and only one sets it
  have ha : calls a = [] := by
    cases ha : calls a with
    | nil => rfl
    | cons e rest =>
      rw [ha, List.cons_append, List.cons_eq_cons] at hcalls
      have hmem : MissionTimeEvent.correctTime ∈
          [MissionTimeEvent.setCorrectedTime externalTime saved, .notifyTimeChanged] := by
        rw [← hcalls.2]
        exact List.mem_append_right _ List.mem_cons_self
      simp at hmem
  rw [ha, List.nil_append, List.cons_eq_cons] at hcalls
  have hrest := hcalls.2
  have hb : calls b = [] := by
    cases hb : calls b with
    | nil => rfl
    | cons e rest =>
      rw [hb, List.cons_append, List.cons_eq_cons] at hrest
      have hmem : MissionTimeEvent.setCorrectedTime x v ∈ [MissionTimeEvent.notifyTimeChanged] := by
        rw [← hrest.2]
        exact List.mem_append_right _ List.mem_cons_self
      simp at hmem
  rw [hb, List.nil_append, List.cons_eq_cons] at hrest
  obtain ⟨c₁, d, rfl, hc, hd⟩ := split_calls hrest.2
  injection hrest.1 with hx hv
  exact ⟨ha, hb, ⟨hx, hv⟩, c₁, d, rfl, hc, hd⟩

/-- The events of a call before and behind the notification. -/
theorem split_at_notify {es₁ es₂ : List MissionTimeEvent}
    (hcalls : calls (es₁ ++ .notifyTimeChanged :: es₂) =
      [.correctTime, .setCorrectedTime externalTime saved, .notifyTimeChanged]) :
    calls es₁ = [.correctTime, .setCorrectedTime externalTime saved] ∧ calls es₂ = [] := by
  have hnotify : ¬ IsTick .notifyTimeChanged := id
  rw [calls_append, calls_cons hnotify] at hcalls
  rcases hfront : calls es₁ with _ | ⟨x, _ | ⟨y, _ | ⟨z, rest⟩⟩⟩
  · simp [hfront] at hcalls
  · simp [hfront] at hcalls
  · rw [hfront] at hcalls
    simpa [and_assoc] using hcalls
  · simp [hfront] at hcalls

/-- **A call that sets the clock** keeps the ticks exactly if none comes between reading and
setting. -/
theorem ticksKept_corrected (hidle : s.correctTime = .idle)
    (hcalls : calls es = [.correctTime, .setCorrectedTime externalTime saved, .notifyTimeChanged])
    (h : Run step always s es t) : TicksKept s es t ↔ NoTickBetween es := by
  constructor
  · intro hkept a b c x v hes
    subst hes
    obtain ⟨ha, hb, ⟨rfl, rfl⟩, c₁, d, rfl, hc, hd⟩ := split_at_set hcalls
    have hclock := run_corrected hidle ha hb hc hd h
    have hsplit : a ++ .correctTime :: (b ++ .setCorrectedTime x v :: (c₁ ++ .notifyTimeChanged :: d)) =
        (a ++ .correctTime :: (b ++ .setCorrectedTime x v :: c₁)) ++ .notifyTimeChanged :: d := by
      simp
    obtain ⟨u, hu, -⟩ := Run.split (hsplit ▸ h)
    have hamount := hkept.notified _ _ u _ hsplit hu (run_to_notify hidle ha hb hc hu).2
    rw [hclock, ticks_corrected] at hamount
    omega
  · intro hnone
    obtain ⟨a, rest, rfl, ha, hrest⟩ := split_calls hcalls
    obtain ⟨b, rest, rfl, hb, hrest⟩ := split_calls hrest
    obtain ⟨c, d, rfl, hc, hd⟩ := split_calls hrest
    have hclock := run_corrected hidle ha hb hc hd h
    have hzero := hnone a b _ externalTime saved rfl
    refine ⟨?_, ?_, ?_⟩
    · intro x v hmem
      have hcall := mem_calls (by exact id) hmem
      rw [hcalls] at hcall
      obtain ⟨rfl, rfl⟩ : x = externalTime ∧ v = saved := by simpa using hcall
      obtain ⟨u, hu, -⟩ := h.split
      have eu : u = s.advanced (ticks a) := run_ticks (isTick_of_calls_nil ha) hu
      refine ⟨a, _, u, rfl, ?_, hu, ?_⟩
      · exact List.mem_cons_of_mem _ (List.mem_append_right _ List.mem_cons_self)
      · rw [hclock, eu, ticks_call (e := .correctTime) id, ticks_append, hzero,
          ticks_call (e := .setCorrectedTime x v) id, ticks_append, ticks_call (e := .notifyTimeChanged) id]
        show _ = TimeTask.performTimeCorrection (s.currentTime + ticks a) _ _ _ + _
        omega
    · intro hno
      exact absurd (List.mem_append_right _ (List.mem_cons_of_mem _
        (List.mem_append_right _ List.mem_cons_self))) (hno externalTime saved)
    · intro es₁ es₂ u amount hes hu hpc
      -- the run up to the notification is one with a reading and a setting of its own
      obtain ⟨hcalls₁, hes₂⟩ := split_at_notify (hes ▸ hcalls)
      obtain ⟨a₁, rest, rfl, ha₁, hrest⟩ := split_calls hcalls₁
      obtain ⟨b₁, c₁, rfl, hb₁, hc₁⟩ := split_calls hrest
      have hzero₁ := hnone a₁ b₁ (c₁ ++ .notifyTimeChanged :: es₂) externalTime saved (by rw [hes]; simp)
      obtain ⟨-, hpc₁⟩ := run_to_notify hidle ha₁ hb₁ hc₁ hu
      have hsame : a₁ ++ .correctTime :: (b₁ ++ .setCorrectedTime externalTime saved ::
          (c₁ ++ .notifyTimeChanged :: es₂)) =
            a ++ .correctTime :: (b ++ .setCorrectedTime externalTime saved :: (c ++ .notifyTimeChanged :: d)) := by
        rw [hes]
        simp
      have hclock₁ := run_corrected hidle ha₁ hb₁ hc₁ hes₂ (hsame ▸ h)
      rw [hpc₁] at hpc
      injection hpc with hamount
      rw [hclock₁, ← hsame, ticks_corrected, hzero₁, ← hamount]
      omega

end Corrected

/-- **When no tick is lost**, for one call of `CorrectTime` and any ticks. -/
theorem ticksKept_iff (hidle : s.correctTime = .idle) (hcall : OneCall es) (h : Run step always s es t) :
    TicksKept s es t ↔ NoTickBetween es := by
  rcases hcall with hcalls | hcalls | ⟨externalTime, saved, hcalls⟩
  · exact iff_of_true (ticksKept_of_uncorrected (.inl rfl) hcalls h).1
      (ticksKept_of_uncorrected (.inl rfl) hcalls h).2
  · exact iff_of_true (ticksKept_of_uncorrected (.inr rfl) hcalls h).1
      (ticksKept_of_uncorrected (.inr rfl) hcalls h).2
  · exact ticksKept_corrected hidle hcalls h

/-- 1000 s after start-up, with both clocks right. -/
def clocksAgree : MissionTime :=
  init 1000000 ⟨0, 0⟩ ⟨1, 1⟩ ⟨0, 0, 0, none, none, none, 0⟩

/-- A tick of 100 ms before the clock is read and one behind its setting. -/
theorem clocksAgree_kept :
    ∃ t, Run step always clocksAgree
        [.advanceTime 100, .correctTime, .setCorrectedTime 1000100 true, .advanceTime 100, .notifyTimeChanged] t ∧
      (TicksKept clocksAgree
          [.advanceTime 100, .correctTime, .setCorrectedTime 1000100 true, .advanceTime 100, .notifyTimeChanged] t ↔
        NoTickBetween
          [.advanceTime 100, .correctTime, .setCorrectedTime 1000100 true, .advanceTime 100, .notifyTimeChanged]) := by
  refine ⟨_, run_of_exec _ rfl, ?_⟩
  exact ticksKept_iff rfl (.inr (.inr ⟨1000100, true, rfl⟩)) (run_of_exec _ rfl)

/-- The same tick between reading and setting: the clock is set back, and nobody is told. -/
theorem tick_lost :
    ∃ t, Run step always clocksAgree
        [.correctTime, .advanceTime 100, .setCorrectedTime 1000000 true, .notifyTimeChanged] t ∧
      OneCall [.correctTime, .advanceTime 100, .setCorrectedTime 1000000 true, .notifyTimeChanged] ∧
      t.currentTime = 1000000 ∧
      ¬ TicksKept clocksAgree
        [.correctTime, .advanceTime 100, .setCorrectedTime 1000000 true, .notifyTimeChanged] t := by
  refine ⟨_, run_of_exec _ rfl, .inr (.inr ⟨1000000, true, rfl⟩), by decide, ?_⟩
  intro hkept
  have hprefix : Run step always clocksAgree
      [.correctTime, .advanceTime 100, .setCorrectedTime 1000000 true] _ := run_of_exec _ rfl
  have hamount := hkept.notified [.correctTime, .advanceTime 100, .setCorrectedTime 1000000 true] [] _ 0 rfl
    hprefix (by decide)
  exact absurd hamount (by decide)

end MissionTime

end PWSat2OBC
