import PWSat2OBC.Lib.Runs
import PWSat2OBC.Spec.AdcsCoordinator

/-!
# ADCS activity and modes

A processor is enabled from a successful `Enable` until a successful `Disable`. The loop
runs the processor of the current mode only, and only while it is enabled (`Consistent`).

When `Disable` of the previous mode fails, the coordinator goes to the mode Stopped and
forgets that the processor is still enabled, so the rest holds where `Disable` succeeds
(`Exclusive`): at most the processor of the current mode is enabled, and none from a
Disable request until a Stop request. A mode is entered unblocked if it is not blocked
while its processor is being enabled.
-/

namespace PWSat2OBC

namespace AdcsCoordinator

variable {s t : AdcsCoordinator} {e : AdcsEvent} {es : List AdcsEvent} {m : AdcsMode} {uptime : ℤ}

/-- Enabled successfully, and not disabled successfully since. -/
def isEnabled (s : AdcsCoordinator) (m : AdcsMode) : Bool :=
  Runs.since (· == .enable m true) (· == .disable m true) s.calls

/-! ## What a step does -/

/-- `switched` keeps what the modes are about. -/
@[simp] theorem switched_currentMode (result : AdcsMode × Bool) :
    (s.switched result uptime).currentMode = s.currentMode := rfl

@[simp] theorem switched_calls (result : AdcsMode × Bool) :
    (s.switched result uptime).calls = s.calls := rfl

@[simp] theorem switched_pc (result : AdcsMode × Bool) : (s.switched result uptime).pc = .turn := rfl

@[simp] theorem switched_mode (result : AdcsMode × Bool) :
    (s.switched result uptime).mode = result.1 := rfl

@[simp] theorem switched_adcsMasks (result : AdcsMode × Bool) :
    (s.switched result uptime).adcsMasks = s.adcsMasks := rfl

/-- The previous mode is left, or the request ends here. -/
theorem leaveMode_cases (s : AdcsCoordinator) (requestedMode : AdcsMode) (disabled : Bool) :
    (∃ changed, s.leaveMode requestedMode disabled = (s, some (s.currentMode, changed)) ∧
        (requestedMode = s.currentMode ∨ s.currentMode = .disabled ∧ requestedMode ≠ .stopped)) ∨
      requestedMode ≠ s.currentMode ∧
        ((s.currentMode.isActive = false ∧ (s.currentMode = .disabled → requestedMode = .stopped) ∧
            s.leaveMode requestedMode disabled = (s, none)) ∨
          s.currentMode.isActive = true ∧ s.leaveMode requestedMode disabled =
            ({ s with
                currentMode := .stopped
                calls := s.calls ++ [.disable s.currentMode disabled] },
              if disabled then none else some (.stopped, true))) := by
  by_cases h : s.currentMode = requestedMode
  · exact Or.inl ⟨false, by rw [leaveMode, if_pos h, h], Or.inl h.symm⟩
  rw [leaveMode, if_neg h]
  cases hmode : s.currentMode with
  | disabled =>
    rw [hmode] at h
    by_cases hr : requestedMode = .stopped
    · exact Or.inr ⟨Ne.symm h, Or.inl ⟨rfl, fun _ => hr, if_neg (not_not.2 hr)⟩⟩
    · exact Or.inl ⟨false, if_pos hr, Or.inr ⟨rfl, hr⟩⟩
  | stopped =>
    rw [hmode] at h
    exact Or.inr ⟨Ne.symm h, Or.inl ⟨rfl, fun hd => absurd hd (by decide), rfl⟩⟩
  | builtinDetumbling | experimentalDetumbling | experimentalSunpointing =>
    rw [hmode] at h
    refine Or.inr ⟨Ne.symm h, Or.inr ⟨rfl, ?_⟩⟩
    cases disabled <;> rfl

/-- The requested mode is entered, refused, or its processor is about to be enabled. -/
theorem enterMode_cases (s : AdcsCoordinator) (previousMode requestedMode : AdcsMode) (uptime : ℤ) :
    (requestedMode.isActive = true ∧ s.isModeBlocked requestedMode = true ∧
        s.enterMode previousMode requestedMode uptime =
          s.switched (s.currentMode, previousMode ≠ s.currentMode) uptime) ∨
      (requestedMode.isActive = true ∧ s.isModeBlocked requestedMode = false ∧
        s.enterMode previousMode requestedMode uptime =
          { s with pc := .enabling previousMode requestedMode }) ∨
      requestedMode.isActive = false ∧
        s.enterMode previousMode requestedMode uptime =
          { s with currentMode := requestedMode }.switched (requestedMode, true) uptime := by
  cases requestedMode with
  | disabled | stopped => exact Or.inr (Or.inr ⟨rfl, rfl⟩)
  | builtinDetumbling | experimentalDetumbling | experimentalSunpointing =>
    unfold enterMode
    dsimp only
    split
    · exact Or.inl ⟨rfl, ‹_›, rfl⟩
    · exact Or.inr (Or.inl ⟨rfl, Bool.eq_false_iff.2 ‹_›, rfl⟩)

/-- The coordinator after the previous mode was left. -/
def Left (s : AdcsCoordinator) (disabled : Bool) (s' : AdcsCoordinator) : Prop :=
  s.currentMode.isActive = false ∧ s' = s ∨
    s.currentMode.isActive = true ∧
      s' = { s with currentMode := .stopped, calls := s.calls ++ [.disable s.currentMode disabled] }

/-- **A request**: it ends at once, `Disable` fails, it is refused, the processor is about to
be enabled, or the coordinator is stopped or disabled. -/
theorem popped_cases {newMode : AdcsMode} {disabled : Bool}
    (h : s.step (.popped newMode disabled uptime) = some t) :
    s.pc = .pop ∧
      ((∃ changed, t = s.switched (s.currentMode, changed) uptime ∧
          (newMode = s.currentMode ∨ s.currentMode = .disabled ∧ newMode ≠ .stopped)) ∨
        ∃ s', newMode ≠ s.currentMode ∧ s.Left disabled s' ∧
          (s.currentMode = .disabled → newMode = .stopped) ∧
          ((disabled = false ∧ s.currentMode.isActive = true ∧
              t = s'.switched (.stopped, true) uptime) ∨
            (newMode.isActive = true ∧ ∃ changed, t = s'.switched (s'.currentMode, changed) uptime) ∨
            (newMode.isActive = true ∧ s'.isModeBlocked newMode = false ∧
              ∃ previousMode, t = { s' with pc := .enabling previousMode newMode }) ∨
            newMode.isActive = false ∧
              t = { s' with currentMode := newMode }.switched (newMode, true) uptime)) := by
  rw [step] at h
  split at h
  swap
  · exact absurd h (by simp)
  refine ⟨‹_›, ?_⟩
  have henter : ∀ s' : AdcsCoordinator, some (s'.enterMode s.currentMode newMode uptime) = some t →
      (newMode.isActive = true ∧ ∃ changed, t = s'.switched (s'.currentMode, changed) uptime) ∨
        (newMode.isActive = true ∧ s'.isModeBlocked newMode = false ∧
          ∃ previousMode, t = { s' with pc := .enabling previousMode newMode }) ∨
        newMode.isActive = false ∧
          t = { s' with currentMode := newMode }.switched (newMode, true) uptime := by
    intro s' h
    rw [← Option.some.inj h]
    rcases s'.enterMode_cases s.currentMode newMode uptime with
      ⟨ha, -, heq⟩ | ⟨ha, hb, heq⟩ | ⟨ha, heq⟩
    · exact Or.inl ⟨ha, _, heq⟩
    · exact Or.inr (Or.inl ⟨ha, hb, _, heq⟩)
    · exact Or.inr (Or.inr ⟨ha, heq⟩)
  rcases s.leaveMode_cases newMode disabled with
    ⟨changed, hleave, hwhy⟩ | ⟨hne, ⟨hactive, hstop, hleave⟩ | ⟨hactive, hleave⟩⟩
  · rw [hleave] at h
    exact Or.inl ⟨changed, (Option.some.inj h).symm, hwhy⟩
  · rw [hleave] at h
    exact Or.inr ⟨s, hne, Or.inl ⟨hactive, rfl⟩, hstop, Or.inr (henter s h)⟩
  · rw [hleave] at h
    have hstop : s.currentMode = .disabled → newMode = .stopped := by
      intro hd
      rw [hd] at hactive
      exact absurd hactive (by decide)
    refine Or.inr ⟨_, hne, Or.inr ⟨hactive, rfl⟩, hstop, ?_⟩
    cases disabled with
    | false => exact Or.inl ⟨rfl, hactive, (Option.some.inj h).symm⟩
    | true => exact Or.inr (henter _ h)

/-- The time-out of the queue. -/
theorem timedOut_cases (h : s.step .timedOut = some t) : s.pc = .pop ∧ t = { s with pc := .turn } := by
  rw [step] at h
  split at h
  · rename_i hpc
    exact ⟨hpc.1, (Option.some.inj h).symm⟩
  · exact absurd h (by simp)

/-- `Process` is called, or only the time-out is set. -/
theorem turn_cases {now processed later wait : ℤ} (h : s.step (.turn now processed later wait) = some t) :
    s.pc = .turn ∧ ∃ timeout nextIterationAt calls,
      t = { s with timeout, nextIterationAt, pc := .pop, calls } ∧
        (calls = s.calls ∨ s.mode.isActive = true ∧ calls = s.calls ++ [.process s.mode]) := by
  rw [step] at h
  split at h
  swap
  · exact absurd h (by simp)
  refine ⟨‹_›, ?_⟩
  rw [← Option.some.inj h]
  unfold turn
  split
  · exact ⟨_, _, _, rfl, Or.inl rfl⟩
  · exact ⟨_, _, _, rfl, Or.inl rfl⟩
  all_goals
    rename_i hmode
    split_ifs
    · exact ⟨_, _, _, rfl, Or.inr ⟨by rw [hmode]; rfl, rfl⟩⟩
    · exact ⟨_, _, _, rfl, Or.inl rfl⟩

/-- `Enable` has returned. -/
theorem enabled_cases {succeeded : Bool} (h : s.step (.enabled succeeded uptime) = some t) :
    ∃ previousMode requestedMode changed, s.pc = .enabling previousMode requestedMode ∧
      t = { s with
          currentMode := if succeeded then requestedMode else s.currentMode
          calls := s.calls ++ [AdcsCall.enable requestedMode succeeded] }.switched
        (if succeeded then requestedMode else s.currentMode, changed) uptime := by
  rw [step] at h
  split at h
  · exact ⟨_, _, _, ‹_›, (Option.some.inj h).symm⟩
  · exact absurd h (by simp)

@[simp] theorem setBlockMode_currentMode (m : AdcsMode) (isBlocked : Bool) :
    (s.setBlockMode m isBlocked).currentMode = s.currentMode := by
  unfold setBlockMode
  dsimp only
  split <;> rfl

@[simp] theorem setBlockMode_calls (m : AdcsMode) (isBlocked : Bool) :
    (s.setBlockMode m isBlocked).calls = s.calls := by
  unfold setBlockMode
  dsimp only
  split <;> rfl

@[simp] theorem setBlockMode_mode (m : AdcsMode) (isBlocked : Bool) :
    (s.setBlockMode m isBlocked).mode = s.mode := by
  unfold setBlockMode
  dsimp only
  split <;> rfl

@[simp] theorem setBlockMode_pc (m : AdcsMode) (isBlocked : Bool) :
    (s.setBlockMode m isBlocked).pc = s.pc := by
  unfold setBlockMode
  dsimp only
  split <;> rfl

/-! ## Enabled processors -/

theorem isEnabled_of_calls (h : t.calls = s.calls) : t.isEnabled m = s.isEnabled m := by
  rw [isEnabled, isEnabled, h]

theorem isEnabled_enable {m' : AdcsMode} (h : t.calls = s.calls ++ [.enable m' true]) :
    t.isEnabled m = (m' == m || s.isEnabled m) := by
  rw [isEnabled, isEnabled, h, Runs.since_snoc]
  by_cases hm : m' = m
  · simp [hm]
  · simp [hm]

theorem isEnabled_enable_failed {m' : AdcsMode} (h : t.calls = s.calls ++ [.enable m' false]) :
    t.isEnabled m = s.isEnabled m := by
  rw [isEnabled, isEnabled, h, Runs.since_snoc]
  simp

theorem isEnabled_disable {m' : AdcsMode} (h : t.calls = s.calls ++ [.disable m' true]) :
    t.isEnabled m = (m' != m && s.isEnabled m) := by
  rw [isEnabled, isEnabled, h, Runs.since_snoc]
  by_cases hm : m' = m
  · simp [hm]
  · simp [hm]

theorem isEnabled_process {m' : AdcsMode} (h : t.calls = s.calls ++ [.process m']) :
    t.isEnabled m = s.isEnabled m := by
  rw [isEnabled, isEnabled, h, Runs.since_snoc]
  simp

/-! ## The loop runs the current mode -/

/-- Between requests `mode` is the current mode; the processor of the current mode is
enabled; while a processor is being enabled the coordinator is stopped. -/
structure Consistent (s : AdcsCoordinator) : Prop where
  mode : (∀ previousMode requestedMode, s.pc ≠ .enabling previousMode requestedMode) →
    s.mode = s.currentMode
  enabled : s.currentMode.isActive = true → s.isEnabled s.currentMode = true
  enabling : ∀ previousMode requestedMode, s.pc = .enabling previousMode requestedMode →
    s.currentMode = .stopped ∧ requestedMode.isActive = true

theorem consistent_init (uptime : ℤ) : Consistent (init uptime) :=
  ⟨fun _ => rfl, fun h => absurd h Bool.false_ne_true, fun _ _ h => absurd h (by simp [init])⟩

/-- Behind `SwitchMode`. -/
theorem Consistent.switched {changed : Bool}
    (h : s.currentMode.isActive = true → s.isEnabled s.currentMode = true) :
    Consistent (s.switched (s.currentMode, changed) uptime) where
  mode := fun _ => rfl
  enabled := h
  enabling := fun _ _ hpc => absurd hpc (by simp)

theorem Consistent.step (h : Consistent s) (hs : s.step e = some t) : Consistent t := by
  cases e with
  | setBlockMode m isBlocked =>
    obtain rfl := Option.some.inj hs
    refine ⟨fun hpc => ?_, fun hactive => ?_, fun p r hpc => ?_⟩
    · rw [setBlockMode_pc] at hpc
      rw [setBlockMode_mode, setBlockMode_currentMode]
      exact h.mode hpc
    · rw [setBlockMode_currentMode] at hactive ⊢
      rw [isEnabled_of_calls (setBlockMode_calls m isBlocked)]
      exact h.enabled hactive
    · rw [setBlockMode_pc] at hpc
      rw [setBlockMode_currentMode]
      exact h.enabling p r hpc
  | popped newMode disabled uptime =>
    obtain ⟨hpc, ⟨changed, rfl, -⟩ | ⟨s', -, hleft, hstop, hrest⟩⟩ := popped_cases hs
    · exact Consistent.switched h.enabled
    have hinactive : s'.currentMode.isActive = false := by
      rcases hleft with ⟨hi, rfl⟩ | ⟨-, rfl⟩
      · exact hi
      · rfl
    have hvacuous : ∀ {q : Prop}, s'.currentMode.isActive = true → q := fun ha =>
      absurd (hinactive.symm.trans ha) Bool.false_ne_true
    rcases hrest with ⟨-, hactive, rfl⟩ | ⟨-, changed, rfl⟩ | ⟨hactive, -, p, rfl⟩ | ⟨hactive, rfl⟩
    · -- `Disable` failed
      obtain ⟨-, rfl⟩ := hleft.resolve_left fun hl => absurd (hl.1.symm.trans hactive) Bool.false_ne_true
      exact ⟨fun _ => rfl, fun ha => absurd ha (by simp [AdcsMode.isActive, AdcsMode.num]),
        fun _ _ hpc => absurd hpc (by simp)⟩
    · exact Consistent.switched hvacuous
    · refine ⟨fun hne => absurd rfl (hne p newMode), hvacuous, fun p' r hpc' => ?_⟩
      cases hpc'
      refine ⟨?_, hactive⟩
      -- from Disabled only Stopped is reached
      rcases hleft with ⟨hi, rfl⟩ | ⟨-, rfl⟩
      · cases hm : s'.currentMode with
        | stopped => rfl
        | disabled =>
          rw [hstop hm] at hactive
          exact absurd hactive (by decide)
        | _ =>
          rw [hm] at hi
          exact absurd hi (by decide)
      · rfl
    · exact ⟨fun _ => rfl, fun ha => absurd (hactive.symm.trans ha) Bool.false_ne_true,
        fun _ _ hpc => absurd hpc (by simp)⟩
  | timedOut =>
    obtain ⟨hpc, rfl⟩ := timedOut_cases hs
    exact ⟨fun _ => h.mode fun p r heq => absurd (hpc.symm.trans heq) (by simp), h.enabled,
      fun _ _ heq => absurd heq (by simp)⟩
  | enabled succeeded uptime =>
    obtain ⟨p, r, changed, hpc, rfl⟩ := enabled_cases hs
    obtain ⟨hstopped, hactive⟩ := h.enabling p r hpc
    cases succeeded with
    | true =>
      refine Consistent.switched (s := { s with currentMode := r, calls := _ }) fun _ => ?_
      rw [isEnabled_enable (s := s) rfl]
      simp
    | false =>
      refine Consistent.switched (s := { s with currentMode := s.currentMode, calls := _ }) fun ha => ?_
      rw [hstopped] at ha
      exact absurd ha (by decide)
  | turn now processed later wait =>
    obtain ⟨hpc, timeout, next, calls, rfl, hcalls⟩ := turn_cases hs
    refine ⟨fun _ => h.mode fun p r heq => absurd (hpc.symm.trans heq) (by simp), fun ha => ?_,
      fun _ _ heq => absurd heq (by simp)⟩
    rcases hcalls with rfl | ⟨-, rfl⟩
    · exact h.enabled ha
    · rw [isEnabled_process (s := s) rfl]
      exact h.enabled ha

theorem consistent_of_run (h : Runs.Run AdcsCoordinator.step Runs.always (init uptime) es s) :
    Consistent s :=
  h.inv (consistent_init uptime) fun _ _ _ h _ hs => h.step hs

/-- `Process` is only called on the enabled processor of the current mode. -/
def RunsCurrent (s : AdcsCoordinator) : Prop :=
  ∀ e t m, s.step e = some t → t.calls = s.calls ++ [.process m] →
    m = s.currentMode ∧ s.isEnabled m = true

theorem calls_of_left {disabled : Bool} {s' : AdcsCoordinator} (h : s.Left disabled s') :
    s'.calls = s.calls ∨ s'.calls = s.calls ++ [.disable s.currentMode disabled] := by
  rcases h with ⟨-, rfl⟩ | ⟨-, rfl⟩
  · exact Or.inl rfl
  · exact Or.inr rfl

/-- The calls of one step. -/
theorem calls_step (h : Consistent s) (hs : s.step e = some t) :
    t.calls = s.calls ∨ (∃ disabled, t.calls = s.calls ++ [.disable s.currentMode disabled]) ∨
      (∃ requestedMode succeeded, t.calls = s.calls ++ [.enable requestedMode succeeded]) ∨
        s.currentMode.isActive = true ∧ t.calls = s.calls ++ [.process s.currentMode] := by
  cases e with
  | setBlockMode m isBlocked =>
    obtain rfl := Option.some.inj hs
    exact Or.inl (setBlockMode_calls m isBlocked)
  | popped newMode disabled uptime =>
    obtain ⟨-, ⟨changed, rfl, -⟩ | ⟨s', -, hleft, -, hrest⟩⟩ := popped_cases hs
    · exact Or.inl rfl
    have hcalls : t.calls = s'.calls := by
      rcases hrest with ⟨-, -, rfl⟩ | ⟨-, changed, rfl⟩ | ⟨-, -, p, rfl⟩ | ⟨-, rfl⟩
      · rfl
      · rfl
      · rfl
      · rfl
    rw [hcalls]
    rcases calls_of_left hleft with heq | heq
    · exact Or.inl heq
    · exact Or.inr (Or.inl ⟨disabled, heq⟩)
  | timedOut =>
    obtain ⟨-, rfl⟩ := timedOut_cases hs
    exact Or.inl rfl
  | enabled succeeded uptime =>
    obtain ⟨p, r, changed, -, rfl⟩ := enabled_cases hs
    exact Or.inr (Or.inr (Or.inl ⟨r, succeeded, rfl⟩))
  | turn now processed later wait =>
    obtain ⟨hpc, timeout, next, calls, rfl, hcalls⟩ := turn_cases hs
    rw [h.mode fun p r heq => absurd (hpc.symm.trans heq) (by simp)] at hcalls
    rcases hcalls with rfl | ⟨hactive, rfl⟩
    · exact Or.inl rfl
    · exact Or.inr (Or.inr (Or.inr ⟨hactive, rfl⟩))

theorem Consistent.runsCurrent (h : Consistent s) : RunsCurrent s := by
  intro e t m hs hcalls
  rcases calls_step h hs with heq | ⟨_, heq⟩ | ⟨_, _, heq⟩ | ⟨hactive, heq⟩
  · rw [heq] at hcalls
    exact absurd (congrArg List.length hcalls) (by simp)
  all_goals
    rw [heq] at hcalls
    have hlast := List.append_cancel_left hcalls
    simp only [List.cons.injEq, reduceCtorEq, and_true, AdcsCall.process.injEq] at hlast
  rw [← hlast]
  exact ⟨rfl, h.enabled hactive⟩

/-! ## At most one processor -/

/-- `Disable` succeeds where it is called. -/
def DisableSucceeds (s : AdcsCoordinator) : AdcsEvent → Prop
  | .popped newMode disabled _ =>
    s.currentMode.isActive = true → newMode ≠ s.currentMode → disabled = true
  | _ => True

/-- Only the processor of the current mode is enabled. -/
def Exclusive (s : AdcsCoordinator) : Prop :=
  ∀ m, s.isEnabled m = true → m.isActive = true ∧ m = s.currentMode

/-- Without a mode nothing is enabled. -/
theorem Exclusive.off (h : Exclusive s) (hi : s.currentMode.isActive = false) (m : AdcsMode) :
    s.isEnabled m = false := by
  by_contra hne
  obtain ⟨hactive, rfl⟩ := h m (Bool.not_eq_false _ ▸ hne)
  exact absurd (hi.symm.trans hactive) Bool.false_ne_true

theorem Exclusive.left (h : Exclusive s) {s' : AdcsCoordinator} (hleft : s.Left true s')
    (m : AdcsMode) : s'.isEnabled m = false := by
  rcases hleft with ⟨hi, rfl⟩ | ⟨-, rfl⟩
  · exact h.off hi m
  · rw [isEnabled_disable (s := s) rfl]
    by_cases hm : s.isEnabled m = true
    · rw [(h m hm).2]
      simp
    · rw [Bool.not_eq_true] at hm
      rw [hm, Bool.and_false]

theorem Exclusive.step (h : Exclusive s) (hc : Consistent s) (hok : DisableSucceeds s e)
    (hs : s.step e = some t) : Exclusive t := by
  have hsame : t.calls = s.calls → t.currentMode = s.currentMode → Exclusive t := by
    intro hcalls hmode m hm
    rw [isEnabled_of_calls hcalls] at hm
    rw [hmode]
    exact h m hm
  cases e with
  | setBlockMode m isBlocked =>
    obtain rfl := Option.some.inj hs
    exact hsame (setBlockMode_calls m isBlocked) (setBlockMode_currentMode m isBlocked)
  | popped newMode disabled uptime =>
    obtain ⟨-, ⟨changed, rfl, -⟩ | ⟨s', hne, hleft, -, hrest⟩⟩ := popped_cases hs
    · exact hsame rfl rfl
    rcases hrest with ⟨hfail, hactive, -⟩ | hrest
    · rw [hok hactive hne] at hfail
      exact absurd hfail (by simp)
    -- the previous processor is disabled, and no other one is enabled
    have hcalls : t.calls = s'.calls := by
      rcases hrest with ⟨-, changed, rfl⟩ | ⟨-, -, p, rfl⟩ | ⟨-, rfl⟩
      · rfl
      · rfl
      · rfl
    intro m hm
    rw [isEnabled_of_calls hcalls] at hm
    have hoff : s'.isEnabled m = false := by
      cases disabled with
      | true => exact h.left hleft m
      | false =>
        rcases hleft with ⟨hi, rfl⟩ | ⟨hactive, -⟩
        · exact h.off hi m
        · exact absurd (hok hactive hne) Bool.false_ne_true
    exact absurd (hoff.symm.trans hm) Bool.false_ne_true
  | timedOut =>
    obtain ⟨-, rfl⟩ := timedOut_cases hs
    exact hsame rfl rfl
  | enabled succeeded uptime =>
    obtain ⟨p, r, changed, hpc, rfl⟩ := enabled_cases hs
    obtain ⟨hstopped, hactive⟩ := hc.enabling p r hpc
    have hoff := h.off (by rw [hstopped]; rfl)
    intro m hm
    cases succeeded with
    | true =>
      rw [isEnabled_enable (s := s) rfl, hoff, Bool.or_false, beq_iff_eq] at hm
      rw [← hm]
      exact ⟨hactive, rfl⟩
    | false =>
      rw [isEnabled_enable_failed (s := s) rfl, hoff] at hm
      exact absurd hm Bool.false_ne_true
  | turn now processed later wait =>
    obtain ⟨-, timeout, next, calls, rfl, hcalls⟩ := turn_cases hs
    rcases hcalls with rfl | ⟨-, rfl⟩
    · exact hsame rfl rfl
    · intro m hm
      rw [isEnabled_process (s := s) rfl] at hm
      exact h m hm

/-! ## From a Disable request to a Stop request -/

def isDisableRequest : AdcsEvent → Bool
  | .popped .disabled _ _ => true
  | _ => false

def isStopRequest : AdcsEvent → Bool
  | .popped .stopped _ _ => true
  | _ => false

/-- A step that is not a request leaves the mode Disabled alone. -/
theorem stays_disabled (hc : Consistent s) (hs : s.step e = some t) (hd : s.currentMode = .disabled)
    (hstop : isStopRequest e = false) : t.currentMode = .disabled := by
  cases e with
  | setBlockMode m isBlocked =>
    obtain rfl := Option.some.inj hs
    rw [setBlockMode_currentMode]
    exact hd
  | popped newMode disabled uptime =>
    obtain ⟨-, ⟨changed, rfl, -⟩ | ⟨s', -, -, hstopped, -⟩⟩ := popped_cases hs
    · exact hd
    · rw [hstopped hd] at hstop
      exact absurd hstop (by simp [isStopRequest])
  | timedOut =>
    obtain ⟨-, rfl⟩ := timedOut_cases hs
    exact hd
  | enabled succeeded uptime =>
    obtain ⟨p, r, changed, hpc, rfl⟩ := enabled_cases hs
    exact absurd (hd.symm.trans (hc.enabling p r hpc).1) (by decide)
  | turn now processed later wait =>
    obtain ⟨-, timeout, next, calls, rfl, -⟩ := turn_cases hs
    exact hd

/-- A Disable request leads to the mode Disabled. -/
theorem disables (hok : DisableSucceeds s e) (hs : s.step e = some t)
    (hdis : isDisableRequest e = true) : t.currentMode = .disabled := by
  unfold isDisableRequest at hdis
  split at hdis
  swap
  · exact absurd hdis Bool.false_ne_true
  obtain ⟨-, ⟨changed, rfl, heq | ⟨heq, -⟩⟩ | ⟨s', hne, -, -, hrest⟩⟩ := popped_cases hs
  · exact heq.symm
  · exact heq
  rcases hrest with ⟨hfail, hactive, -⟩ | ⟨hactive, -⟩ | ⟨hactive, -⟩ | ⟨-, rfl⟩
  · rw [hok hactive hne] at hfail
    exact absurd hfail (by simp)
  · exact absurd hactive (by decide)
  · exact absurd hactive (by decide)
  · rfl

/-- Disabled, from the request on until it is stopped. -/
def Obeys (es : List AdcsEvent) (s : AdcsCoordinator) : Prop :=
  Runs.since isDisableRequest isStopRequest es = true → s.currentMode = .disabled

theorem Obeys.step (h : Obeys es s) (hc : Consistent s) (hok : DisableSucceeds s e)
    (hs : s.step e = some t) : Obeys (es ++ [e]) t := by
  intro hsince
  rw [Runs.since_snoc] at hsince
  by_cases hdis : isDisableRequest e = true
  · exact disables hok hs hdis
  · rw [if_neg hdis] at hsince
    split at hsince
    · exact absurd hsince Bool.false_ne_true
    · exact stays_disabled hc hs (h hsince) (Bool.eq_false_iff.2 ‹_›)

theorem exclusive_of_run (h : Runs.Run AdcsCoordinator.step DisableSucceeds (init uptime) es s) :
    Consistent s ∧ Exclusive s ∧ Obeys es s := by
  refine h.inv_trace (I := fun es s => Consistent s ∧ Exclusive s ∧ Obeys es s)
    ⟨consistent_init uptime, ?_, ?_⟩ ?_
  · intro m hm
    exact absurd hm (by simp [isEnabled, init])
  · intro hsince
    exact absurd hsince (by simp)
  · rintro es s e t ⟨hc, hx, ho⟩ hok hs
    exact ⟨hc.step hs, hx.step hc hok hs, ho.step hc hok hs⟩

/-! ## Blocked modes -/

/-- The mode whose processor is being enabled is not blocked meanwhile. -/
def NotBlockedMeanwhile (s : AdcsCoordinator) : AdcsEvent → Prop
  | .setBlockMode adcsMode true => ∀ previousMode, s.pc ≠ .enabling previousMode adcsMode
  | _ => True

/-- The mode whose processor is being enabled is not blocked. -/
def Unblocked (s : AdcsCoordinator) : Prop :=
  ∀ previousMode requestedMode, s.pc = .enabling previousMode requestedMode →
    s.isModeBlocked requestedMode = false

theorem num_injective : Function.Injective AdcsMode.num := by
  intro a b h
  cases a <;> cases b <;> first | rfl | exact absurd h (by decide)

/-- The mode has a mask. -/
def HasMask (s : AdcsCoordinator) (m : AdcsMode) : Prop := ¬ (m.num < 0 ∨ (s.adcsMasks.length : ℤ) ≤ m.num)

theorem hasMask_of_not_blocked (h : s.isModeBlocked m = false) : HasMask s m := by
  intro hout
  rw [isModeBlocked, if_pos hout] at h
  exact Bool.noConfusion h

/-- What a block setting does to the blocks. -/
theorem isModeBlocked_setBlockMode {adcsMode : AdcsMode} {isBlocked : Bool} (h : HasMask s m) :
    (s.setBlockMode adcsMode isBlocked).isModeBlocked m =
      if adcsMode = m then isBlocked else s.isModeBlocked m := by
  unfold HasMask at h
  unfold setBlockMode
  dsimp only
  split
  · rename_i hout
    have hne : adcsMode ≠ m := by
      rintro rfl
      exact h hout
    rw [if_neg hne]
  · rename_i hin
    rw [isModeBlocked, isModeBlocked, List.length_set, if_neg h, if_neg h,
      List.getD_eq_getElem?_getD, List.getD_eq_getElem?_getD]
    by_cases hm : adcsMode = m
    · subst hm
      rw [List.getElem?_set_self (by omega)]
      simp
    · have hindex : adcsMode.num.toNat ≠ m.num.toNat := by
        intro heq
        exact hm (num_injective (by omega))
      rw [List.getElem?_set_ne hindex, if_neg hm]

/-- The block settings so far end with a block of the mode. -/
def isBlockedBy (es : List AdcsEvent) (m : AdcsMode) : Bool :=
  Runs.since (· == .setBlockMode m true) (· == .setBlockMode m false) es

/-- Only block settings change the masks. -/
theorem adcsMasks_step (hs : s.step e = some t) (he : ∀ m isBlocked, e ≠ .setBlockMode m isBlocked) :
    t.adcsMasks = s.adcsMasks := by
  cases e with
  | setBlockMode m isBlocked => exact absurd rfl (he m isBlocked)
  | popped newMode disabled uptime =>
    obtain ⟨-, ⟨changed, rfl, -⟩ | ⟨s', -, hleft, -, hrest⟩⟩ := popped_cases hs
    · rfl
    have hmasks : s'.adcsMasks = s.adcsMasks := by
      rcases hleft with ⟨-, rfl⟩ | ⟨-, rfl⟩ <;> rfl
    rcases hrest with ⟨-, -, rfl⟩ | ⟨-, changed, rfl⟩ | ⟨-, -, p', rfl⟩ | ⟨-, rfl⟩ <;> exact hmasks
  | timedOut =>
    obtain ⟨-, rfl⟩ := timedOut_cases hs
    rfl
  | enabled succeeded uptime =>
    obtain ⟨p, r, changed, -, rfl⟩ := enabled_cases hs
    rfl
  | turn now processed later wait =>
    obtain ⟨-, timeout, next, calls, rfl, -⟩ := turn_cases hs
    rfl

/-- The masks are what the block settings have made them. -/
structure MasksSet (es : List AdcsEvent) (s : AdcsCoordinator) : Prop where
  length : s.adcsMasks.length = 3
  blocked : ∀ m, m.isActive = true → s.isModeBlocked m = isBlockedBy es m

theorem masksSet_init (uptime : ℤ) : MasksSet [] (init uptime) where
  length := rfl
  blocked m hactive := by cases m <;> first | rfl | exact absurd hactive (by decide)

theorem MasksSet.hasMask (h : MasksSet es s) (hactive : m.isActive = true) : HasMask s m := by
  unfold HasMask
  rw [h.length]
  cases m <;> revert hactive <;> decide

theorem MasksSet.step (h : MasksSet es s) (hs : s.step e = some t) : MasksSet (es ++ [e]) t := by
  by_cases he : ∃ m isBlocked, e = .setBlockMode m isBlocked
  · obtain ⟨m, isBlocked, rfl⟩ := he
    obtain rfl := Option.some.inj hs
    refine ⟨?_, fun m' hactive => ?_⟩
    · rw [← h.length, setBlockMode]
      split
      · rfl
      · exact List.length_set
    · rw [isModeBlocked_setBlockMode (h.hasMask hactive), h.blocked m' hactive]
      by_cases hm : m = m'
      · subst hm
        cases isBlocked <;> simp [isBlockedBy]
      · simp [isBlockedBy, hm]
  · have hother : ∀ m isBlocked, e ≠ .setBlockMode m isBlocked := fun m isBlocked heq => he ⟨m, isBlocked, heq⟩
    have hmasks := adcsMasks_step hs hother
    refine ⟨hmasks ▸ h.length, fun m hactive => ?_⟩
    have hsame : t.isModeBlocked m = s.isModeBlocked m := by
      unfold isModeBlocked
      rw [hmasks]
    rw [hsame, h.blocked m hactive]
    simp [isBlockedBy, hother]

theorem Unblocked.step (h : Unblocked s) (hok : NotBlockedMeanwhile s e) (hs : s.step e = some t) :
    Unblocked t := by
  cases e with
  | setBlockMode m isBlocked =>
    obtain rfl := Option.some.inj hs
    intro p r hpc
    rw [setBlockMode_pc] at hpc
    have hunblocked := h p r hpc
    rw [isModeBlocked_setBlockMode (hasMask_of_not_blocked hunblocked)]
    cases isBlocked with
    | false => rw [hunblocked, ite_self]
    | true =>
      have hne : m ≠ r := by
        rintro rfl
        exact hok p hpc
      rw [if_neg hne, hunblocked]
  | popped newMode disabled uptime =>
    intro p r hpc
    obtain ⟨-, ⟨changed, rfl, -⟩ | ⟨s', -, -, -, hrest⟩⟩ := popped_cases hs
    · exact absurd hpc (by simp)
    rcases hrest with ⟨-, -, rfl⟩ | ⟨-, changed, rfl⟩ | ⟨-, hblocked, p', rfl⟩ | ⟨-, rfl⟩
    · exact absurd hpc (by simp)
    · exact absurd hpc (by simp)
    · cases hpc
      exact hblocked
    · exact absurd hpc (by simp)
  | timedOut =>
    obtain ⟨-, rfl⟩ := timedOut_cases hs
    exact fun p r hpc => absurd hpc (by simp)
  | enabled succeeded uptime =>
    obtain ⟨p, r, changed, -, rfl⟩ := enabled_cases hs
    exact fun p r hpc => absurd hpc (by simp)
  | turn now processed later wait =>
    obtain ⟨-, timeout, next, calls, rfl, -⟩ := turn_cases hs
    exact fun p r hpc => absurd hpc (by simp)

/-- A mode is not entered while it is blocked: not by the coordinator's own check, and not by the
block settings so far. -/
def EntersUnblocked (es : List AdcsEvent) (s : AdcsCoordinator) : Prop :=
  ∀ e t, s.step e = some t → t.currentMode ≠ s.currentMode → t.currentMode.isActive = true →
    s.isModeBlocked t.currentMode = false ∧ isBlockedBy es t.currentMode = false

theorem Unblocked.entersUnblocked (h : Unblocked s) (hmasks : MasksSet es s) : EntersUnblocked es s := by
  intro e t hs hne hactive
  rw [← hmasks.blocked t.currentMode hactive, and_self]
  cases e with
  | setBlockMode m isBlocked =>
    obtain rfl := Option.some.inj hs
    exact absurd (setBlockMode_currentMode m isBlocked) hne
  | popped newMode disabled uptime =>
    obtain ⟨-, ⟨changed, rfl, -⟩ | ⟨s', -, hleft, -, hrest⟩⟩ := popped_cases hs
    · exact absurd rfl hne
    have hinactive : s'.currentMode.isActive = false := by
      rcases hleft with ⟨hi, rfl⟩ | ⟨-, rfl⟩
      · exact hi
      · rfl
    rcases hrest with ⟨-, -, rfl⟩ | ⟨-, changed, rfl⟩ | ⟨-, -, p', rfl⟩ | ⟨hi, rfl⟩
    · exact absurd (hinactive.symm.trans hactive) Bool.false_ne_true
    · exact absurd (hinactive.symm.trans hactive) Bool.false_ne_true
    · exact absurd (hinactive.symm.trans hactive) Bool.false_ne_true
    · exact absurd (hi.symm.trans hactive) Bool.false_ne_true
  | timedOut =>
    obtain ⟨-, rfl⟩ := timedOut_cases hs
    exact absurd rfl hne
  | enabled succeeded uptime =>
    obtain ⟨p, r, changed, hpc, rfl⟩ := enabled_cases hs
    cases succeeded with
    | true => exact h p r hpc
    | false => exact absurd rfl hne
  | turn now processed later wait =>
    obtain ⟨-, timeout, next, calls, rfl, -⟩ := turn_cases hs
    exact absurd rfl hne

/-! ## Results -/

/-- **ADCS activity.** In every run `Process` is only called on the enabled processor of the
current mode. Where `Disable` succeeds, at most one processor is enabled, and from a Disable
request until a Stop request none is enabled or run. Where no mode is blocked while its
processor is being enabled, no mode is entered blocked. -/
theorem adcs_activity (uptime : ℤ) (es : List AdcsEvent) (s : AdcsCoordinator) :
    (Runs.Run AdcsCoordinator.step Runs.always (init uptime) es s → RunsCurrent s) ∧
      (Runs.Run AdcsCoordinator.step DisableSucceeds (init uptime) es s →
        (∀ m m', s.isEnabled m = true → s.isEnabled m' = true → m = m') ∧
          (Runs.since isDisableRequest isStopRequest es = true →
            (∀ m, s.isEnabled m = false) ∧
              ∀ e t m, s.step e = some t → t.calls ≠ s.calls ++ [.process m])) ∧
      (Runs.Run AdcsCoordinator.step NotBlockedMeanwhile (init uptime) es s → EntersUnblocked es s) := by
  refine ⟨fun h => (consistent_of_run h).runsCurrent, fun h => ?_, fun h => ?_⟩
  · obtain ⟨hc, hx, ho⟩ := exclusive_of_run h
    refine ⟨fun m m' hm hm' => ?_, fun hsince => ?_⟩
    · rw [(hx m hm).2, (hx m' hm').2]
    · have hoff := hx.off (by rw [ho hsince]; rfl)
      refine ⟨hoff, fun e t m hs hcalls => ?_⟩
      have hm := (hc.runsCurrent e t m hs hcalls).2
      exact absurd ((hoff m).symm.trans hm) Bool.false_ne_true
  · have hu : Unblocked s := h.inv (I := Unblocked) (fun p r hpc => absurd hpc (by simp [init]))
      fun s e t hu hok hs => hu.step hok hs
    have hmasks : MasksSet es s := h.inv_trace (masksSet_init uptime) fun _ _ _ _ hm _ hs => hm.step hs
    exact hu.entersUnblocked hmasks

instance (s : AdcsCoordinator) (e : AdcsEvent) : Decidable (DisableSucceeds s e) :=
  match e with
  | .popped newMode disabled _ => inferInstanceAs
      (Decidable (s.currentMode.isActive = true → newMode ≠ s.currentMode → disabled = true))
  | .setBlockMode _ _ | .timedOut | .enabled _ _ | .turn _ _ _ _ => isTrue trivial

/-- Detumbling is enabled, runs once, and is disabled by a request. -/
def detumbleThenDisable : List AdcsEvent :=
  [.popped .builtinDetumbling true 0, .enabled true 0, .turn 0 10 10 100, .popped .disabled true 20]

theorem adcs_activity_detumbleThenDisable :
    ∃ s, Runs.Run AdcsCoordinator.step DisableSucceeds (init 0) detumbleThenDisable s ∧
      ∀ m, s.isEnabled m = false := by
  have hsome : (Runs.exec AdcsCoordinator.step DisableSucceeds (init 0)
      detumbleThenDisable).isSome = true := by decide +kernel
  obtain ⟨s, hs⟩ := Option.isSome_iff_exists.1 hsome
  have hrun := Runs.run_of_exec _ hs
  exact ⟨s, hrun, (((adcs_activity 0 _ s).2.1 hrun).2 (by decide +kernel)).1⟩

/-- `Disable` fails, and the next request enables a second processor. -/
theorem two_processors_enabled :
    ¬ ∀ (uptime : ℤ) (es : List AdcsEvent) (s : AdcsCoordinator),
      Runs.Run AdcsCoordinator.step Runs.always (init uptime) es s →
        ((∀ m m', s.isEnabled m = true → s.isEnabled m' = true → m = m') ∧ RunsCurrent s ∧
          (Runs.since isDisableRequest isStopRequest es = true →
            (∀ m, s.isEnabled m = false) ∧
              ∀ e t m, s.step e = some t → t.calls ≠ s.calls ++ [.process m]) ∧
          EntersUnblocked es s) := by
  intro h
  have hsome : (Runs.exec AdcsCoordinator.step Runs.always (init 0)
      [.popped .builtinDetumbling true 0, .enabled true 0, .turn 0 10 10 100,
        .popped .experimentalDetumbling false 20, .turn 20 20 20 0,
        .popped .experimentalDetumbling true 30, .enabled true 30]) = some
      ⟨.experimentalDetumbling, [false, false, false], .experimentalDetumbling, none, 30, .turn,
        [.enable .builtinDetumbling true, .process .builtinDetumbling,
          .disable .builtinDetumbling false, .enable .experimentalDetumbling true]⟩ := by decide +kernel
  have hone := (h 0 _ _ (Runs.run_of_exec _ hsome)).1 .builtinDetumbling .experimentalDetumbling
    (by decide +kernel) (by decide +kernel)
  exact absurd hone (by decide)

end AdcsCoordinator

end PWSat2OBC
