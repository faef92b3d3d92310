import Mathlib.Tactic.Linarith
import PWSat2OBC.Spec.MissionTime

/-!
# Waits across changes of mission time

* `performTimeCorrection_eq_iff`: when `CorrectTime` leaves the time as it is.
* `get_notifyTimeChanged`: what the notification does to each stored value.
* `waits_kept`: the remaining wait of a task is what ticks alone would have left, in every
  run whose changes meet `Kept` for that task.

`AntennaTask` is not notified at all and the SetTime telecommand notifies nobody, so for
them `Kept` asks that the clock does not move.
-/

namespace PWSat2OBC

open Runs

/-! ## The correction -/

namespace TimeTask

variable (missionTime externalTime : ℤ) (state : TimeState) (configuration : TimeCorrectionConfiguration)

/-- The weighted mean of both clocks. -/
def weightedTime : ℤ :=
  state.lastMissionTime +
    (max 0 (missionTime - state.lastMissionTime) * configuration.missionTimeFactor +
      (externalTime - state.lastExternalTime) * configuration.externalTimeFactor).tdiv
      configuration.total

/-- The RTC has not advanced, the clocks agree on the mean, or they are too far apart. -/
def NothingToCorrect : Prop :=
  externalTime ≤ state.lastExternalTime ∨
    weightedTime missionTime externalTime state configuration = missionTime ∨
    maximumTimeCorrection ≤ |weightedTime missionTime externalTime state configuration - missionTime|

instance : Decidable (NothingToCorrect missionTime externalTime state configuration) :=
  inferInstanceAs (Decidable (_ ∨ _ ∨ _))

theorem performTimeCorrection_of_le (h : externalTime ≤ state.lastExternalTime) :
    performTimeCorrection missionTime externalTime state configuration = missionTime := by
  unfold performTimeCorrection
  have hzero : (if externalTime - state.lastExternalTime < 0 then 0
      else externalTime - state.lastExternalTime) = 0 := by
    split_ifs <;> omega
  simp only [hzero, if_true]

theorem performTimeCorrection_of_lt (h : state.lastExternalTime < externalTime) :
    performTimeCorrection missionTime externalTime state configuration =
      if |weightedTime missionTime externalTime state configuration - missionTime| < maximumTimeCorrection
      then weightedTime missionTime externalTime state configuration else missionTime := by
  unfold performTimeCorrection
  have hmcu : (if missionTime - state.lastMissionTime < 0 then 0
      else missionTime - state.lastMissionTime) = max 0 (missionTime - state.lastMissionTime) := by
    split_ifs <;> omega
  have hrtc : (if externalTime - state.lastExternalTime < 0 then 0
      else externalTime - state.lastExternalTime) = externalTime - state.lastExternalTime := by
    split_ifs <;> omega
  have hne : ¬ externalTime - state.lastExternalTime = 0 := by omega
  simp only [hmcu, hrtc, hne, if_false]
  rw [← weightedTime]
  have habs (x : ℤ) : (if missionTime < x then x - missionTime else missionTime - x) = |x - missionTime| := by
    split_ifs with hlt
    · rw [abs_of_pos (by omega)]
    · rw [abs_of_nonpos (by omega)]
      omega
  rw [habs]

/-- **When the time stays as it is.** -/
theorem performTimeCorrection_eq_iff :
    performTimeCorrection missionTime externalTime state configuration = missionTime ↔
      NothingToCorrect missionTime externalTime state configuration := by
  unfold NothingToCorrect
  rcases le_or_gt externalTime state.lastExternalTime with h | h
  · exact ⟨fun _ => Or.inl h, fun _ => performTimeCorrection_of_le _ _ _ _ h⟩
  · rw [performTimeCorrection_of_lt _ _ _ _ h]
    split_ifs with hclose
    · constructor
      · exact fun heq => Or.inr (Or.inl heq)
      · rintro (hle | heq | hfar)
        · omega
        · exact heq
        · omega
    · exact ⟨fun _ => Or.inr (Or.inr (not_lt.1 hclose)), fun _ => rfl⟩

end TimeTask

/-! ## Stored times -/

namespace StoredTimes

variable (s : StoredTimes)

theorem get_set (value : ℤ) (task task' : TimekeepingTask) :
    (s.set value task).get task' = if task' = task then some value else s.get task' := by
  cases task <;> cases task' <;> rfl

/-- **The notification** shifts what the notified tasks have stored. -/
theorem get_notifyTimeChanged (timeCorrection : ℤ) (task : TimekeepingTask) :
    (s.notifyTimeChanged timeCorrection).get task =
      if task.isRequireNotifyWhenTimeChanges then (s.get task).map (· + timeCorrection)
      else s.get task := by
  cases task <;> rfl

end StoredTimes

namespace MissionTime

variable {s t : MissionTime} {e : MissionTimeEvent} {task : TimekeepingTask}

/-! ## Steps -/

/-- The conditions for the waits of `task`.
* SetTime sets the clock to the time it shows already.
* No tick comes between reading and setting the clock in `CorrectTime`, and the task is
  notified or nothing is corrected.
* The task stores no time between the setting of the clock and the notification, unless
  nothing was corrected. -/
def Kept (task : TimekeepingTask) (s : MissionTime) (e : MissionTimeEvent) : Prop :=
  (match e, s.correctTime with
  | .setTime targetTime _ _, _ => decide ((targetTime.toNat : ℤ) * 1000 = s.currentTime)
  | .setCorrectedTime externalTime _, .determine time =>
    decide (time = s.currentTime ∧ (task.isRequireNotifyWhenTimeChanges = true ∨
      TimeTask.NothingToCorrect time externalTime s.timeState s.configuration))
  | .store task' _, .notify timeCorrection => decide (task' = task → timeCorrection = 0)
  | _, _ => true) = true

instance : Decidable (Kept task s e) := inferInstanceAs (Decidable (_ = true))

/-- The shift that is still to come. -/
def owed (s : MissionTime) (task : TimekeepingTask) : ℤ :=
  match s.correctTime with
  | .notify timeCorrection => if task.isRequireNotifyWhenTimeChanges then timeCorrection else 0
  | _ => 0

/-- The remaining wait is what ticks alone would have left. -/
def OnTime (task : TimekeepingTask) (s : MissionTime) : Prop :=
  ∀ v, s.stored.get task = some v → v + s.owed task - s.currentTime = s.due task - s.uptime

theorem onTime_init (startTime : ℤ) (timeState : TimeState) (configuration : TimeCorrectionConfiguration)
    (stored : StoredTimes) : OnTime task (init startTime timeState configuration stored) := by
  intro v hv
  have hv : stored.get task = some v := hv
  simp [owed, init, hv]

/-- A fresh value: no shift may be on its way. -/
theorem OnTime.stored {task' : TimekeepingTask} {value : ℤ} (h : OnTime task s)
    (hok : Kept task s (.store task' value)) (hs : step s (.store task' value) = some t) : OnTime task t := by
  intro v hv
  simp only [MissionTime.step] at hs
  split_ifs at hs with hmay
  obtain rfl := Option.some.inj hs
  simp only [StoredTimes.get_set] at hv
  by_cases htask : task = task'
  · subst htask
    rw [if_pos rfl, Option.some.injEq] at hv
    subst hv
    have howed : s.owed task = 0 := by
      unfold owed
      cases hc : s.correctTime with
      | notify timeCorrection =>
        have hzero : timeCorrection = 0 := by simpa [Kept, hc] using hok
        simp [hzero]
      | idle => rfl
      | determine time => rfl
    have howed' : owed { s with
        stored := s.stored.set value task
        due := Function.update s.due task (s.uptime + (value - s.currentTime)) } task = 0 := howed
    rw [howed']
    dsimp only
    rw [Function.update_self]
    omega
  · -- the value of another task
    rw [if_neg htask] at hv
    dsimp only
    rw [Function.update_of_ne htask]
    exact h v hv

/-- The clock is set: the shift is owed to the task, or there is none. -/
theorem OnTime.corrected {externalTime : ℤ} {saved : Bool} (h : OnTime task s)
    (hok : Kept task s (.setCorrectedTime externalTime saved))
    (hs : step s (.setCorrectedTime externalTime saved) = some t) : OnTime task t := by
  intro v hv
  simp only [MissionTime.step] at hs
  split at hs
  · rename_i time hc
    obtain rfl := Option.some.inj hs
    have hnow : v - s.currentTime = s.due task - s.uptime := by
      have := h v hv
      simpa [owed, hc] using this
    obtain ⟨htime, hnotified⟩ : time = s.currentTime ∧ (task.isRequireNotifyWhenTimeChanges = true ∨
        TimeTask.NothingToCorrect time externalTime s.timeState s.configuration) := by
      simpa [Kept, hc] using hok
    simp only [owed]
    rcases hnotified with hreq | hnothing
    · rw [if_pos hreq]
      omega
    · rw [(TimeTask.performTimeCorrection_eq_iff _ _ _ _).2 hnothing]
      split_ifs <;> omega
  · exact absurd hs (by simp)

/-- What was owed is paid. -/
theorem OnTime.notified (h : OnTime task s) (hs : step s .notifyTimeChanged = some t) : OnTime task t := by
  intro v hv
  simp only [MissionTime.step] at hs
  split at hs
  · rename_i timeCorrection hc
    obtain rfl := Option.some.inj hs
    simp only [StoredTimes.get_notifyTimeChanged] at hv
    by_cases hreq : task.isRequireNotifyWhenTimeChanges = true
    · rw [if_pos hreq] at hv
      obtain ⟨u, hu, rfl⟩ := Option.map_eq_some_iff.1 hv
      have := h u hu
      simpa [owed, hc, hreq] using this
    · rw [if_neg hreq] at hv
      have := h v hv
      simpa [owed, hc, hreq] using this
  · exact absurd hs (by simp)

theorem OnTime.step (h : OnTime task s) (hok : Kept task s e) (hs : step s e = some t) : OnTime task t := by
  cases e with
  | advanceTime delta =>
    intro v hv
    obtain rfl := Option.some.inj hs
    -- the clock and the uptime advance together
    have := h v hv
    simp only [owed] at this ⊢
    omega
  | update =>
    obtain rfl := Option.some.inj hs
    exact h
  | configure configuration =>
    obtain rfl := Option.some.inj hs
    exact h
  | store task' value => exact h.stored hok hs
  | correctTime =>
    intro v hv
    simp only [MissionTime.step] at hs
    split_ifs at hs with hidle
    obtain rfl := Option.some.inj hs
    have := h v hv
    simpa [owed, hidle] using this
  | correctTimeReturns | determineFails =>
    intro v hv
    simp only [MissionTime.step] at hs
    split at hs
    · rename_i time hc
      obtain rfl := Option.some.inj hs
      have := h v hv
      simpa [owed, hc] using this
    · exact absurd hs (by simp)
  | setCorrectedTime externalTime saved => exact h.corrected hok hs
  | notifyTimeChanged => exact h.notified hs
  | setTime targetTime externalTime saved =>
    intro v hv
    simp only [MissionTime.step] at hs
    split at hs
    · obtain rfl := Option.some.inj hs
      have hsame : (targetTime.toNat : ℤ) * 1000 = s.currentTime := by simpa [Kept] using hok
      have := h v hv
      simp only [owed] at this ⊢
      rw [hsame]
      exact this
    · exact absurd hs (by simp)

/-- The event does not store a time of `task`. -/
def isStore (task : TimekeepingTask) : MissionTimeEvent → Bool
  | .store task' _ => task' = task
  | _ => false

theorem due_of_not_store (he : isStore task e = false) (hs : step s e = some t) : t.due task = s.due task := by
  cases e with
  | store task' value =>
    simp only [step] at hs
    split_ifs at hs
    obtain rfl := Option.some.inj hs
    have hne : task' ≠ task := of_decide_eq_false he
    exact Function.update_of_ne hne.symm _ _
  | advanceTime delta => obtain rfl := Option.some.inj hs; rfl
  | update => obtain rfl := Option.some.inj hs; rfl
  | configure configuration => obtain rfl := Option.some.inj hs; rfl
  | _ =>
    simp only [step] at hs
    split at hs
    · cases hs; rfl
    · cases hs

theorem due_of_run {ok : MissionTime → MissionTimeEvent → Prop} {es : List MissionTimeEvent}
    (h : Run step ok s es t) (hes : ∀ e ∈ es, isStore task e = false) : t.due task = s.due task := by
  induction h with
  | nil => rfl
  | snoc _ _ hs ih =>
    rw [due_of_not_store (hes _ (by simp)) hs]
    exact ih fun e he => hes e (List.mem_append_left _ he)

/-- **Waits are kept.** Outside of `CorrectTime` the remaining wait of the task is what it
was when the value was stored, less the ticks since; so between any two such states it
changes by the ticks only. -/
theorem waits_kept {startTime : ℤ} {timeState : TimeState} {configuration : TimeCorrectionConfiguration}
    {stored : StoredTimes} {es : List MissionTimeEvent} (task : TimekeepingTask)
    (h : Run step (Kept task) (init startTime timeState configuration stored) es s)
    (hidle : s.correctTime = .idle) :
    (∀ v, s.stored.get task = some v → v - s.currentTime = s.due task - s.uptime) ∧
    ∀ es₁ s₁ es₂, Run step (Kept task) (init startTime timeState configuration stored) es₁ s₁ →
      s₁.correctTime = .idle → Run step (Kept task) s₁ es₂ s → (∀ e ∈ es₂, isStore task e = false) →
      ∀ v₁ v, s₁.stored.get task = some v₁ → s.stored.get task = some v →
        v - s.currentTime = v₁ - s₁.currentTime - (s.uptime - s₁.uptime) := by
  have key {es' : List MissionTimeEvent} {u : MissionTime}
      (hu : Run step (Kept task) (init startTime timeState configuration stored) es' u)
      (hidle : u.correctTime = .idle) (v : ℤ) (hv : u.stored.get task = some v) :
      v - u.currentTime = u.due task - u.uptime := by
    have hon : OnTime task u := hu.inv (onTime_init _ _ _ _) fun _ _ _ hs hok hstep => hs.step hok hstep
    have := hon v hv
    simpa [owed, hidle] using this
  refine ⟨key h hidle, ?_⟩
  intro es₁ s₁ es₂ h₁ hidle₁ h₂ hes v₁ v hv₁ hv
  have hbefore := key h₁ hidle₁ v₁ hv₁
  have hafter := key h hidle v hv
  have hdue := due_of_run h₂ hes
  rw [hdue] at hafter
  linarith

/-- A minute before every deadline, a minute after the last correction. -/
def waiting : MissionTime :=
  init 1000000 ⟨940000, 0⟩ ⟨1, 1⟩
    ⟨1060000, 1060000, 1060000, some 1060000, some 1060000, some 1060000, 1060000⟩

/-- The RTC is a minute ahead, so half a minute is added. -/
def correctedRun : List MissionTimeEvent := [.correctTime, .setCorrectedTime 120000 true, .notifyTimeChanged]

theorem waits_kept_corrected :
    ∃ s, Run step (Kept .openSail) waiting correctedRun s ∧ s.currentTime = 1030000 ∧
      ∀ v, s.stored.get .openSail = some v → v - s.currentTime = s.due .openSail - s.uptime := by
  have h : Run step (Kept .openSail) waiting correctedRun _ := run_of_exec correctedRun rfl
  exact ⟨_, h, by decide, (waits_kept .openSail h rfl).1⟩

/-- The wait of `task` is not what ticks alone would have left. -/
def Late (task : TimekeepingTask) (s : MissionTime) : Prop :=
  s.correctTime = .idle ∧ ∃ v, s.stored.get task = some v ∧ v - s.currentTime ≠ s.due task - s.uptime

/-- The antenna task is not notified, SetTime notifies nobody, and ticks that come while the
time is corrected are taken back. -/
theorem waits_lost :
    (∃ s, Run step always waiting correctedRun s ∧ Late .antenna s) ∧
    (∃ s, Run step always waiting [.setTime 1030 none true] s ∧ Late .openSail s) ∧
    ∃ s, Run step always waiting
      [.correctTime, .advanceTime 5000, .setCorrectedTime 60000 true, .notifyTimeChanged] s ∧
      Late .openSail s := by
  refine ⟨?_, ?_, ?_⟩
  · have h : Run step always waiting correctedRun _ := run_of_exec correctedRun rfl
    exact ⟨_, h, rfl, _, rfl, by decide⟩
  · have h : Run step always waiting [.setTime 1030 none true] _ := run_of_exec _ rfl
    exact ⟨_, h, rfl, _, rfl, by decide⟩
  · have h : Run step always waiting
        [.correctTime, .advanceTime 5000, .setCorrectedTime 60000 true, .notifyTimeChanged] _ :=
      run_of_exec _ rfl
    exact ⟨_, h, rfl, _, rfl, by decide⟩

end MissionTime

end PWSat2OBC
