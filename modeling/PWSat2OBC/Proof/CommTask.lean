import Mathlib.Tactic
import PWSat2OBC.Spec.CommTask

/-!
# The idle state of the transmitter is not left early

The condition of the mission loop reads the flag and the turn-off time without the semaphore, and
the action takes the semaphore without asking again. An enter that comes in between is undone at
once, and so is one that has set the flag and not yet the time.

* `keptIdle_run`: in every run in which no enter comes in between, unless its turn-off time has
  been reached, the idle state is switched off in time.
* `early_of_not_keepsIdle`: each such enter can be undone too early.
* `agrees_run`: the flag agrees with the transmitter in every run.
-/

namespace PWSat2OBC

namespace CommTask

open Runs

variable {s t : CommTask}

/-! ## Operations of a call -/

/-- Behind the lock. -/
def CallPc.Holds : CallPc → Prop
  | .locking _ => False
  | _ => True

/-- The turn-off time of an enter the transmitter has still to accept. -/
def CallPc.entering : CallPc → Option ℤ
  | .sending (.enterTransmitterStateWhenIdle turnOffTime) => some turnOffTime
  | _ => none

/-- The turn-off time of an accepted enter that has not been stored. -/
def CallPc.unstored : CallPc → Option ℤ
  | .settingFlag (.enterTransmitterStateWhenIdle turnOffTime) => some turnOffTime
  | .settingTime turnOffTime => some turnOffTime
  | _ => none

/-- The state the transmitter has accepted and the flag does not show. -/
def CallPc.unflagged : CallPc → Option Bool
  | .settingFlag request => some request.idleState
  | _ => none

/-- The call of the mission loop. -/
def MissionPc.call : MissionPc → Option CallPc
  | .acting _ pc => some pc
  | _ => none

/-- The mission loop is about to compare. -/
def MissionPc.compared : MissionPc → Option ℤ
  | .comparing time => some time
  | _ => none

/-- The mission loop is going to switch off, and has not got the lock. -/
def MissionPc.decided : MissionPc → Option ℤ
  | .acting time (.locking .leaveTransmitterStateWhenIdle) => some time
  | _ => none

/-- What one operation of a call does. -/
inductive Called (s : Shared) : Bool → CallPc → Shared → Option CallPc → Prop
  | lockFailed (request : Request) : Called s false (.locking request) s none
  | locked (request : Request) (hfree : s.free = true) :
      Called s true (.locking request) { s with free := false } (some (.sending request))
  | entered (d : ℤ) : Called s true (.sending (.enterTransmitterStateWhenIdle d))
      { s with transmitter := true, due := some d } (some (.settingFlag (.enterTransmitterStateWhenIdle d)))
  | left : Called s true (.sending .leaveTransmitterStateWhenIdle) { s with transmitter := false }
      (some (.settingFlag .leaveTransmitterStateWhenIdle))
  | rejected (request : Request) : Called s false (.sending request) s (some .unlocking)
  | flagSet (answer : Bool) (d : ℤ) : Called s answer (.settingFlag (.enterTransmitterStateWhenIdle d))
      { s with idleState := true } (some (.settingTime d))
  | flagCleared (answer : Bool) : Called s answer (.settingFlag .leaveTransmitterStateWhenIdle)
      { s with idleState := false } (some .unlocking)
  | timeSet (answer : Bool) (d : ℤ) :
      Called s answer (.settingTime d) { s with idleStateTurnOffTime := d } (some .unlocking)
  | unlocked (answer : Bool) : Called s answer .unlocking { s with free := true } none

theorem callStep_called {s s' : Shared} {answer : Bool} {pc : CallPc} {next : Option CallPc}
    (hs : callStep s answer pc = some (s', next)) : Called s answer pc s' next := by
  cases pc with
  | locking request =>
    cases answer with
    | false =>
      obtain ⟨rfl, rfl⟩ := Prod.mk.inj (Option.some.inj hs)
      exact .lockFailed request
    | true =>
      have hlock : (if s.free then some ({ s with free := false }, some (.sending request)) else none) =
        some (s', next) := hs
      rw [Option.ite_none_right_eq_some] at hlock
      obtain ⟨hfree, heq⟩ := hlock
      obtain ⟨rfl, rfl⟩ := Prod.mk.inj (Option.some.inj heq)
      exact .locked request hfree
  | sending request =>
    cases answer with
    | false =>
      obtain ⟨rfl, rfl⟩ := Prod.mk.inj (Option.some.inj hs)
      exact .rejected request
    | true =>
      obtain ⟨rfl, rfl⟩ := Prod.mk.inj (Option.some.inj hs)
      cases request with
      | enterTransmitterStateWhenIdle turnOffTime => exact .entered turnOffTime
      | leaveTransmitterStateWhenIdle => exact .left
  | settingFlag request =>
    cases request with
    | enterTransmitterStateWhenIdle turnOffTime =>
      obtain ⟨rfl, rfl⟩ := Prod.mk.inj (Option.some.inj hs)
      exact .flagSet answer turnOffTime
    | leaveTransmitterStateWhenIdle =>
      obtain ⟨rfl, rfl⟩ := Prod.mk.inj (Option.some.inj hs)
      exact .flagCleared answer
  | settingTime turnOffTime =>
    obtain ⟨rfl, rfl⟩ := Prod.mk.inj (Option.some.inj hs)
    exact .timeSet answer turnOffTime
  | unlocking =>
    obtain ⟨rfl, rfl⟩ := Prod.mk.inj (Option.some.inj hs)
    exact .unlocked answer

/-- A call behind the lock has the semaphore, and what it has still to note is what the transmitter
has accepted. -/
structure Fits (s : Shared) (pc : CallPc) : Prop where
  taken : pc.Holds → s.free = false
  flag : ∀ b ∈ pc.unflagged, s.transmitter = b
  time : ∀ d ∈ pc.unstored, s.due = some d

/-- What holds between two calls: one of them at most is behind the lock, and the flag and the
turn-off time follow what the transmitter has accepted. -/
structure Guarded (s : Shared) (mine other : Option CallPc) : Prop where
  fits : ∀ pc ∈ mine, Fits s pc
  otherFits : ∀ pc ∈ other, Fits s pc
  apart : ∀ pc ∈ mine, pc.Holds → ∀ pc' ∈ other, ¬ pc'.Holds
  flag : mine.bind CallPc.unflagged = none → other.bind CallPc.unflagged = none → s.idleState = s.transmitter
  time : mine.bind CallPc.unstored = none → other.bind CallPc.unstored = none →
    ∀ d ∈ s.due, s.idleStateTurnOffTime = d

theorem Guarded.symm {s : Shared} {mine other : Option CallPc} (h : Guarded s mine other) :
    Guarded s other mine where
  fits := h.otherFits
  otherFits := h.fits
  apart pc hpc hholds pc' hpc' hholds' := h.apart pc' hpc' hholds' pc hpc hholds
  flag hother hmine := h.flag hmine hother
  time hother hmine := h.time hmine hother

/-- In front of the lock a call has nothing to note. -/
theorem not_holds {pc : CallPc} (h : ¬ pc.Holds) : pc.unflagged = none ∧ pc.unstored = none := by
  cases pc with
  | locking request => exact ⟨rfl, rfl⟩
  | _ => exact absurd trivial h

/-- A call with nothing to note. -/
theorem Fits.of_none {s : Shared} {pc : CallPc} (htaken : pc.Holds → s.free = false) (hflag : pc.unflagged = none)
    (htime : pc.unstored = none) : Fits s pc := by
  refine ⟨htaken, ?_, ?_⟩
  · rw [hflag]
    exact fun _ hb => absurd hb.symm (Option.some_ne_none _)
  · rw [htime]
    exact fun _ hd => absurd hd.symm (Option.some_ne_none _)

theorem Fits.of_not_holds (s : Shared) {pc : CallPc} (h : ¬ pc.Holds) : Fits s pc :=
  .of_none (fun hholds => absurd hholds h) (not_holds h).1 (not_holds h).2

/-- With the lock in the hands of one call the other has nothing to note. -/
theorem Guarded.other_none {s : Shared} {pc : CallPc} {other : Option CallPc} (h : Guarded s (some pc) other)
    (hholds : pc.Holds) : other.bind CallPc.unflagged = none ∧ other.bind CallPc.unstored = none := by
  cases other with
  | none => exact ⟨rfl, rfl⟩
  | some pc' => exact not_holds (h.apart pc rfl hholds pc' rfl)

/-- A call that has the lock may change what is shared. -/
theorem Guarded.of_holds {s s' : Shared} {pc : CallPc} {other next : Option CallPc} (h : Guarded s (some pc) other)
    (hholds : pc.Holds) (hfits : ∀ pc' ∈ next, Fits s' pc')
    (hflag : next.bind CallPc.unflagged = none → s'.idleState = s'.transmitter)
    (htime : next.bind CallPc.unstored = none → ∀ d ∈ s'.due, s'.idleStateTurnOffTime = d) :
    Guarded s' next other where
  fits := hfits
  otherFits pc' hpc' := .of_not_holds s' (h.apart pc rfl hholds pc' hpc')
  apart _ _ _ pc' hpc' := h.apart pc rfl hholds pc' hpc'
  flag hnext _ := hflag hnext
  time hnext _ := htime hnext

/-- The next operation of a call. -/
theorem Guarded.called {s s' : Shared} {answer : Bool} {pc : CallPc} {other next : Option CallPc}
    (h : Guarded s (some pc) other) (hs : Called s answer pc s' next) : Guarded s' next other := by
  have hfits := h.fits pc rfl
  have hnone {pc' : CallPc} : pc' ∉ (none : Option CallPc) := fun hpc => absurd hpc.symm (Option.some_ne_none _)
  cases hs with
  | lockFailed request =>
    exact ⟨fun _ hpc => absurd hpc hnone, h.otherFits, fun _ hpc => absurd hpc hnone, fun _ => h.flag rfl,
      fun _ => h.time rfl⟩
  | locked request hfree =>
    -- the other call does not have the lock
    have hother : ∀ pc' ∈ other, ¬ pc'.Holds := by
      intro pc' hpc' hholds
      have htaken := (h.otherFits pc' hpc').taken hholds
      rw [hfree] at htaken
      exact Bool.noConfusion htaken
    refine ⟨?_, fun pc' hpc' => .of_not_holds _ (hother pc' hpc'), fun _ _ _ => hother, fun _ => h.flag rfl,
      fun _ => h.time rfl⟩
    intro pc' hpc'
    obtain rfl := Option.some.inj hpc'
    exact .of_none (fun _ => rfl) rfl rfl
  | entered d =>
    refine h.of_holds trivial ?_ (fun hflag => absurd hflag (Option.some_ne_none _))
      fun htime => absurd htime (Option.some_ne_none _)
    intro pc' hpc'
    obtain rfl := Option.some.inj hpc'
    exact ⟨fun _ => hfits.taken trivial, fun _ hb => Option.some.inj hb, fun _ hd => hd⟩
  | left =>
    refine h.of_holds trivial ?_ (fun hflag => absurd hflag (Option.some_ne_none _))
      fun _ => h.time rfl (h.other_none trivial).2
    intro pc' hpc'
    obtain rfl := Option.some.inj hpc'
    exact ⟨fun _ => hfits.taken trivial, fun _ hb => Option.some.inj hb, fun _ hd => absurd hd.symm (Option.some_ne_none _)⟩
  | rejected request =>
    refine h.of_holds trivial ?_ (fun _ => h.flag rfl (h.other_none trivial).1)
      fun _ => h.time rfl (h.other_none trivial).2
    intro pc' hpc'
    obtain rfl := Option.some.inj hpc'
    exact .of_none (fun _ => hfits.taken trivial) rfl rfl
  | flagSet answer d =>
    refine h.of_holds trivial ?_ (fun _ => (hfits.flag _ rfl).symm) fun htime => absurd htime (Option.some_ne_none _)
    intro pc' hpc'
    obtain rfl := Option.some.inj hpc'
    exact ⟨fun _ => hfits.taken trivial, fun _ hb => absurd hb.symm (Option.some_ne_none _), hfits.time⟩
  | flagCleared answer =>
    refine h.of_holds trivial ?_ (fun _ => (hfits.flag _ rfl).symm) fun _ => h.time rfl (h.other_none trivial).2
    intro pc' hpc'
    obtain rfl := Option.some.inj hpc'
    exact .of_none (fun _ => hfits.taken trivial) rfl rfl
  | timeSet answer d =>
    refine h.of_holds trivial ?_ (fun _ => h.flag rfl (h.other_none trivial).1) fun _ d' hd' => ?_
    · intro pc' hpc'
      obtain rfl := Option.some.inj hpc'
      exact .of_none (fun _ => hfits.taken trivial) rfl rfl
    · -- the time that is stored is that of the latest enter
      have hsome : some d = some d' := (hfits.time d rfl).symm.trans hd'
      exact Option.some.inj hsome
  | unlocked answer =>
    exact h.of_holds trivial (fun _ hpc => absurd hpc hnone) (fun _ => h.flag rfl (h.other_none trivial).1)
      fun _ => h.time rfl (h.other_none trivial).2

/-- Only an enter that is accepted changes the turn-off time to keep to. -/
theorem Called.due {s s' : Shared} {answer : Bool} {pc : CallPc} {next : Option CallPc}
    (hs : Called s answer pc s' next) :
    s'.due = s.due ∨ answer = true ∧ ∃ d, pc.entering = some d ∧ s'.due = some d := by
  cases hs with
  | entered d => exact Or.inr ⟨rfl, d, rfl, rfl⟩
  | _ => exact Or.inl rfl

/-! ## Every run -/

/-- The calls of the two tasks. -/
def Inv (s : CommTask) : Prop := Guarded s.shared s.telecommand s.mission.call

theorem inv_init (turnOffTime : ℤ) : Inv (init turnOffTime) where
  fits _ hpc := absurd hpc.symm (Option.some_ne_none _)
  otherFits _ hpc := absurd hpc.symm (Option.some_ne_none _)
  apart _ hpc := absurd hpc.symm (Option.some_ne_none _)
  flag _ _ := rfl
  time _ _ _ hd := absurd hd.symm (Option.some_ne_none _)

/-- A call that begins in front of the lock. -/
theorem Guarded.begin {s : Shared} {other : Option CallPc} (h : Guarded s none other) (request : Request) :
    Guarded s (some (.locking request)) other := by
  have hholds : ∀ pc ∈ some (CallPc.locking request), ¬ pc.Holds := by
    intro pc hpc
    rw [← Option.some.inj hpc]
    exact id
  exact ⟨fun pc hpc => .of_not_holds s (hholds pc hpc), h.otherFits,
    fun pc hpc hpc' => absurd hpc' (hholds pc hpc), fun _ => h.flag rfl, fun _ => h.time rfl⟩

theorem inv_step {e : Event} (h : Inv s) (hs : step s e = some t) : Inv t := by
  cases e with
  | call request =>
    simp only [step, Option.ite_none_right_eq_some, Option.some.injEq] at hs
    obtain ⟨hnone, rfl⟩ := hs
    rw [Inv, hnone] at h
    exact h.begin request
  | telecommand answer =>
    obtain ⟨pc, hpc, hs⟩ := Option.bind_eq_some_iff.1 hs
    obtain ⟨⟨shared, next⟩, hcall, rfl⟩ := Option.map_eq_some_iff.1 hs
    rw [Inv, hpc] at h
    exact h.called (callStep_called hcall)
  | cycle time =>
    simp only [step, Option.ite_none_right_eq_some, Option.some.injEq] at hs
    obtain ⟨hready, rfl⟩ := hs
    have hcall : (if s.shared.idleState then MissionPc.comparing time else .ready).call = s.mission.call := by
      rw [hready]
      split <;> rfl
    rw [Inv, hcall]
    exact h
  | mission answer =>
    rw [step, missionStep] at hs
    rw [Inv] at h
    split at hs
    · exact absurd hs.symm (Option.some_ne_none t)
    · rename_i time hmission
      obtain rfl := Option.some.inj hs
      rw [hmission] at h
      rw [Inv]
      split
      · exact (h.symm.begin .leaveTransmitterStateWhenIdle).symm
      · exact h
    · rename_i time pc hmission
      obtain ⟨⟨shared, next⟩, hcall, rfl⟩ := Option.map_eq_some_iff.1 hs
      rw [hmission] at h
      have hnext : ((next.map (MissionPc.acting time)).getD .ready).call = next := by
        cases next with
        | none => rfl
        | some pc' => rfl
      -- here the call of the telecommand is the other one
      rw [Inv, hnext]
      exact (h.symm.called (callStep_called hcall)).symm

theorem inv_run {turnOffTime : ℤ} {es : List Event} {ok : CommTask → Event → Prop}
    (hrun : Run step ok (init turnOffTime) es s) : Inv s :=
  hrun.inv (inv_init turnOffTime) fun _ _ _ h _ hs => inv_step h hs

/-- With no call in progress the flag agrees with the transmitter, in every run. -/
theorem agrees_run {turnOffTime : ℤ} {es : List Event} {ok : CommTask → Event → Prop}
    (hrun : Run step ok (init turnOffTime) es s) (htelecommand : s.telecommand = none)
    (hmission : s.mission.call = none) : s.shared.idleState = s.shared.transmitter := by
  have hinv := inv_run hrun
  rw [Inv, htelecommand, hmission] at hinv
  exact hinv.flag rfl rfl

/-! ## Switching off in time -/

/-- The idle state is not left early, and the flag agrees with the transmitter. -/
structure KeptIdle (s : CommTask) : Prop where
  prompt : ∀ off ∈ s.turnedOff, ∀ d ∈ off.due, d ≤ off.time
  agrees : s.telecommand = none → s.mission.call = none → s.shared.idleState = s.shared.transmitter

/-- No enter comes between the condition and the action, and none is in progress when the condition
compares the time, unless the mission time has reached its turn-off time. -/
def KeepsIdle (s : CommTask) : Event → Prop
  | .telecommand answer => answer = true →
    ∀ d ∈ s.telecommand.bind CallPc.entering, ∀ time ∈ s.mission.decided, d ≤ time
  | .mission _ => ∀ time ∈ s.mission.compared, s.shared.idleStateTurnOffTime ≤ time →
    ∀ d ∈ s.telecommand.bind CallPc.unstored, d ≤ time
  | _ => True

instance (s : CommTask) : ∀ e, Decidable (KeepsIdle s e)
  | .telecommand answer => inferInstanceAs (Decidable (answer = true →
      ∀ d ∈ s.telecommand.bind CallPc.entering, ∀ time ∈ s.mission.decided, d ≤ time))
  | .mission _ => inferInstanceAs (Decidable (∀ time ∈ s.mission.compared, s.shared.idleStateTurnOffTime ≤ time →
      ∀ d ∈ s.telecommand.bind CallPc.unstored, d ≤ time))
  | .call _ => inferInstanceAs (Decidable True)
  | .cycle _ => inferInstanceAs (Decidable True)

/-- What the mission loop is going to do is in time. -/
structure Prompt (s : CommTask) : Prop where
  decided : ∀ time pc, s.mission = .acting time pc →
    pc = .locking .leaveTransmitterStateWhenIdle ∨ pc = .sending .leaveTransmitterStateWhenIdle →
    ∀ d ∈ s.shared.due, d ≤ time
  prompt : ∀ off ∈ s.turnedOff, ∀ d ∈ off.due, d ≤ off.time

theorem Prompt.step {e : Event} (h : Prompt s) (hinv : Inv s) (hok : KeepsIdle s e) (hs : step s e = some t) :
    Prompt t := by
  cases e with
  | call request =>
    simp only [CommTask.step, Option.ite_none_right_eq_some, Option.some.injEq] at hs
    obtain ⟨-, rfl⟩ := hs
    exact ⟨h.decided, h.prompt⟩
  | telecommand answer =>
    obtain ⟨pc, hpc, hs⟩ := Option.bind_eq_some_iff.1 hs
    obtain ⟨⟨shared, next⟩, hcall, rfl⟩ := Option.map_eq_some_iff.1 hs
    refine ⟨fun time pc' hmission hpc' d hd => ?_, h.prompt⟩
    rcases (callStep_called hcall).due with hdue | ⟨hanswer, d', hentering, hdue⟩
    · rw [hdue] at hd
      exact h.decided time pc' hmission hpc' d hd
    · -- an enter is accepted: the mission loop has not got the lock
      rw [hdue] at hd
      obtain rfl := Option.some.inj hd
      rcases hpc' with rfl | rfl
      · have hbind : s.telecommand.bind CallPc.entering = some d' := by
          rw [hpc]
          exact hentering
        refine hok hanswer d' hbind time ?_
        rw [show s.mission = _ from hmission]
        rfl
      · have hholds : pc.Holds := by
          cases pc with
          | locking request => exact absurd hentering.symm (Option.some_ne_none _)
          | _ => exact trivial
        have hcallMission : s.mission.call = some (.sending .leaveTransmitterStateWhenIdle) := by
          rw [show s.mission = _ from hmission]
          rfl
        exact absurd trivial (hinv.apart pc hpc hholds _ hcallMission)
  | cycle time =>
    simp only [CommTask.step, Option.ite_none_right_eq_some, Option.some.injEq] at hs
    obtain ⟨-, rfl⟩ := hs
    refine ⟨fun time' pc hmission => ?_, h.prompt⟩
    have hnot : (if s.shared.idleState then MissionPc.comparing time else .ready) ≠ .acting time' pc := by
      split <;> exact MissionPc.noConfusion
    exact absurd hmission hnot
  | mission answer =>
    rw [CommTask.step, missionStep] at hs
    split at hs
    · exact absurd hs.symm (Option.some_ne_none t)
    · rename_i time hmission
      obtain rfl := Option.some.inj hs
      refine ⟨fun time' pc hacting _ d hd => ?_, h.prompt⟩
      by_cases hle : s.shared.idleStateTurnOffTime ≤ time
      · have haction : MissionPc.acting time (.locking .leaveTransmitterStateWhenIdle) = .acting time' pc := by
          rw [← hacting]
          exact (if_pos hle).symm
        obtain ⟨rfl, -⟩ := MissionPc.acting.inj haction
        have hnone : s.mission.call.bind CallPc.unstored = none := by
          rw [hmission]
          rfl
        cases hunstored : s.telecommand.bind CallPc.unstored with
        | none =>
          -- the time that was read is that of the latest enter
          rw [← hinv.time hunstored hnone d hd]
          exact hle
        | some d' =>
          have hcompared : time ∈ s.mission.compared := by
            rw [hmission]
            rfl
          have hle' := hok time hcompared hle d' hunstored
          obtain ⟨pc', hpc', hd'⟩ := Option.bind_eq_some_iff.1 hunstored
          have hdue := (hinv.fits pc' hpc').time d' hd'
          have hsome : some d' = some d := hdue.symm.trans hd
          rwa [← Option.some.inj hsome]
      · have hready : MissionPc.ready = .acting time' pc := by
          rw [← hacting]
          exact (if_neg hle).symm
        exact MissionPc.noConfusion hready
    · rename_i time pc hmission
      obtain ⟨⟨shared, next⟩, hcall, rfl⟩ := Option.map_eq_some_iff.1 hs
      refine ⟨fun time' pc' hacting hpc' d hd => ?_, fun off hoff => ?_⟩
      · cases next with
        | none => exact MissionPc.noConfusion hacting
        | some next =>
          obtain ⟨rfl, rfl⟩ := MissionPc.acting.inj hacting
          have hcalled := callStep_called hcall
          rcases hpc' with rfl | rfl
          · -- no operation leads to the lock
            cases hcalled
          · cases hcalled with
            | locked request hfree => exact h.decided time _ hmission (Or.inl rfl) d hd
      · rcases List.mem_append.1 hoff with hold | hnew
        · exact h.prompt off hold
        · split at hnew
          · rename_i hsent
            rw [List.mem_singleton.1 hnew]
            exact h.decided time pc hmission (Or.inr hsent.1)
          · exact absurd hnew List.not_mem_nil

/-- **The idle state is not left early.** -/
theorem keptIdle_run {turnOffTime : ℤ} {es : List Event} (hrun : Run step KeepsIdle (init turnOffTime) es s) :
    KeptIdle s := by
  have hinit : Inv (init turnOffTime) ∧ Prompt (init turnOffTime) :=
    ⟨inv_init turnOffTime, fun _ _ hmission => MissionPc.noConfusion hmission, fun _ hoff => absurd hoff List.not_mem_nil⟩
  have hinv : Inv s ∧ Prompt s :=
    hrun.inv (I := fun u => Inv u ∧ Prompt u) hinit fun _ _ _ h hok hs => ⟨inv_step h.1 hs, h.2.step h.1 hok hs⟩
  exact ⟨hinv.2.prompt, agrees_run hrun⟩

/-! ## Switching off too early -/

/-- The idle state has been switched off before the turn-off time. -/
theorem not_keptIdle {time d : ℤ} (hoff : ⟨time, some d⟩ ∈ s.turnedOff) (hlt : ¬ d ≤ time) : ¬ KeptIdle s :=
  fun h => hlt (h.prompt _ hoff d rfl)

/-- An enter is accepted before the action gets the lock. -/
theorem early_of_entering {d time : ℤ} (htelecommand : s.telecommand = some (.sending (.enterTransmitterStateWhenIdle d)))
    (hmission : s.mission = .acting time (.locking .leaveTransmitterStateWhenIdle)) (hlt : ¬ d ≤ time) :
    ∃ es' s', Run step always s (.telecommand true :: es') s' ∧ ¬ KeptIdle s' := by
  obtain ⟨shared, telecommand, mission, turnedOff⟩ := s
  obtain rfl : telecommand = _ := htelecommand
  obtain rfl : mission = _ := hmission
  refine ⟨[.telecommand true, .telecommand true, .telecommand true, .mission true, .mission true], _,
    run_of_exec _ rfl, not_keptIdle ?_ hlt⟩
  exact List.mem_append_right _ (List.mem_singleton_self _)

/-- The condition reads the time before the enter has stored it. -/
theorem early_of_unstored {d time : ℤ} {pc : CallPc} (htelecommand : s.telecommand = some pc)
    (hunstored : pc.unstored = some d) (hdue : s.shared.due = some d) (hmission : s.mission = .comparing time)
    (hle : s.shared.idleStateTurnOffTime ≤ time) (hlt : ¬ d ≤ time) (answer : Bool) :
    ∃ es' s', Run step always s (.mission answer :: es') s' ∧ ¬ KeptIdle s' := by
  have hfirst : step s (.mission answer) =
      some { s with mission := .acting time (.locking .leaveTransmitterStateWhenIdle) } := by
    simp only [step, missionStep, hmission, if_pos hle]
  have hrun : Run step always s ([] ++ [.mission answer]) _ := .snoc .nil trivial hfirst
  obtain ⟨shared, telecommand, mission, turnedOff⟩ := s
  obtain rfl : telecommand = _ := htelecommand
  -- the telecommand ends its call, and the action gets the lock behind it
  cases pc with
  | settingFlag request =>
    cases request with
    | enterTransmitterStateWhenIdle d' =>
      refine ⟨[.telecommand true, .telecommand true, .telecommand true, .mission true, .mission true], _,
        hrun.trans (run_of_exec _ rfl), not_keptIdle ?_ hlt⟩
      rw [← hdue]
      exact List.mem_append_right _ (List.mem_singleton_self _)
    | leaveTransmitterStateWhenIdle => exact absurd hunstored.symm (Option.some_ne_none d)
  | settingTime d' =>
    refine ⟨[.telecommand true, .telecommand true, .mission true, .mission true], _,
      hrun.trans (run_of_exec _ rfl), not_keptIdle ?_ hlt⟩
    rw [← hdue]
    exact List.mem_append_right _ (List.mem_singleton_self _)
  | _ => exact absurd hunstored.symm (Option.some_ne_none d)

theorem CallPc.eq_of_entering {pc : CallPc} {d : ℤ} (h : pc.entering = some d) :
    pc = .sending (.enterTransmitterStateWhenIdle d) := by
  cases pc with
  | sending request =>
    cases request with
    | enterTransmitterStateWhenIdle d' => rw [Option.some.inj h]
    | leaveTransmitterStateWhenIdle => exact absurd h.symm (Option.some_ne_none d)
  | _ => exact absurd h.symm (Option.some_ne_none d)

theorem MissionPc.eq_of_decided {pc : MissionPc} {time : ℤ} (h : pc.decided = some time) :
    pc = .acting time (.locking .leaveTransmitterStateWhenIdle) := by
  cases pc with
  | acting time' call =>
    cases call with
    | locking request =>
      cases request with
      | leaveTransmitterStateWhenIdle => rw [Option.some.inj h]
      | enterTransmitterStateWhenIdle d => exact absurd h.symm (Option.some_ne_none time)
    | _ => exact absurd h.symm (Option.some_ne_none time)
  | _ => exact absurd h.symm (Option.some_ne_none time)

theorem MissionPc.eq_of_compared {pc : MissionPc} {time : ℤ} (h : pc.compared = some time) : pc = .comparing time := by
  cases pc with
  | comparing time' => rw [Option.some.inj h]
  | _ => exact absurd h.symm (Option.some_ne_none time)

/-- Where the condition fails the idle state can be left early. -/
theorem early_of_not_keepsIdle {turnOffTime : ℤ} {es : List Event} {e : Event}
    (hrun : Run step always (init turnOffTime) es s) (hnot : ¬ KeepsIdle s e) :
    ∃ es' s', Run step always s (e :: es') s' ∧ ¬ KeptIdle s' := by
  cases e with
  | call request => exact absurd trivial hnot
  | cycle time => exact absurd trivial hnot
  | telecommand answer =>
    simp only [KeepsIdle, not_forall] at hnot
    obtain ⟨rfl, d, hd, time, htime, hlt⟩ := hnot
    obtain ⟨pc, hpc, hentering⟩ := Option.bind_eq_some_iff.1 hd
    have htelecommand := CallPc.eq_of_entering hentering
    have hmission := MissionPc.eq_of_decided htime
    exact early_of_entering (hpc.trans (congrArg some htelecommand)) hmission hlt
  | mission answer =>
    simp only [KeepsIdle, not_forall] at hnot
    obtain ⟨time, htime, hle, d, hd, hlt⟩ := hnot
    obtain ⟨pc, hpc, hunstored⟩ := Option.bind_eq_some_iff.1 hd
    -- what the call has still to store is what the transmitter has accepted last
    have hdue := ((inv_run hrun).fits pc hpc).time d hunstored
    have hmission := MissionPc.eq_of_compared htime
    exact early_of_unstored hpc hunstored hdue hmission hle hlt answer

/-- Entered until 5 s, and left at 6 s. -/
theorem keptIdle_run_once : ∃ s, Run step KeepsIdle (init 0)
    [.call (.enterTransmitterStateWhenIdle 5000), .telecommand true, .telecommand true, .telecommand true,
      .telecommand true, .telecommand true, .cycle 1000, .mission true, .cycle 6000, .mission true, .mission true,
      .mission true, .mission true, .mission true] s ∧ KeptIdle s := by
  have hrun : Run step KeepsIdle (init 0) [.call (.enterTransmitterStateWhenIdle 5000), .telecommand true,
    .telecommand true, .telecommand true, .telecommand true, .telecommand true, .cycle 1000, .mission true,
    .cycle 6000, .mission true, .mission true, .mission true, .mission true, .mission true] _ :=
    run_of_exec _ (show exec step KeepsIdle (init 0) _ = some ⟨⟨false, 5000, true, false, some 5000⟩, none, .ready,
      [⟨6000, some 5000⟩]⟩ by decide +kernel)
  exact ⟨_, hrun, keptIdle_run hrun⟩

/-- The turn-off time is 10 s now, the one in the condition was 5 s. -/
theorem not_keptIdle_entered : ∃ s, Run step always (init 0)
    [.call (.enterTransmitterStateWhenIdle 5000), .telecommand true, .telecommand true, .telecommand true,
      .telecommand true, .telecommand true, .cycle 6000, .mission true,
      .call (.enterTransmitterStateWhenIdle 10000), .telecommand true, .telecommand true, .telecommand true,
      .telecommand true, .telecommand true, .mission true, .mission true] s ∧ ¬ KeptIdle s := by
  apply exists_run_of_exec
  refine ⟨_, rfl, not_keptIdle (d := 10000) (List.mem_singleton_self _) (by decide)⟩

end CommTask

end PWSat2OBC
