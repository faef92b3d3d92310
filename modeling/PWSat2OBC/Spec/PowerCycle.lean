import PWSat2OBC.Spec.ExperimentController

/-!
# The periodic power cycle (`libs/mission/power/power_cycle.cpp`,
`libs/obc/scrubbing/scrubbing.cpp`)

The mission loop evaluates the condition of each task and runs the actions afterwards; scrubbers and
experiments begin and end at any time, and the clock ticks, is corrected and is set. The tasks hear of
corrections only. The clock shows `uptime + jumps + correction`. Times are in milliseconds.

`bootedAt`, `evaluatedAt` and `cycles` record when the condition was evaluated first and last and what
was going on at each power cycle; the program does not read them.
-/

namespace PWSat2OBC

/-- The scrubbers of `OBCScrubbing` that have a flag. The one of the boot settings has none. -/
inductive ScrubberKind
  | primarySlots
  | secondarySlots
  | bootloader
  | safeMode
deriving DecidableEq, Repr

/-- The flags `_inProgress` of the scrubbers. -/
abbrev ScrubberFlags := ScrubberKind → Bool

namespace OBCScrubbing

def bootloaderInProgress (flags : ScrubberFlags) : Bool := flags .bootloader
def primarySlotsInProgress (flags : ScrubberFlags) : Bool := flags .primarySlots
def failsafeSlotsInProgress (flags : ScrubberFlags) : Bool := flags .secondarySlots
def safeModeInProgress (flags : ScrubberFlags) : Bool := flags .secondarySlots

end OBCScrubbing

/-- What is going on at a power cycle. `passed` is the mission time from the first loop iteration to
the present one, net of corrections. -/
structure PowerCycled where
  scrubbing : ScrubberFlags
  currentExperiment : Option ExperimentCode
  passed : Option ℤ

/-- The task and what it looks at. -/
structure PeriodicPowerCycle where
  bootTime : Option ℤ
  /-- The condition was true, and the action comes next. -/
  runnable : Bool
  scrubbing : ScrubberFlags
  currentExperiment : Option ExperimentCode
  uptime : ℕ
  /-- What `SetTime` has moved the clock by. -/
  jumps : ℤ
  correction : ℤ
  bootedAt : Option ℤ
  evaluatedAt : ℤ
  cycles : List PowerCycled

namespace PeriodicPowerCycle

/-- `PowerCycleTime`, 23 hours. -/
def powerCycleTime : ℤ := 82800000

/-- After the start, with nothing in progress. The clock shows `time`. -/
def init (time : ℤ) : PeriodicPowerCycle where
  bootTime := none
  runnable := false
  scrubbing := fun _ => false
  currentExperiment := none
  uptime := 0
  jumps := 0
  correction := time
  bootedAt := none
  evaluatedAt := 0
  cycles := []

/-- The mission time net of corrections. -/
def elapsed (s : PeriodicPowerCycle) : ℤ := s.uptime + s.jumps

/-- The mission time. -/
def time (s : PeriodicPowerCycle) : ℤ := s.elapsed + s.correction

/-- `PeriodicPowerCycleTask::Condition`, once the boot time is known. -/
def permits (s : PeriodicPowerCycle) (bootTime : ℤ) : Bool :=
  if s.time - bootTime < powerCycleTime then false
  else if OBCScrubbing.bootloaderInProgress s.scrubbing then false
  else if OBCScrubbing.primarySlotsInProgress s.scrubbing then false
  else if OBCScrubbing.failsafeSlotsInProgress s.scrubbing then false
  else if OBCScrubbing.safeModeInProgress s.scrubbing then false
  else if s.currentExperiment.isSome then false
  else true

/-- `PeriodicPowerCycleTask::Condition`. -/
def condition (s : PeriodicPowerCycle) : Bool × PeriodicPowerCycle :=
  match s.bootTime with
  | none => (false, { s with bootTime := some s.time, bootedAt := some s.elapsed })
  | some bootTime => (s.permits bootTime, s)

/-- `PeriodicPowerCycleTask::Action`. -/
def action (s : PeriodicPowerCycle) : PeriodicPowerCycle :=
  { s with cycles := s.cycles ++ [⟨s.scrubbing, s.currentExperiment, s.bootedAt.map (s.evaluatedAt - ·)⟩] }

/-- What happens next. -/
inductive Event
  | tick (milliseconds : ℕ)
  | timeChanged (timeCorrection : ℤ)
  /-- `SetTimeTelecommand` sets the clock, and notifies nobody. -/
  | setTime (time : ℤ)
  /-- The mission loop evaluates the condition. -/
  | evaluate
  /-- The mission loop runs the action. -/
  | execute
  | begins (scrubber : ScrubberKind)
  | ends (scrubber : ScrubberKind)
  /-- An experiment becomes the current one, or none. -/
  | experiment (current : Option ExperimentCode)
deriving DecidableEq, Repr

/-- One step. -/
def step (s : PeriodicPowerCycle) : Event → Option PeriodicPowerCycle
  | .tick milliseconds => some { s with uptime := s.uptime + milliseconds }
  | .timeChanged timeCorrection =>
    some { s with
      correction := s.correction + timeCorrection
      bootTime := s.bootTime.map (· + timeCorrection) }
  | .setTime time => some { s with jumps := s.jumps + (time - s.time) }
  | .evaluate =>
    if s.runnable then none
    else
      let (runnable, s) := s.condition
      some { s with runnable := runnable, evaluatedAt := s.elapsed }
  | .execute => if s.runnable then some { s.action with runnable := false } else none
  | .begins scrubber => some { s with scrubbing := Function.update s.scrubbing scrubber true }
  | .ends scrubber => some { s with scrubbing := Function.update s.scrubbing scrubber false }
  | .experiment current => some { s with currentExperiment := current }

end PeriodicPowerCycle

end PWSat2OBC
