import PWSat2OBC.Lib.Runs

/-!
# Time counters and the scrubber task (`libs/base/Include/base/time_counter.hpp`,
`libs/obc/scrubbing/scrubbing.cpp`)

Down counters that share one sleep: `SleepTime` is the least of them, `Step` counts all of
them down by it, `DoOnBottom` calls those at zero and reloads them. Zero stands for both
"just fired" and "not reloaded yet". Times are in milliseconds.

The scrubber task waits for the sleep time or for a `RunOnce` request, whichever is first,
and then steps its five counters by the whole sleep time: "Run scrubbing once" runs the
scrubbers that are next at once.
-/

namespace PWSat2OBC

/-- The template parameters `StartDelay` and `Period` of a `TimeCounter`. -/
structure CounterKind where
  startDelay : ℕ
  period : ℕ
  startDelay_pos : 0 < startDelay
  period_pos : 0 < period

/-- `TimeCounter`: `value` is the remaining time. -/
structure TimeCounter where
  kind : CounterKind
  value : ℕ

namespace TimeCounter

/-- The constructors. -/
def create (kind : CounterKind) : TimeCounter := ⟨kind, kind.startDelay⟩

/-- `TimeToZero`. -/
def timeToZero (c : TimeCounter) : ℕ := c.value

/-- `Step` of a counter that is not at zero. -/
def stepDown (c : TimeCounter) (delta : ℕ) : TimeCounter :=
  if c.value < delta then { c with value := 0 } else { c with value := c.value - delta }

/-- `Step`. A counter at zero is reloaded and stepped; the period is not zero, so the nested
call takes another branch. -/
def step (c : TimeCounter) (delta : ℕ) : TimeCounter :=
  if c.value = 0 then stepDown { c with value := c.kind.period } delta else stepDown c delta

/-- `DoOnBottom`: whether the callback was invoked, and the counter afterwards. -/
def doOnBottom (c : TimeCounter) : Bool × TimeCounter :=
  if c.value = 0 then (true, { c with value := c.kind.period }) else (false, c)

/-- `SleepTime`. There is at least one counter; the value for none is not used. -/
def sleepTime : List TimeCounter → ℕ
  | [] => 0
  | c :: cs => cs.foldl (fun m d => min m d.timeToZero) c.timeToZero

/-- `Step` of all counters. -/
def stepAll (delta : ℕ) (cs : List TimeCounter) : List TimeCounter := cs.map fun c => c.step delta

/-- What repeating `SleepTime`, `Step` and `DoOnBottom` has done so far: the counters, the
sum of the sleep times and which callbacks the last round invoked. -/
structure Rounds where
  counters : List TimeCounter
  elapsed : ℕ
  fired : List Bool

/-- `SleepTime`, `Step` by that time and `DoOnBottom`. -/
def Rounds.round (r : Rounds) : Rounds :=
  let delta := sleepTime r.counters
  let bottoms := (stepAll delta r.counters).map doOnBottom
  { counters := bottoms.map Prod.snd
    elapsed := r.elapsed + delta
    fired := bottoms.map Prod.fst }

/-- After `n` rounds with counters of these kinds. -/
def afterRounds (kinds : List CounterKind) : ℕ → Rounds
  | 0 => ⟨kinds.map create, 0, []⟩
  | n + 1 => (afterRounds kinds n).round

end TimeCounter

open TimeCounter in
/-- The scrubber task in front of its wait. `slept` is the time it has really slept. -/
structure OBCScrubbing where
  rounds : Rounds
  slept : ℕ
  iterationsCount : BitVec 32
  runOnceRequested : Bool
  runOnceFinished : Bool

/-- What happens to the task: a `RunOnce` sets its request, a wait ends at its time-out, or a
request ends it after `slept`. -/
inductive ScrubberEvent
  | runOnce
  | timeout
  | woken (slept : ℕ)
deriving DecidableEq

namespace OBCScrubbing

/-- A delay and a period in minutes. -/
def minutes (startDelay period : ℕ) (hs : 0 < startDelay) (hp : 0 < period) : CounterKind :=
  ⟨startDelay * 60000, period * 60000, by omega, by omega⟩

/-- The counters of the primary slots, the secondary slots, the boot loader, safe mode and
the boot settings. -/
def scrubbers : List CounterKind :=
  [minutes 1 7 (by decide) (by decide), minutes 2 7 (by decide) (by decide),
    minutes 1 8 (by decide) (by decide), minutes 2 8 (by decide) (by decide),
    minutes 15 30 (by decide) (by decide)]

/-- After `InitializeRunlevel2`. -/
def init : OBCScrubbing where
  rounds := TimeCounter.afterRounds scrubbers 0
  slept := 0
  iterationsCount := 0
  runOnceRequested := false
  runOnceFinished := false

/-- The body of `ScrubberTask` for a wait that took `slept`; `f` is whether it returned the
request. -/
def iteration (s : OBCScrubbing) (slept : ℕ) (f : Bool) : OBCScrubbing where
  rounds := s.rounds.round
  slept := s.slept + slept
  iterationsCount := s.iterationsCount + 1
  runOnceRequested := false
  runOnceFinished := if f then true else s.runOnceFinished

def step (s : OBCScrubbing) : ScrubberEvent → Option OBCScrubbing
  | .runOnce => some { s with runOnceRequested := true, runOnceFinished := false }
  | .timeout =>
    if s.runOnceRequested then none
    else some (s.iteration (TimeCounter.sleepTime s.rounds.counters) false)
  | .woken slept =>
    if s.runOnceRequested ∧ slept ≤ TimeCounter.sleepTime s.rounds.counters then
      some (s.iteration slept true)
    else none

end OBCScrubbing

end PWSat2OBC
