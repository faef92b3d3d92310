import PWSat2OBC.Spec.ErrorCounter
import PWSat2OBC.Spec.ErrorCounterConfig

/-!
# FDIR (`libs/obc/fdir/fdir.cpp`, `libs/error_counter/Include/error_counter/error_counter.hpp`,
`libs/mission/fdir/SaveErrorCountersConfig.cpp`)

A driver reports the operations of a scope as one success or failure of its device. The counter of the
device moves by what the configuration says, and from the limit on a failure power cycles the
satellite, unless the device is masked. The counters are the ones of `Spec/ErrorCounter`: `n` threads
take their atomic operations.
-/

namespace PWSat2OBC

open State

/-! ## Reporters -/

/-- `AggregatedErrorCounter`. -/
structure AggregatedErrorCounter where
  errorCount : BitVec 32
deriving DecidableEq

namespace AggregatedErrorCounter

/-- `AggregatedErrorCounter()`. -/
def init : AggregatedErrorCounter := ⟨0⟩

/-- `Failure`. -/
def failure (c : AggregatedErrorCounter) : AggregatedErrorCounter := ⟨c.errorCount + 1⟩

/-- `GetAggregatedResult`. -/
def getAggregatedResult (c : AggregatedErrorCounter) : Bool := c.errorCount == 0

/-- `flag >> counter`. -/
def report (c : AggregatedErrorCounter) (flag : Bool) : AggregatedErrorCounter :=
  if flag then c else c.failure

/-- What `ReportResult` finds at the end of a scope with these results. -/
def ofResults (results : List Bool) : AggregatedErrorCounter := results.foldl report init

end AggregatedErrorCounter

namespace SetErrorCounterConfig

/-- `GetLimit`. -/
def getLimit (config : BitVec 32) : Byte := ((config &&& 0x0000FF) >>> 0).setWidth 8

/-- `GetIncrement`. -/
def getIncrement (config : BitVec 32) : Byte := ((config &&& 0x00FF00) >>> 8).setWidth 8

/-- `GetDecrement`. -/
def getDecrement (config : BitVec 32) : Byte := ((config &&& 0xFF0000) >>> 16).setWidth 8

end SetErrorCounterConfig

open SetErrorCounterConfig

/-! ## FDIR -/

/-- `FDIR`, with the devices for which `PowerCycle` has been called. -/
structure Fdir (n : ℕ) where
  configuration : Vector (BitVec 32) maxDevices
  /-- `_errorCounting`. -/
  errorCounting : Fin maxDevices → ErrorCounting n
  maskedDevices : BitVec 16
  powerCycles : List (Fin maxDevices)

/-- What happens around it. -/
inductive FdirEvent (n : ℕ)
  /-- A thread leaves the scope of a reporter. -/
  | report (thread : Fin n) (device : Fin maxDevices) (results : List Bool)
  /-- The next atomic operation of a thread in a call for the device. -/
  | resume (thread : Fin n) (device : Fin maxDevices)
  /-- `Set`. -/
  | set (device : Fin maxDevices) (limit increment decrement : Byte)
  /-- `LoadConfig`. -/
  | loadConfig (config : Vector (BitVec 32) maxDevices)

namespace Fdir

variable {n : ℕ}

/-- `GetErrorCounterMask` of `src/obc.cpp`: all devices but COMM and EPS. -/
def getErrorCounterMask : BitVec 16 :=
  1 <<< 2 ||| 1 <<< 3 ||| 1 <<< 4 ||| 1 <<< 5 ||| 1 <<< 6 ||| 1 <<< 7 ||| 1 <<< 8 ||| 1 <<< 9 |||
    1 <<< 10 ||| 1 <<< 11 ||| 1 <<< 12 ||| 1 <<< 13

/-- The constructor and `Initalize`. -/
def init (n : ℕ) (maskedDevices : BitVec 16) : Fdir n :=
  ⟨Vector.replicate maxDevices (config 128 5 2), fun _ => ErrorCounting.init n, maskedDevices, []⟩

variable (s : Fdir n)

/-- `Limit`. -/
def limit (device : Fin maxDevices) : Byte := getLimit s.configuration[device]

/-- `Increment`. -/
def increment (device : Fin maxDevices) : Byte := getIncrement s.configuration[device]

/-- `Decrement`. -/
def decrement (device : Fin maxDevices) : Byte := getDecrement s.configuration[device]

/-- The flag of the device is set. -/
def IsMasked (maskedDevices : BitVec 16) (device : Fin maxDevices) : Prop :=
  maskedDevices &&& 1 <<< device.val = 1 <<< device.val

instance (maskedDevices : BitVec 16) (device : Fin maxDevices) : Decidable (IsMasked maskedDevices device) :=
  inferInstanceAs (Decidable (_ = _))

/-- `LimitReached`; the count is only logged. -/
def limitReached (device : Fin maxDevices) (_errorsCount : Byte) : Fdir n :=
  if IsMasked s.maskedDevices device then s
  else { s with powerCycles := s.powerCycles ++ [device] }

/-- `ReportResult`: the call of the counter that a scope ends with. -/
def reportResult (device : Fin maxDevices) (results : List Bool) : CounterCall :=
  if (AggregatedErrorCounter.ofResults results).getAggregatedResult then .success (s.decrement device)
  else .failure (s.increment device) (s.limit device)

/-- An atomic operation of the counter of a device, with the calls of the callback in it. -/
def counted (device : Fin maxDevices) (e : CounterEvent n) : Option (Fdir n) :=
  ((s.errorCounting device).step e).map fun counting =>
    (counting.limitReached.drop (s.errorCounting device).limitReached.length).foldl
      (fun s errorsCount => s.limitReached device errorsCount)
      { s with errorCounting := Function.update s.errorCounting device counting }

/-- One event. A thread is in one call at a time. -/
def step (s : Fdir n) : FdirEvent n → Option (Fdir n)
  | .report thread device results =>
    if ∀ d, (s.errorCounting d).threads thread = .idle then
      s.counted device (.call thread (s.reportResult device results))
    else none
  | .resume thread device => s.counted device (.resume thread)
  | .set device limit increment decrement =>
    some { s with configuration := s.configuration.set device (config limit increment decrement) }
  | .loadConfig config => some { s with configuration := config }

/-- Calls for one device do not overlap, and its configuration is not set during one. The calls for
different devices may overlap. -/
def Apart (s : Fdir n) : FdirEvent n → Prop
  | .report _ device results => (s.errorCounting device).Finished ∧ results.length < 2 ^ 32
  | .resume _ _ => True
  | .set device _ _ _ => (s.errorCounting device).Finished
  | .loadConfig _ => ∀ device, (s.errorCounting device).Finished

instance (s : Fdir n) : (e : FdirEvent n) → Decidable (Apart s e)
  | .report _ device results =>
    inferInstanceAs (Decidable ((s.errorCounting device).Finished ∧ results.length < 2 ^ 32))
  | .resume _ _ => inferInstanceAs (Decidable True)
  | .set device _ _ _ => inferInstanceAs (Decidable (s.errorCounting device).Finished)
  | .loadConfig _ => inferInstanceAs (Decidable (∀ device, (s.errorCounting device).Finished))

/-! ## Configurations -/

/-- What the configuration says about a device. -/
structure Rates where
  limit : Byte
  increment : Byte
  decrement : Byte
deriving DecidableEq

/-- The rates in the table. -/
def ratesOf (configuration : Vector (BitVec 32) maxDevices) (device : Fin maxDevices) : Rates :=
  ⟨getLimit configuration[device], getIncrement configuration[device], getDecrement configuration[device]⟩

/-- The rates of all devices after an event. -/
def configured (rates : Fin maxDevices → Rates) : FdirEvent n → Fin maxDevices → Rates
  | .set device limit increment decrement => Function.update rates device ⟨limit, increment, decrement⟩
  | .loadConfig config => ratesOf config
  | _ => rates

/-- The scopes of a device in some events, as calls of its counter: a failure exactly if one of the
results is one, with the rates that have been set last. -/
def reports (device : Fin maxDevices) : (Fin maxDevices → Rates) → List (FdirEvent n) → List CounterCall
  | _, [] => []
  | rates, .report _ d results :: es =>
    (if d = device then
      [if false ∈ results then .failure (rates device).increment (rates device).limit
        else .success (rates device).decrement]
    else []) ++ reports device rates es
  | rates, e :: es => reports device (configured rates e) es

/-- What a call adds. -/
def net : CounterCall → ℤ
  | .failure increment _ => increment.toNat
  | .success decrement => -decrement.toNat

/-- In a window of consecutive reports that ends with a failure the increments outweigh the decrements
by the limit. -/
def WindowReaches (cs : List CounterCall) : Prop :=
  ∃ earlier window increment limit later, cs = earlier ++ window ++ .failure increment limit :: later ∧
    (limit.toNat : ℤ) ≤ (window.map net).sum + increment.toNat

/-! ## The configuration in the persistent state -/

/-- `GetConfig`. -/
def getConfig : Vector (BitVec 32) maxDevices := s.configuration

end Fdir

end PWSat2OBC
