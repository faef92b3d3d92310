import Mathlib.Tactic
import PWSat2OBC.Lib.Runs
import PWSat2OBC.Spec.Redundancy

/-!
# Error counters (`libs/error_counter/error_counter.cpp`)

The counter of one device is a 16-bit atomic that should stay in a byte. A call adds or
subtracts first and corrects the counter in a second atomic operation, by an amount that
follows from what the first one has read. The calls of `n` threads interleave at the atomic
operations.
-/

namespace PWSat2OBC

/-- A call of `IErrorCounting`, by the id of the device. -/
inductive ErrorReport
  | failure (device : Byte)
  | success (device : Byte)
deriving DecidableEq, Repr

/-- A call of `ErrorCounting` with what the configuration of the device returns during it. -/
inductive CounterCall
  | failure (increment limit : Byte)
  | success (decrement : Byte)
deriving DecidableEq, Repr

namespace ErrorCounting

/-- `std::numeric_limits<CounterValue>::max()`. -/
def maxValue : ℤ := 255

/-- Conversion to `InternalCounterValue`, 16 bits with a sign. -/
def internal (x : ℤ) : ℤ := x.bmod 65536

/-- Where a thread is in a call. -/
inductive Pc
  | idle
  /-- `this->_counters[device] -= overflow` is next, `sum` is `prev + increment`. -/
  | subtract (overflow sum : ℤ) (limit : Byte)
  /-- The limit is reached and the counter is read for `LimitReached`. -/
  | report
  /-- `this->_counters[device] += amount` is next. -/
  | add (amount : ℤ)
deriving DecidableEq, Repr

/-- The comparison with the limit. -/
def checkLimit (sum : ℤ) (limit : Byte) : Pc := if (limit.toNat : ℤ) ≤ sum then .report else .idle

/-- The first atomic operation of a call: the counter, and where the thread goes on. -/
def start (counter : ℤ) : CounterCall → ℤ × Pc
  | .failure increment limit =>
    let sum := counter + increment.toNat
    let overflow := sum - maxValue
    (internal sum, if 0 < overflow then .subtract overflow sum limit else checkLimit sum limit)
  | .success decrement =>
    (internal (counter - decrement.toNat),
      if counter < decrement.toNat then .add (decrement.toNat - counter) else .idle)

/-- The next atomic operation of a thread in a call: the counter, where it goes on, and the
argument of `LimitReached`. -/
def resume (counter : ℤ) : Pc → Option (ℤ × Pc × List Byte)
  | .idle => none
  | .subtract overflow sum limit => some (internal (counter - overflow), checkLimit sum limit, [])
  | .report => some (counter, .idle, [BitVec.ofInt 8 counter])
  | .add amount => some (internal (counter + amount), .idle, [])

end ErrorCounting

/-- The counter of a device, the `n` threads and the calls of the callback so far. -/
structure ErrorCounting (n : ℕ) where
  counter : ℤ
  threads : Fin n → ErrorCounting.Pc
  limitReached : List Byte

/-- A thread makes a call, or takes the next atomic operation of its call. -/
inductive CounterEvent (n : ℕ)
  | call (thread : Fin n) (c : CounterCall)
  | resume (thread : Fin n)
deriving DecidableEq, Repr

namespace CounterEvent

variable {n : ℕ}

/-- The thread that takes the step. -/
def thread : CounterEvent n → Fin n
  | call t _ => t
  | resume t => t

/-- The call that begins. -/
def begins : CounterEvent n → Option CounterCall
  | call _ c => some c
  | resume _ => none

end CounterEvent

namespace ErrorCounting

variable {n : ℕ}

/-- The constructor, with the callback attached. -/
def init (n : ℕ) : ErrorCounting n := ⟨0, fun _ => .idle, []⟩

/-- No thread is in a call. -/
def Finished (s : ErrorCounting n) : Prop := ∀ t, s.threads t = .idle

instance (s : ErrorCounting n) : Decidable s.Finished :=
  inferInstanceAs (Decidable (∀ t, s.threads t = .idle))

/-- One atomic operation. -/
def step (s : ErrorCounting n) : CounterEvent n → Option (ErrorCounting n)
  | .call t c =>
    if s.threads t = .idle then
      let (counter, pc) := start s.counter c
      some { s with counter := counter, threads := Function.update s.threads t pc }
    else none
  | .resume t =>
    (ErrorCounting.resume s.counter (s.threads t)).map fun (counter, pc, reached) =>
      { s with
        counter := counter, threads := Function.update s.threads t pc,
        limitReached := s.limitReached ++ reached }

/-- `Current`. -/
def current (s : ErrorCounting n) : Byte := BitVec.ofInt 8 s.counter

/-! ## Saturating counters -/

/-- A call on a counter that saturates at 0 and 255. -/
def saturate (value : ℕ) : CounterCall → ℕ
  | .failure increment _ => min 255 (value + increment.toNat)
  | .success decrement => value - decrement.toNat

/-- The calls begun in a run. -/
def calls (es : List (CounterEvent n)) : List CounterCall := es.filterMap CounterEvent.begins

/-- The `LimitReached` call after a call: a failure that leaves a saturating counter at or above
the limit. -/
def limitAfter (value : ℕ) : CounterCall → List Byte
  | .failure increment limit =>
    let value' := saturate value (.failure increment limit)
    if limit.toNat ≤ value' then [BitVec.ofNat 8 value'] else []
  | .success _ => []

/-- All the `LimitReached` calls of a saturating counter. -/
def limits (value : ℕ) : List CounterCall → List Byte
  | [] => []
  | c :: cs => limitAfter value c ++ limits (saturate value c) cs

end ErrorCounting

end PWSat2OBC
