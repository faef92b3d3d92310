import PWSat2OBC.Spec.Fdir
import PWSat2OBC.Spec.I2C

/-!
# Errors of the I2C buses (`libs/drivers/i2c/error_handling.cpp`, `libs/obc/hardware/hardware.cpp`,
`libs/power/power_eps/power_eps.cpp`, `libs/drivers/eps/eps.cpp`)

A latched bus makes the error handler order a power cycle, and the power cycle writes to the EPS over
the same two buses and counts a failure of the EPS for each write. At the limit of its counter `FDIR`
orders a power cycle too. Each function takes the one it calls as an argument; `powerCycles` ties the
knot, with a bound on how many power cycles there are inside each other. The results of the low-level
transfers are given, in the order of the transfers, and the power stays on.

`transfers`, `depth` and `maxDepth` record the transfers and how many power cycles are being
executed; the program does not read them.
-/

namespace PWSat2OBC

/-- The two buses: `Peripherals[I2C::SystemBus]` and `Peripherals[I2C::PayloadBus]`. -/
inductive I2CBus
  | system
  | payload
deriving DecidableEq, Repr

/-- `EPSDriver::Controller`. -/
inductive EPSController
  | a
  | b
deriving DecidableEq, Repr

namespace EPSController

/-- The bus of the controller, as `OBCHardware` sets up the driver. -/
def bus : EPSController → I2CBus
  | a => .system
  | b => .payload

def other : EPSController → EPSController
  | a => b
  | b => a

end EPSController

/-- What the calls read and change. -/
structure BusErrors where
  lastPowerCycleOn : EPSController
  /-- The error counter of the EPS. -/
  counter : ℤ
  /-- What `FDIR` is configured to return for the EPS. -/
  increment : Byte
  limit : Byte
  transfers : List I2CBus
  depth : ℕ
  maxDepth : ℕ
deriving DecidableEq, Repr

namespace BusErrors

/-- With no power cycle being executed and no call of the counter under way. -/
def idle (lastPowerCycleOn : EPSController) (counter increment limit : Byte) (transfers : List I2CBus) :
    BusErrors :=
  ⟨lastPowerCycleOn, counter.toNat, increment, limit, transfers, 0, 0⟩

/-- `ErrorCounting::Failure` up to the comparison with the limit: `fetch_add`, and the overflow is
taken off again. -/
def count (s : BusErrors) : BusErrors :=
  let sum := s.counter + s.increment.toNat
  let overflow := sum - ErrorCounting.maxValue
  let s := { s with counter := ErrorCounting.internal sum }
  if 0 < overflow then { s with counter := ErrorCounting.internal (s.counter - overflow) } else s

end BusErrors

namespace I2CErrorHandling

open State

/-- A call that may not return. -/
abbrev Procedure (α : Type) := BusErrors → Option (α × BusErrors)

/-- A transfer of `I2CLowLevelBus`. -/
def lowLevel (results : ℕ → I2CResult) (bus : I2CBus) : Procedure I2CResult := fun s =>
  some (results s.transfers.length, { s with transfers := s.transfers ++ [bus] })

/-- `I2CErrorHandlingBus::Write`, `Read` and `WriteRead`, with the transfer of the inner bus. -/
def transfer (inner : Procedure I2CResult) (errorHandler : Option (I2CResult → Procedure I2CResult)) :
    Procedure I2CResult := fun s =>
  (inner s).bind fun (result, s) =>
    if result = .ok then some (result, s)
    else
      match errorHandler with
      | none => some (result, s)
      | some handler => handler result s

/-- `I2CSingleBus::I2CErrorHandler`. -/
def i2cErrorHandler (powerCycle : Procedure Unit) (result : I2CResult) : Procedure I2CResult := fun s =>
  if result = .lineLatched then (powerCycle s).map fun (_, s) => (result, s) else some (result, s)

theorem epsDevice_lt : 1 < maxDevices := by decide

/-- `devices::eps::EPSDriver::ErrorCounter::DeviceId`. -/
def epsDevice : Fin maxDevices := ⟨1, epsDevice_lt⟩

/-- `FDIR::LimitReached` for the EPS, with the mask the program sets up. -/
def limitReached (powerCycle : Procedure Unit) : Procedure Unit := fun s =>
  if Fdir.IsMasked Fdir.getErrorCounterMask epsDevice then some ((), s) else powerCycle s

/-- `ErrorCounting::Failure` for the EPS. -/
def failure (powerCycle : Procedure Unit) : Procedure Unit := fun s =>
  if (s.limit.toNat : ℤ) ≤ s.counter + s.increment.toNat then limitReached powerCycle s.count
  else some ((), s.count)

/-- `EPSDriver::PowerCycle`. It waits behind a successful write, and counts a failure in any case. -/
def epsPowerCycle (failure : Procedure Unit) (write : EPSController → Procedure I2CResult)
    (controller : EPSController) : Procedure Bool := fun s =>
  (write controller s).bind fun (_, s) => (failure s).map fun (_, s) => (false, s)

/-- `EPSPowerControl::PowerCycle`. -/
def powerCycle (eps : EPSController → Procedure Bool) : Procedure Unit := fun s =>
  let first := s.lastPowerCycleOn.other
  let s := { s with lastPowerCycleOn := first, depth := s.depth + 1, maxDepth := max s.maxDepth (s.depth + 1) }
  (eps first s).bind fun (_, s) =>
    (eps first.other s).map fun (_, s) => ((), { s with depth := s.depth - 1 })

/-- A transfer on one of the buses, with the power cycle that a latched bus starts. -/
def busTransfer (results : ℕ → I2CResult) (powerCycle : Procedure Unit) (bus : I2CBus) : Procedure I2CResult :=
  transfer (lowLevel results bus) (some (i2cErrorHandler powerCycle))

/-- A power cycle of the program, with at most `fuel` power cycles inside each other. -/
def powerCycles (results : ℕ → I2CResult) : ℕ → Procedure Unit
  | 0 => fun _ => none
  | fuel + 1 =>
    let inner := powerCycles results fuel
    powerCycle (epsPowerCycle (failure inner) fun controller => busTransfer results inner controller.bus)

end I2CErrorHandling

end PWSat2OBC
