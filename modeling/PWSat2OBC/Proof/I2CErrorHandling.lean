import Mathlib.Tactic
import PWSat2OBC.Spec.I2CErrorHandling

/-!
# Power cycles inside power cycles

A latched bus is answered with a power cycle. Its writes to the EPS go over buses with the same
handler, so that a write that ends with a latched bus starts the next power cycle inside the first.
It also counts two failures of the EPS, and at the limit of the counter the next one starts as well.

* `bounded_iff`: one transfer leads to a finite chain of calls with at most one power cycle at a
  time if and only if neither of the two writes of that power cycle ends with a latched bus and
  neither of the two failures reaches the limit.
* `powerCycles_latched`, `powerCycles_limit`: when every transfer ends with a latched bus, or the
  counter is at its limit, the calls never return.
-/

namespace PWSat2OBC

namespace I2CErrorHandling

variable {results : ℕ → I2CResult}

/-- A transfer returns, and at most one power cycle has been executed at a time. -/
def Bounded (results : ℕ → I2CResult) (bus : I2CBus) (s : BusErrors) : Prop :=
  ∃ fuel result t, busTransfer results (powerCycles results fuel) bus s = some (result, t) ∧ t.maxDepth ≤ 1

/-! ## One call -/

/-- The state in which the EPS driver is called. -/
def begun (s : BusErrors) : BusErrors :=
  { s with
    lastPowerCycleOn := s.lastPowerCycleOn.other
    depth := s.depth + 1
    maxDepth := max s.maxDepth (s.depth + 1) }

/-- One more transfer. -/
def transferred (s : BusErrors) (bus : I2CBus) : BusErrors := { s with transfers := s.transfers ++ [bus] }

/-- The transfer that comes next ends with a latched bus. -/
def Latches (results : ℕ → I2CResult) (s : BusErrors) : Prop := results s.transfers.length = .lineLatched

/-- The next failure of the EPS reaches the limit. -/
def AtLimit (s : BusErrors) : Prop := (s.limit.toNat : ℤ) ≤ s.counter + s.increment.toNat

instance (s : BusErrors) : Decidable (AtLimit s) := inferInstanceAs (Decidable (_ ≤ _))

theorem length_transferred (s : BusErrors) (bus : I2CBus) :
    (transferred s bus).transfers.length = s.transfers.length + 1 := by
  rw [transferred, List.length_append, List.length_singleton]

/-- Counting touches the counter alone. -/
theorem count_frame (s : BusErrors) : ∃ c, s.count = { s with counter := c } := by
  simp only [BusErrors.count]
  split_ifs
  · exact ⟨_, rfl⟩
  · exact ⟨_, rfl⟩

/-- The counter is one of a byte that saturates. -/
theorem counter_count {s : BusErrors} (hcounter : 0 ≤ s.counter) (hmax : s.counter ≤ 255) :
    s.count.counter = min 255 (s.counter + s.increment.toNat) := by
  have hbyte := s.increment.isLt
  have hsum : (s.counter + s.increment.toNat).bmod 65536 = s.counter + s.increment.toNat :=
    Int.bmod_eq_of_le (by omega) (by omega)
  unfold BusErrors.count ErrorCounting.maxValue ErrorCounting.internal
  dsimp only
  split_ifs with hover
  · dsimp only
    rw [hsum, sub_sub_cancel, show (255 : ℤ).bmod 65536 = 255 from by decide]
    omega
  · dsimp only
    rw [hsum]
    omega

/-- Below the limit the counter just grows. -/
theorem counter_count_of_not {s : BusErrors} (hcounter : 0 ≤ s.counter) (hlimit : ¬ AtLimit s) :
    s.count.counter = s.counter + s.increment.toNat := by
  have hbyte := s.limit.isLt
  unfold AtLimit at hlimit
  rw [counter_count hcounter (by omega)]
  omega

/-- At the limit it stays there. -/
theorem atLimit_count {s : BusErrors} (hcounter : 0 ≤ s.counter) (hmax : s.counter ≤ 255) (hlimit : AtLimit s) :
    0 ≤ s.count.counter ∧ s.count.counter ≤ 255 ∧ AtLimit s.count := by
  have hbyte := s.limit.isLt
  have hcount := counter_count hcounter hmax
  obtain ⟨c, hc⟩ := count_frame s
  unfold AtLimit at hlimit ⊢
  rw [hc] at hcount ⊢
  dsimp only at hcount ⊢
  omega

/-- `FDIR` does not mask the EPS. -/
theorem limitReached_eq (powerCycle : Procedure Unit) : limitReached powerCycle = powerCycle := by
  funext s
  exact if_neg (by decide)

theorem failure_of_atLimit {inner : Procedure Unit} {s : BusErrors} (h : AtLimit s) :
    failure inner s = inner s.count := by
  rw [failure, limitReached_eq]
  exact if_pos h

theorem failure_of_not {inner : Procedure Unit} {s : BusErrors} (h : ¬ AtLimit s) :
    failure inner s = some ((), s.count) := if_neg h

/-- A transfer that ends with a latched bus. -/
theorem busTransfer_of_latches {inner : Procedure Unit} {bus : I2CBus} {s : BusErrors} (h : Latches results s) :
    busTransfer results inner bus s = (inner (transferred s bus)).map fun (_, t) => (.lineLatched, t) := by
  unfold Latches at h
  simp only [busTransfer, transfer, lowLevel, Option.bind_some, h, reduceCtorEq, if_false, i2cErrorHandler,
    if_true]
  rfl

/-- A transfer that does not. -/
theorem busTransfer_of_not {inner : Procedure Unit} {bus : I2CBus} {s : BusErrors} (h : ¬ Latches results s) :
    busTransfer results inner bus s = some (results s.transfers.length, transferred s bus) := by
  unfold Latches at h
  simp only [busTransfer, transfer, lowLevel, Option.bind_some, i2cErrorHandler, h, if_false, ite_self]
  rfl

/-- The EPS driver writes and counts a failure. -/
theorem epsPowerCycle_eq {fail : Procedure Unit} {write : EPSController → Procedure I2CResult}
    {controller : EPSController} {s t u : BusErrors} {r : I2CResult} (hwrite : write controller s = some (r, t))
    (hfail : fail t = some ((), u)) : epsPowerCycle fail write controller s = some (false, u) := by
  rw [epsPowerCycle, hwrite]
  change (fail t).map _ = _
  rw [hfail]
  rfl

/-- A power cycle calls it for both controllers. -/
theorem powerCycle_eq {eps : EPSController → Procedure Bool} {s t u : BusErrors}
    (h₁ : eps s.lastPowerCycleOn.other (begun s) = some (false, t))
    (h₂ : eps s.lastPowerCycleOn.other.other t = some (false, u)) :
    powerCycle eps s = some ((), { u with depth := u.depth - 1 }) := by
  change (eps s.lastPowerCycleOn.other (begun s)).bind _ = _
  rw [h₁, Option.bind_some]
  change (eps s.lastPowerCycleOn.other.other t).map _ = _
  rw [h₂]
  rfl

/-- What a call of the EPS driver that returns has done. -/
theorem epsPowerCycle_inv {fail : Procedure Unit} {write : EPSController → Procedure I2CResult}
    {controller : EPSController} {s u : BusErrors} {b : Bool}
    (h : epsPowerCycle fail write controller s = some (b, u)) :
    ∃ r t, write controller s = some (r, t) ∧ fail t = some ((), u) := by
  obtain ⟨⟨r, t⟩, hwrite, hrest⟩ := Option.bind_eq_some_iff.1 h
  obtain ⟨⟨_, v⟩, hfail, heq⟩ := Option.map_eq_some_iff.1 hrest
  obtain ⟨-, rfl⟩ := Prod.mk.inj heq
  exact ⟨r, t, hwrite, hfail⟩

/-- What a power cycle that returns has done. -/
theorem powerCycle_inv {eps : EPSController → Procedure Bool} {s t : BusErrors} {u : Unit}
    (h : powerCycle eps s = some (u, t)) :
    ∃ b₁ t₁ b₂ t₂, eps s.lastPowerCycleOn.other (begun s) = some (b₁, t₁) ∧
      eps s.lastPowerCycleOn.other.other t₁ = some (b₂, t₂) ∧ t = { t₂ with depth := t₂.depth - 1 } := by
  obtain ⟨⟨b₁, t₁⟩, hfirst, hrest⟩ := Option.bind_eq_some_iff.1 h
  obtain ⟨⟨b₂, t₂⟩, hsecond, hend⟩ := Option.map_eq_some_iff.1 hrest
  exact ⟨b₁, t₁, b₂, t₂, hfirst, hsecond, (Prod.mk.inj hend).2.symm⟩

/-! ## What calls leave as it was -/

/-- Power cycles that have begun have ended. -/
structure Kept (s t : BusErrors) : Prop where
  depth : t.depth = s.depth
  maxDepth : s.maxDepth ≤ t.maxDepth

theorem Kept.trans {s t u : BusErrors} (h : Kept s t) (h' : Kept t u) : Kept s u :=
  ⟨h'.depth.trans h.depth, h.maxDepth.trans h'.maxDepth⟩

theorem kept_count (s : BusErrors) : Kept s s.count := by
  obtain ⟨c, hc⟩ := count_frame s
  rw [hc]
  exact ⟨rfl, le_rfl⟩

/-- A power cycle that returns has ended those it has begun, and has counted itself. -/
def Nests (inner : Procedure Unit) : Prop :=
  ∀ s u t, inner s = some (u, t) → Kept s t ∧ s.depth + 1 ≤ t.maxDepth

/-- A transfer with a latched bus nests a power cycle, another one none. -/
theorem Nests.busTransfer {inner : Procedure Unit} (h : Nests inner) {bus : I2CBus} {s t : BusErrors}
    {r : I2CResult} (hwrite : I2CErrorHandling.busTransfer results inner bus s = some (r, t)) :
    Kept s t ∧ (Latches results s ∧ s.depth + 1 ≤ t.maxDepth ∨
      ¬ Latches results s ∧ t = transferred s bus) := by
  by_cases hlatches : Latches results s
  · rw [busTransfer_of_latches hlatches] at hwrite
    obtain ⟨⟨u, v⟩, hcycle, heq⟩ := Option.map_eq_some_iff.1 hwrite
    obtain ⟨-, rfl⟩ := Prod.mk.inj heq
    obtain ⟨hkept, hdepth⟩ := h _ _ _ hcycle
    exact ⟨⟨hkept.depth, hkept.maxDepth⟩, Or.inl ⟨hlatches, hdepth⟩⟩
  · rw [busTransfer_of_not hlatches] at hwrite
    obtain ⟨-, rfl⟩ := Prod.mk.inj (Option.some.inj hwrite)
    exact ⟨⟨rfl, le_rfl⟩, Or.inr ⟨hlatches, rfl⟩⟩

/-- A failure at the limit nests one, another one none. -/
theorem Nests.failure {inner : Procedure Unit} (h : Nests inner) {s t : BusErrors} {u : Unit}
    (hfail : I2CErrorHandling.failure inner s = some (u, t)) :
    Kept s t ∧ (AtLimit s ∧ s.depth + 1 ≤ t.maxDepth ∨ ¬ AtLimit s ∧ t = s.count) := by
  have hcount := kept_count s
  by_cases hlimit : AtLimit s
  · rw [failure_of_atLimit hlimit] at hfail
    obtain ⟨hkept, hdepth⟩ := h _ _ _ hfail
    rw [hcount.depth] at hdepth
    exact ⟨hcount.trans hkept, Or.inl ⟨hlimit, hdepth⟩⟩
  · rw [failure_of_not hlimit] at hfail
    obtain ⟨-, rfl⟩ := Prod.mk.inj (Option.some.inj hfail)
    exact ⟨hcount, Or.inr ⟨hlimit, rfl⟩⟩

/-- Induction on how many power cycles there may be inside each other. -/
theorem nests_powerCycles (fuel : ℕ) : Nests (powerCycles results fuel) := by
  induction fuel with
  | zero =>
    intro s u t h
    exact absurd h (Option.some_ne_none _).symm
  | succ fuel ih =>
    intro s u t h
    obtain ⟨b₁, t₁, b₂, t₂, h₁, h₂, rfl⟩ := powerCycle_inv h
    obtain ⟨r₁, v₁, hwrite₁, hfail₁⟩ := epsPowerCycle_inv h₁
    obtain ⟨r₂, v₂, hwrite₂, hfail₂⟩ := epsPowerCycle_inv h₂
    have hfirst : Kept (begun s) t₁ := (ih.busTransfer hwrite₁).1.trans (ih.failure hfail₁).1
    have hsecond : Kept t₁ t₂ := (ih.busTransfer hwrite₂).1.trans (ih.failure hfail₂).1
    have hboth := hfirst.trans hsecond
    have hdepth : t₂.depth = s.depth + 1 := hboth.depth
    have hmax : max s.maxDepth (s.depth + 1) ≤ t₂.maxDepth := hboth.maxDepth
    refine ⟨⟨?_, (le_max_left _ _).trans hmax⟩, (le_max_right _ _).trans hmax⟩
    change t₂.depth - 1 = s.depth
    rw [hdepth, Nat.add_sub_cancel]

/-! ## One power cycle at a time -/

/-- The state behind a write to the EPS that does not latch the bus and a failure below the limit. -/
def cycled (s : BusErrors) (controller : EPSController) : BusErrors := (transferred s controller.bus).count

/-- A call of the EPS driver that neither latches the bus nor reaches the limit. -/
theorem epsPowerCycle_calm (inner : Procedure Unit) {s : BusErrors} {controller : EPSController}
    (hlatches : ¬ Latches results s) (hlimit : ¬ AtLimit s) :
    epsPowerCycle (failure inner) (fun controller => busTransfer results inner controller.bus) controller s =
      some (false, cycled s controller) :=
  epsPowerCycle_eq (busTransfer_of_not hlatches)
    (failure_of_not (s := transferred s controller.bus) hlimit)

/-- One in which no power cycle is nested is of this kind. -/
theorem epsPowerCycle_calm_of_depth {inner : Procedure Unit} (hinner : Nests inner) {s t : BusErrors}
    {controller : EPSController} {b : Bool} (hdepth : 1 ≤ s.depth)
    (h : epsPowerCycle (failure inner) (fun controller => busTransfer results inner controller.bus) controller s =
      some (b, t)) (hmax : t.maxDepth ≤ 1) :
    ¬ Latches results s ∧ ¬ AtLimit s ∧ t = cycled s controller := by
  obtain ⟨r, v, hwrite, hfail⟩ := epsPowerCycle_inv h
  obtain ⟨hkept, hwrite⟩ := hinner.busTransfer hwrite
  obtain ⟨hkept', hfail⟩ := hinner.failure hfail
  rcases hwrite with ⟨-, hnested⟩ | ⟨hlatches, rfl⟩
  · have hle := hkept'.maxDepth
    omega
  · rcases hfail with ⟨-, hnested⟩ | ⟨hlimit, rfl⟩
    · change s.depth + 1 ≤ t.maxDepth at hnested
      omega
    · exact ⟨hlatches, hlimit, rfl⟩

/-- Both failures of a power cycle stay below the limit. -/
theorem not_atLimit_iff {s : BusErrors} (hcounter : 0 ≤ s.counter) (controller : EPSController) :
    ¬ AtLimit s ∧ ¬ AtLimit (cycled s controller) ↔ s.counter + 2 * s.increment.toNat < s.limit.toNat := by
  obtain ⟨c, hc⟩ := count_frame (transferred s controller.bus)
  have hstep (hlimit : ¬ AtLimit s) : c = s.counter + s.increment.toNat := by
    have h := counter_count_of_not (s := transferred s controller.bus) hcounter hlimit
    rw [hc] at h
    exact h
  constructor
  · rintro ⟨h₁, h₂⟩
    rw [cycled, hc, hstep h₁] at h₂
    simp only [AtLimit, transferred] at h₂
    omega
  · intro h
    have h₁ : ¬ AtLimit s := by
      unfold AtLimit
      omega
    refine ⟨h₁, ?_⟩
    rw [cycled, hc, hstep h₁]
    simp only [AtLimit, transferred]
    omega

theorem length_cycled (s : BusErrors) (controller : EPSController) :
    (cycled s controller).transfers.length = s.transfers.length + 1 := by
  obtain ⟨c, hc⟩ := count_frame (transferred s controller.bus)
  rw [cycled, hc]
  exact length_transferred s controller.bus

section

variable {bus : I2CBus} {s : BusErrors}

/-- The state of the first call of the EPS driver, and the one of the second if the first is calm. -/
def firstCall (s : BusErrors) (bus : I2CBus) : BusErrors := begun (transferred s bus)

def secondCall (s : BusErrors) (bus : I2CBus) : BusErrors :=
  cycled (firstCall s bus) s.lastPowerCycleOn.other

/-- Neither call latches the bus or reaches the limit. -/
def Calm (results : ℕ → I2CResult) (s : BusErrors) (bus : I2CBus) : Prop :=
  (¬ Latches results (firstCall s bus) ∧ ¬ AtLimit (firstCall s bus)) ∧
    ¬ Latches results (secondCall s bus) ∧ ¬ AtLimit (secondCall s bus)

theorem calm_of_bounded (hdepth : s.depth = 0) (h : Bounded results bus s) (hlatches : Latches results s) :
    Calm results s bus := by
  obtain ⟨fuel, result, t, h, hmax⟩ := h
  rw [busTransfer_of_latches hlatches] at h
  obtain ⟨⟨u, v⟩, hcycle, heq⟩ := Option.map_eq_some_iff.1 h
  obtain ⟨-, rfl⟩ := Prod.mk.inj heq
  cases fuel with
  | zero => exact absurd hcycle (Option.some_ne_none _).symm
  | succ fuel =>
    have hnests : Nests (powerCycles results fuel) := nests_powerCycles fuel
    obtain ⟨b₁, t₁, b₂, t₂, h₁, h₂, rfl⟩ := powerCycle_inv hcycle
    have hmax₂ : t₂.maxDepth ≤ 1 := hmax
    have hkept : Kept t₁ t₂ := by
      obtain ⟨_, _, hwrite, hfail⟩ := epsPowerCycle_inv h₂
      exact (hnests.busTransfer hwrite).1.trans (hnests.failure hfail).1
    have hone : (firstCall s bus).depth = 1 := congrArg Nat.succ hdepth
    obtain ⟨hlatches₁, hlimit₁, rfl⟩ :=
      epsPowerCycle_calm_of_depth hnests hone.ge h₁ (hkept.maxDepth.trans hmax₂)
    have hone' : (secondCall s bus).depth = 1 := (kept_count _).depth.trans hone
    obtain ⟨hlatches₂, hlimit₂, -⟩ := epsPowerCycle_calm_of_depth hnests hone'.ge h₂ hmax₂
    exact ⟨⟨hlatches₁, hlimit₁⟩, hlatches₂, hlimit₂⟩

theorem bounded_of_calm (hdepth : s.depth = 0) (hmax : s.maxDepth ≤ 1)
    (h : Latches results s → Calm results s bus) : Bounded results bus s := by
  by_cases hlatches : Latches results s
  · obtain ⟨⟨hlatches₁, hlimit₁⟩, hlatches₂, hlimit₂⟩ := h hlatches
    have hcycle := powerCycle_eq (s := transferred s bus)
      (epsPowerCycle_calm (powerCycles results 0) hlatches₁ hlimit₁)
      (epsPowerCycle_calm (powerCycles results 0) hlatches₂ hlimit₂)
    have hreturn := (busTransfer_of_latches hlatches).trans
      (congrArg (Option.map fun (_, t) => (I2CResult.lineLatched, t)) hcycle)
    refine ⟨1, .lineLatched, _, hreturn, ?_⟩
    · -- the one power cycle is the whole depth
      obtain ⟨c, hc⟩ := count_frame (transferred (firstCall s bus) s.lastPowerCycleOn.other.bus)
      obtain ⟨c', hc'⟩ := count_frame (transferred (secondCall s bus) s.lastPowerCycleOn.other.other.bus)
      change (cycled (secondCall s bus) s.lastPowerCycleOn.other.other).maxDepth ≤ 1
      rw [cycled, hc']
      change (cycled (firstCall s bus) s.lastPowerCycleOn.other).maxDepth ≤ 1
      rw [cycled, hc]
      change max s.maxDepth (s.depth + 1) ≤ 1
      omega
  · exact ⟨0, _, _, busTransfer_of_not hlatches, hmax⟩

/-- The writes to the EPS are the next two transfers. -/
theorem calm_iff (hcounter : 0 ≤ s.counter) :
    Calm results s bus ↔ results (s.transfers.length + 1) ≠ .lineLatched ∧
      results (s.transfers.length + 2) ≠ .lineLatched ∧
      s.counter + 2 * s.increment.toNat < s.limit.toNat := by
  have hfirst : (firstCall s bus).transfers.length = s.transfers.length + 1 := length_transferred s bus
  have hsecond : (secondCall s bus).transfers.length = s.transfers.length + 2 := by
    rw [secondCall, length_cycled, hfirst]
  have hlimit := not_atLimit_iff (s := firstCall s bus) hcounter s.lastPowerCycleOn.other
  change ¬ AtLimit (firstCall s bus) ∧ ¬ AtLimit (secondCall s bus) ↔
    s.counter + 2 * s.increment.toNat < s.limit.toNat at hlimit
  rw [← hlimit, Calm, Latches, Latches, hfirst, hsecond]
  tauto

end

/-- **Bus errors are handled by one power cycle at a time** exactly when its writes do not end with a
latched bus and its failures do not reach the limit. -/
theorem bounded_iff (results : ℕ → I2CResult) (bus : I2CBus) (lastPowerCycleOn : EPSController)
    (counter increment limit : Byte) (transfers : List I2CBus) :
    Bounded results bus (.idle lastPowerCycleOn counter increment limit transfers) ↔
      (results transfers.length = .lineLatched →
        results (transfers.length + 1) ≠ .lineLatched ∧ results (transfers.length + 2) ≠ .lineLatched ∧
          counter.toNat + 2 * increment.toNat < limit.toNat) := by
  have hcalm := @calm_iff results bus (.idle lastPowerCycleOn counter increment limit transfers)
    (Int.natCast_nonneg counter.toNat)
  have hcast : (counter.toNat : ℤ) + 2 * increment.toNat < limit.toNat ↔
      counter.toNat + 2 * increment.toNat < limit.toNat := by
    omega
  rw [← hcast]
  constructor
  · exact fun h hlatched => hcalm.1 (calm_of_bounded rfl h hlatched)
  · exact fun hok => bounded_of_calm rfl (Nat.zero_le 1) fun hlatched => hcalm.2 (hok hlatched)

/-! ## Power cycles without end -/

/-- A power cycle does not return when its first call of the EPS driver does not. -/
theorem powerCycle_none {eps : EPSController → Procedure Bool} {s : BusErrors}
    (h : eps s.lastPowerCycleOn.other (begun s) = none) : powerCycle eps s = none := by
  change (eps s.lastPowerCycleOn.other (begun s)).bind _ = none
  rw [h]
  rfl

/-- When every transfer ends with a latched bus no power cycle returns. -/
theorem powerCycles_latched (hlatched : ∀ n, results n = .lineLatched) (fuel : ℕ) (s : BusErrors) :
    powerCycles results fuel s = none := by
  induction fuel generalizing s with
  | zero => rfl
  | succ fuel ih =>
    refine powerCycle_none ?_
    rw [epsPowerCycle, busTransfer_of_latches (hlatched _), ih]
    rfl

/-- With the counter of the EPS at its limit no power cycle returns, whatever the transfers do. -/
theorem powerCycles_limit (fuel : ℕ) {s : BusErrors} (hcounter : 0 ≤ s.counter) (hmax : s.counter ≤ 255)
    (hlimit : AtLimit s) : powerCycles results fuel s = none := by
  induction fuel generalizing s with
  | zero => rfl
  | succ fuel ih =>
    refine powerCycle_none ?_
    set t := transferred (begun s) s.lastPowerCycleOn.other.bus
    have hlimit' : AtLimit t := hlimit
    by_cases hlatches : Latches results (begun s)
    · -- the write starts the next one
      have hnext : powerCycles results fuel t = none := ih hcounter hmax hlimit'
      rw [epsPowerCycle, busTransfer_of_latches hlatches, hnext]
      rfl
    · -- the failure starts it, and leaves the counter at its limit
      obtain ⟨hcounter', hmax', hlimit''⟩ := atLimit_count (s := t) hcounter hmax hlimit'
      have hfail : failure (powerCycles results fuel) t = none :=
        (failure_of_atLimit hlimit').trans (ih hcounter' hmax' hlimit'')
      rw [epsPowerCycle, busTransfer_of_not hlatches, Option.bind_some]
      change (failure (powerCycles results fuel) t).map _ = none
      rw [hfail]
      rfl

/-- Every transfer ends with a latched bus, or the first one does and the counter is at 120 of 128: the
second failure of the power cycle reaches the limit. -/
theorem not_bounded_latched :
    ¬ Bounded (fun _ => .lineLatched) .system (.idle .a 0 5 128 []) ∧
      ¬ Bounded (fun n => if n = 0 then .lineLatched else .ok) .system (.idle .a 120 5 128 []) := by
  constructor
  · rintro ⟨fuel, result, t, h, -⟩
    have hlatches : Latches (fun _ => .lineLatched) (.idle .a 0 5 128 []) := rfl
    rw [busTransfer_of_latches hlatches, powerCycles_latched fun _ => rfl] at h
    exact absurd h (Option.some_ne_none _).symm
  · intro h
    have hcalm := calm_of_bounded rfl h rfl
    exact hcalm.2.2 (by decide)

end I2CErrorHandling

end PWSat2OBC
