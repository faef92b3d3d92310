import Mathlib.Tactic

/-!
# ADCS coordinator (`libs/adcs/AdcsCoordinator.cpp`)

The task of the coordinator takes requests from its queue, switches modes and calls
`Process` of the current one. Other tasks block and unblock modes at any time, also
between the check of the block and the answer of `Enable`.
-/

namespace PWSat2OBC

/-- `adcs::AdcsMode`. -/
inductive AdcsMode
  | disabled
  | stopped
  | builtinDetumbling
  | experimentalDetumbling
  | experimentalSunpointing
deriving DecidableEq, Repr

/-- `num` of a mode. -/
def AdcsMode.num : AdcsMode → ℤ
  | disabled => -2
  | stopped => -1
  | builtinDetumbling => 0
  | experimentalDetumbling => 1
  | experimentalSunpointing => 2

/-- A mode with a processor. -/
def AdcsMode.isActive (mode : AdcsMode) : Bool := 0 ≤ mode.num

/-- A call of the processor of a mode, with its success. -/
inductive AdcsCall
  | enable (mode : AdcsMode) (succeeded : Bool)
  | disable (mode : AdcsMode) (succeeded : Bool)
  | process (mode : AdcsMode)
deriving DecidableEq, Repr

/-- Where the task is. -/
inductive AdcsPc
  /-- At the queue. -/
  | pop
  /-- In `SwitchMode`, at `Enable`. -/
  | enabling (previousMode requestedMode : AdcsMode)
  /-- Behind the queue, at `switch (mode)`. -/
  | turn
deriving DecidableEq, Repr

/-- `AdcsCoordinator` with the variables of `Loop` and the calls made so far. -/
structure AdcsCoordinator where
  currentMode : AdcsMode
  adcsMasks : List Bool
  mode : AdcsMode
  /-- `none` is `InfiniteTimeout`. -/
  timeout : Option ℕ
  nextIterationAt : ℤ
  pc : AdcsPc
  calls : List AdcsCall
deriving DecidableEq

inductive AdcsEvent
  | setBlockMode (adcsMode : AdcsMode) (isBlocked : Bool)
  /-- A request is taken from the queue; `disabled` is the success of `Disable`, if it is
  called. -/
  | popped (newMode : AdcsMode) (disabled : Bool) (uptime : ℤ)
  | timedOut
  /-- `Enable` returns. -/
  | enabled (succeeded : Bool) (uptime : ℤ)
  /-- The rest of the loop, with what the clock and `GetWait` return. -/
  | turn (now processed later wait : ℤ)
deriving DecidableEq

namespace AdcsCoordinator

/-- The coordinator when `Loop` begins. -/
def init (uptime : ℤ) : AdcsCoordinator :=
  ⟨.stopped, [false, false, false], .stopped, some 0, uptime, .pop, []⟩

variable (s : AdcsCoordinator)

/-- `AdcsCoordinator::SetBlockMode`. -/
def setBlockMode (adcsMode : AdcsMode) (isBlocked : Bool) : AdcsCoordinator :=
  let index := adcsMode.num
  if index < 0 ∨ s.adcsMasks.length ≤ index then s
  else { s with adcsMasks := s.adcsMasks.set index.toNat isBlocked }

/-- `AdcsCoordinator::IsModeBlocked`. -/
def isModeBlocked (mode : AdcsMode) : Bool :=
  let index := mode.num
  if index < 0 ∨ s.adcsMasks.length ≤ index then true else s.adcsMasks.getD index.toNat false

/-- The loop goes on with the result of `SwitchMode`. -/
def switched (result : AdcsMode × Bool) (uptime : ℤ) : AdcsCoordinator :=
  { s with
    mode := result.1
    nextIterationAt := if result.2 then uptime else s.nextIterationAt
    pc := .turn }

/-- `SwitchMode` up to its second `switch`: the result, if it returns there. -/
def leaveMode (requestedMode : AdcsMode) (disabled : Bool) :
    AdcsCoordinator × Option (AdcsMode × Bool) :=
  if s.currentMode = requestedMode then (s, some (requestedMode, false))
  else
    match s.currentMode with
    | .builtinDetumbling | .experimentalDetumbling | .experimentalSunpointing =>
      let s' := { s with
        currentMode := .stopped
        calls := s.calls ++ [.disable s.currentMode disabled] }
      if !disabled then (s', some (.stopped, true)) else (s', none)
    | .stopped => (s, none)
    | .disabled => if requestedMode ≠ .stopped then (s, some (s.currentMode, false)) else (s, none)

/-- The second `switch` of `SwitchMode`, up to `Enable`. -/
def enterMode (previousMode requestedMode : AdcsMode) (uptime : ℤ) : AdcsCoordinator :=
  match requestedMode with
  | .builtinDetumbling | .experimentalDetumbling | .experimentalSunpointing =>
    if s.isModeBlocked requestedMode then
      s.switched (s.currentMode, previousMode ≠ s.currentMode) uptime
    else { s with pc := .enabling previousMode requestedMode }
  | .disabled | .stopped =>
    { s with currentMode := requestedMode }.switched (requestedMode, true) uptime

/-- `SwitchMode` behind `Enable`. -/
def enableReturned (previousMode requestedMode : AdcsMode) (succeeded : Bool) (uptime : ℤ) :
    AdcsCoordinator :=
  let s' := { s with
    currentMode := if succeeded then requestedMode else s.currentMode
    calls := s.calls ++ [AdcsCall.enable requestedMode succeeded] }
  s'.switched (s'.currentMode, previousMode ≠ s'.currentMode) uptime

/-- `switch (mode)` in `Loop`. -/
def turn (now processed later wait : ℤ) : AdcsCoordinator :=
  match s.mode with
  | .stopped | .disabled => { s with timeout := none, pc := .pop }
  | .builtinDetumbling | .experimentalDetumbling | .experimentalSunpointing =>
    if s.nextIterationAt ≤ now then
      -- `Run`
      let timeout := max 0 (wait - (processed - s.nextIterationAt))
      { s with
        timeout := some timeout.toNat
        nextIterationAt := later + timeout
        pc := .pop
        calls := s.calls ++ [.process s.mode] }
    else { s with timeout := some (max 0 (s.nextIterationAt - later)).toNat, pc := .pop }

def step : AdcsEvent → Option AdcsCoordinator
  | .setBlockMode adcsMode isBlocked => some (s.setBlockMode adcsMode isBlocked)
  | .popped newMode disabled uptime =>
    if s.pc = .pop then
      match s.leaveMode newMode disabled with
      | (s', some result) => some (s'.switched result uptime)
      | (s', none) => some (s'.enterMode s.currentMode newMode uptime)
    else none
  | .timedOut => if s.pc = .pop ∧ s.timeout ≠ none then some { s with pc := .turn } else none
  | .enabled succeeded uptime =>
    match s.pc with
    | .enabling previousMode requestedMode =>
      some (s.enableReturned previousMode requestedMode succeeded uptime)
    | _ => none
  | .turn now processed later wait =>
    if s.pc = .turn then some (s.turn now processed later wait) else none

end AdcsCoordinator

end PWSat2OBC
