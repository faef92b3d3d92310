import Mathlib.Data.List.Basic
import Mathlib.Tactic.Common

/-!
# Updating and verifying the mission state (`libs/mission/Include/mission/logic.hpp`)

Both functions run a list of descriptors over the state, and both leave the loop at the
first failure. They are generic in the state and in what the `param` of a descriptor
points to; a procedure pointer that can be null is an `Option`.
-/

namespace PWSat2OBC

inductive UpdateResult
  | ok
  | warning
  | failure
deriving DecidableEq, Repr

inductive VerifyResult
  | ok
  | failure
deriving DecidableEq, Repr

/-- `VerifyDescriptorResult`, with the values of its default constructor. -/
structure VerifyDescriptorResult where
  result : VerifyResult := .ok
  reason : BitVec 32 := 0
deriving DecidableEq, Repr

variable {State Param : Type*}

/-- `UpdateDescriptor`: the procedure returns the result and the state it leaves. -/
structure UpdateDescriptor (State Param : Type*) where
  updateProc : Option (State → Param → UpdateResult × State)
  param : Param

/-- `UpdateDescriptor::Execute`. -/
def UpdateDescriptor.execute (d : UpdateDescriptor State Param) (state : State) :
    UpdateResult × State :=
  match d.updateProc with
  | none => (.warning, state)
  | some proc => proc state d.param

/-- `VerifyDescriptor`. -/
structure VerifyDescriptor (State Param : Type*) where
  verifyProc : State → Param → VerifyDescriptorResult
  param : Param

/-- What the descriptor says about the state. -/
def VerifyDescriptor.verdict (d : VerifyDescriptor State Param) (state : State) :
    VerifyDescriptorResult :=
  d.verifyProc state d.param

namespace MissionLogic

/-- The loop of `SystemStateUpdate`. -/
def updateLoop (state : State) (result : UpdateResult) :
    List (UpdateDescriptor State Param) → UpdateResult × State
  | [] => (result, state)
  | descriptor :: descriptors =>
    match descriptor.execute state with
    | (.warning, state) => updateLoop state .warning descriptors
    | (.failure, state) => (.failure, state)
    | (.ok, state) => updateLoop state result descriptors

/-- `SystemStateUpdate`. -/
def systemStateUpdate (state : State) (descriptors : List (UpdateDescriptor State Param)) :
    UpdateResult × State :=
  updateLoop state .ok descriptors

/-- What a call of `SystemStateVerify` leaves: the overall result, the results span and the
descriptors it has run, in order. -/
structure Verified (State Param : Type*) where
  result : VerifyResult
  results : List VerifyDescriptorResult
  ran : List (VerifyDescriptor State Param)

/-- `const uint16_t count = 0`. -/
def count : ℕ := 0

/-- The loop of `SystemStateVerify`; `none` where the span `results` is indexed outside its
range, which ends the program. -/
def verifyLoop (state : State) (results : List VerifyDescriptorResult) :
    List (VerifyDescriptor State Param) → Option (Verified State Param)
  | [] => some ⟨.ok, results, []⟩
  | descriptor :: descriptors =>
    if count < results.length then
      let target := descriptor.verdict state
      let results := results.set count target
      if target.result = .failure then some ⟨.failure, results, [descriptor]⟩
      else
        (verifyLoop state results descriptors).map fun rest =>
          { rest with ran := descriptor :: rest.ran }
    else none

/-- `SystemStateVerify`. -/
def systemStateVerify (state : State) (descriptors : List (VerifyDescriptor State Param))
    (results : List VerifyDescriptorResult) : Option (Verified State Param) :=
  verifyLoop state results descriptors

/-- All verdicts, in the order of the descriptors. -/
def verdicts (state : State) (descriptors : List (VerifyDescriptor State Param)) :
    List VerifyDescriptorResult :=
  descriptors.map fun d => d.verdict state

end MissionLogic

end PWSat2OBC
