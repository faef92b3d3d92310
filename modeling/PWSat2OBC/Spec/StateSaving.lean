import PWSat2OBC.Lib.Runs
import PWSat2OBC.Spec.PersistentState

/-!
# Saving the persistent state (`libs/mission/state/PersistentStateSave.cpp`,
`libs/obc/state/ObcState.cpp`)

The periodic save of the mission loop, step by step, while other tasks set parts of the
state. What holds the state's lock is one step; between the steps of a save anything can be
set. An operation that does not get the lock fails.

`Capture` clears the one flag of the whole state; the image is completed and stored after
the lock is released.
-/

namespace PWSat2OBC

open State ObcState

/-- The saving task in `SaveState`. -/
inductive SavePc
  | idle
  /-- The condition was true; `WritePersistentState` has written the signature. -/
  | capture (writer : Writer)
  /-- The parts are in the image. -/
  | footer (writer : Writer)
  /-- The image is complete and is to be stored. -/
  | store (image : List Byte)
deriving DecidableEq

/-- The persistent state, the memory behind the storage and the saving task. -/
structure StateSaving (μ : Type) where
  stateObject : LockablePersistentState
  memory : μ
  pc : SavePc

inductive SaveEvent
  /-- `Set` of a part by any task. -/
  | set (locked : Bool) (update : Parts → Parts)
  /-- `SaveStateCondition`, and if it is true the start of `WritePersistentState`; `array` is
  what its buffer on the stack holds. -/
  | condition (locked : Bool) (array : Vector Byte totalImageSize)
  | capture (locked : Bool)
  | footer
  | store

namespace State.LockablePersistentState

/-- `LockablePersistentState::IsModified`. -/
def isModified (s : LockablePersistentState) (locked : Bool) : Bool :=
  if !locked then false else s.state.isModified

end State.LockablePersistentState

namespace StateSaving

variable {μ : Type} (storage : StorageAccess μ) (baseAddress : BitVec 32)

def step (s : StateSaving μ) : SaveEvent → Option (StateSaving μ)
  | .set locked update => some { s with stateObject := (s.stateObject.set locked update).2 }
  | .condition locked array =>
    match s.pc with
    | .idle =>
      if s.stateObject.isModified locked then
        let writer := Writer.init array.toList
        some { s with pc := .capture (writer.writeDoubleWordLE signature).2 }
      else some s
    | _ => none
  | .capture locked =>
    match s.pc with
    | .capture writer =>
      let (captured, stateObject, writer) := s.stateObject.capture locked writer
      if !captured then some { s with stateObject, pc := .idle }
      else some { s with stateObject, pc := .footer writer }
    | _ => none
  | .footer =>
    match s.pc with
    | .footer writer =>
      let (_, writer) := writer.writeDoubleWordLE signature
      if !writer.status then some { s with pc := .idle }
      else some { s with pc := .store writer.capture }
    | _ => none
  | .store =>
    match s.pc with
    | .store image => some { s with memory := storage.write s.memory baseAddress image, pc := .idle }
    | _ => none

/-- The stored image. -/
def stored (s : StateSaving μ) : List Byte := storage.read s.memory baseAddress totalImageSize

/-- The parts as they are. -/
def parts (s : StateSaving μ) : Parts := s.stateObject.state.parts

end StateSaving

end PWSat2OBC
