import PWSat2OBC.Spec.Fdir
import PWSat2OBC.Spec.StateSaving

/-!
# The configuration of the error counters across restarts
(`libs/mission/fdir/SaveErrorCountersConfig.cpp`, `libs/mission/state/PersistentStateSave.cpp`, `src/obc.cpp`)

The configuration of FDIR is copied to the persistent state by the mission loop, the persistent state
is saved to the FRAM, and a restart loads it from there. The power can go away at any time: then a
chip may have taken the first bytes of an image only, and the chips behind it none.
-/

namespace PWSat2OBC

open State ObcState

/-! ## Interrupted writes -/

/-- `RedundantFM25WDriver::Write` that ends after some bytes on one of the chips. -/
def RedundantFm25w.writeCut (d : RedundantFm25w) (address : Address) (buffer : List Byte) (chip bytes : ℕ) :
    RedundantFm25w :=
  let taken (k : ℕ) := if k < chip then buffer else if k = chip then buffer.take bytes else []
  ⟨d.chip0.write address (taken 0), d.chip1.write address (taken 1), d.chip2.write address (taken 2)⟩

/-! ## The system -/

/-- `FDIR::_configuration`, and the persistent state with its storage. -/
structure FdirPersistence where
  configuration : Vector (BitVec 32) maxDevices
  saving : StateSaving RedundantFm25w

/-- A restart: where the power goes away in a write, `boot::ClearStateOnStartup`, whether the locks are
obtained, and what the buffer of a write holds. -/
structure Restart where
  chip : ℕ
  bytes : ℕ
  clearStateOnStartup : Bool
  loadLock : Bool
  getLock : Bool
  array : Vector Byte totalImageSize

inductive FdirPersistenceEvent
  /-- `FDIR::Set`. -/
  | set (device : Fin maxDevices) (limit increment decrement : Byte)
  /-- `SaveErrorCountersConfig::Update`. -/
  | update (locked : Bool)
  /-- Another part is set, or the saving task goes on. -/
  | saving (e : SaveEvent)
  | restart (r : Restart)

namespace FdirPersistence

open SetErrorCounterConfig

/-- `ErrorCountersConfigState(GetConfig())`. -/
def configState (configuration : Vector (BitVec 32) maxDevices) : ErrorCountersConfigState :=
  ⟨configuration.toList, configuration.length_toList⟩

/-- `FDIR::LoadConfig`. -/
def loadConfig (state : ErrorCountersConfigState) : Vector (BitVec 32) maxDevices :=
  Vector.ofFn fun i => state.config.getD i 0

/-- The constructor of `FDIR`. -/
def defaultConfiguration : Vector (BitVec 32) maxDevices := Vector.replicate maxDevices (config 128 5 2)

variable (storage : StorageAccess RedundantFm25w) (baseAddress : BitVec 32) (s : FdirPersistence)

/-- What the chips hold when the power goes away. -/
def cut (r : Restart) : RedundantFm25w :=
  match s.saving.pc with
  | .store image => s.saving.memory.writeCut (baseAddress.setWidth 16) image r.chip r.bytes
  | _ => s.saving.memory

/-- `ProcessState` and the rest of `OBC::InitializeRunlevel1` that is about the configuration. -/
def restart (r : Restart) : FdirPersistence :=
  let memory := s.cut baseAddress r
  let stateObject : LockablePersistentState := ⟨PersistentState.init⟩
  let (stateObject, memory) :=
    if r.clearStateOnStartup then
      (writePersistentState storage r.array stateObject r.loadLock baseAddress memory).2
    else ((readPersistentState storage stateObject r.loadLock baseAddress memory).2, memory)
  { configuration :=
      match stateObject.get r.getLock (·.errorCountersConfigState) with
      | none => defaultConfiguration
      | some errorCountersConfig => loadConfig errorCountersConfig
    saving := ⟨stateObject, memory, .idle⟩ }

def step (s : FdirPersistence) : FdirPersistenceEvent → Option FdirPersistence
  | .set device limit increment decrement =>
    some { s with configuration := s.configuration.set device (config limit increment decrement) device.isLt }
  | .update locked =>
    let stateObject := (s.saving.stateObject.set locked fun p =>
      { p with errorCountersConfigState := configState s.configuration }).2
    some { s with saving := { s.saving with stateObject } }
  | .saving e => (s.saving.step storage baseAddress e).map fun saving => { s with saving }
  | .restart r => some (s.restart storage baseAddress r)

end FdirPersistence

/-- The configuration is left alone: it is not set, no other task sets its part of the persistent state,
and a restart neither clears the state nor fails to obtain a lock. -/
def FdirPersistenceEvent.Quiet : FdirPersistenceEvent → Prop
  | .set _ _ _ _ => False
  | .saving (.set _ change) => ∀ p, (change p).errorCountersConfigState = p.errorCountersConfigState
  | .restart r => r.clearStateOnStartup = false ∧ r.loadLock = true ∧ r.getLock = true
  | _ => True

/-- No restart either. -/
def FdirPersistenceEvent.Running (e : FdirPersistenceEvent) : Prop := e.Quiet ∧ ∀ r, e ≠ .restart r

/-- The state is captured, and stored after that. -/
def SavedIn (es : List FdirPersistenceEvent) : Prop :=
  ∃ before between after, es = before ++ .saving (.capture true) :: (between ++ .saving .store :: after)

end PWSat2OBC
