import PWSat2OBC.Spec.Fram
import PWSat2OBC.Spec.Reader
import PWSat2OBC.Spec.Writer

/-!
# Persistent state (`libs/state`, `libs/obc/state/ObcState.cpp`)

The parts of the persistent state with their `Write` and `Read`, the container that runs
them in order, the lock around it, and the image on the storage: a signature, the parts,
the signature again.

Each integer has the width it has in the code; the counts of milliseconds and minutes are
64 bits wide.
-/

namespace PWSat2OBC

namespace State

/-! ## Parts -/

/-- `state::AntennaConfiguration`. -/
structure AntennaConfiguration where
  isDeploymentDisabled : Bool
deriving DecidableEq

namespace AntennaConfiguration

/-- `AntennaConfiguration()`. -/
def init : AntennaConfiguration := ⟨false⟩

def size : ℕ := 1

def write (c : AntennaConfiguration) (writer : Writer) : Writer :=
  (writer.writeByte (BitVec.ofBool c.isDeploymentDisabled |>.setWidth 8)).2

/-- The value read is stored only while the reader is valid. -/
def read (c : AntennaConfiguration) (reader : Reader) : AntennaConfiguration × Reader :=
  let (byte, reader) := reader.readByte
  let value := byte != 0
  (if reader.status then ⟨value⟩ else c, reader)

end AntennaConfiguration

/-- `state::TimeState`: two counts of milliseconds. -/
structure TimeState where
  lastMissionTime : BitVec 64
  lastExternalTime : BitVec 64
deriving DecidableEq

namespace TimeState

/-- `TimeState()`. -/
def init : TimeState := ⟨0, 0⟩

def size : ℕ := 8 + 8

def write (t : TimeState) (writer : Writer) : Writer :=
  ((writer.writeQuadWordLE t.lastMissionTime).2.writeQuadWordLE t.lastExternalTime).2

def read (_ : TimeState) (reader : Reader) : TimeState × Reader :=
  let (lastMissionTime, reader) := reader.readQuadWordLE
  let (lastExternalTime, reader) := reader.readQuadWordLE
  (⟨lastMissionTime, lastExternalTime⟩, reader)

end TimeState

/-- `state::TimeCorrectionConfiguration`: the two weights, `int16_t`. -/
structure TimeCorrectionConfiguration where
  missionTimeFactor : BitVec 16
  externalTimeFactor : BitVec 16
deriving DecidableEq

namespace TimeCorrectionConfiguration

/-- `TimeCorrectionConfiguration()`. -/
def init : TimeCorrectionConfiguration := ⟨1, 1⟩

def size : ℕ := 2 + 2

def write (c : TimeCorrectionConfiguration) (writer : Writer) : Writer :=
  ((writer.writeSignedWordLE c.missionTimeFactor).2.writeSignedWordLE c.externalTimeFactor).2

def read (_ : TimeCorrectionConfiguration) (reader : Reader) :
    TimeCorrectionConfiguration × Reader :=
  let (missionTimeFactor, reader) := reader.readSignedWordLE
  let (externalTimeFactor, reader) := reader.readSignedWordLE
  (⟨missionTimeFactor, externalTimeFactor⟩, reader)

end TimeCorrectionConfiguration

/-- `state::SailState`. The enumeration is a `uint8_t`, and `Read` casts any byte to it. -/
structure SailState where
  currentState : Byte
deriving DecidableEq

namespace SailState

/-- `SailState()`: `SailOpeningState::Waiting`. -/
def init : SailState := ⟨0⟩

def size : ℕ := 1

def write (s : SailState) (writer : Writer) : Writer := (writer.writeByte s.currentState).2

def read (_ : SailState) (reader : Reader) : SailState × Reader :=
  let (byte, reader) := reader.readByte
  (⟨byte⟩, reader)

end SailState

/-- `error_counter::ErrorCounting::MaxDevices`. -/
def maxDevices : ℕ := 14

/-- `state::ErrorCountersConfigState`: one word for each device. -/
structure ErrorCountersConfigState where
  config : List (BitVec 32)
  length_config : config.length = maxDevices
deriving DecidableEq

namespace ErrorCountersConfigState

/-- `ErrorCountersConfigState()`: limit 128, increment 5, decrement 2. -/
def init : ErrorCountersConfigState :=
  ⟨List.replicate maxDevices (128 ||| 5 <<< 8 ||| 2 <<< 16), List.length_replicate⟩

def size : ℕ := maxDevices * 4

def write (c : ErrorCountersConfigState) (writer : Writer) : Writer :=
  c.config.foldl (fun writer word => (writer.writeDoubleWordLE word).2) writer

/-- The loop of `Read`: the next `n` words. -/
def readWords : ℕ → Reader → List (BitVec 32) × Reader
  | 0, reader => ([], reader)
  | n + 1, reader =>
    let (v, reader) := reader.readDoubleWordLE
    let (vs, reader) := readWords n reader
    (v :: vs, reader)

theorem length_readWords (n : ℕ) (reader : Reader) : (readWords n reader).1.length = n := by
  induction n generalizing reader with
  | zero => rfl
  | succ n ih => simp only [readWords, List.length_cons, ih]

def read (_ : ErrorCountersConfigState) (reader : Reader) : ErrorCountersConfigState × Reader :=
  (⟨(readWords maxDevices reader).1, length_readWords _ _⟩, (readWords maxDevices reader).2)

end ErrorCountersConfigState

/-- `state::AdcsState`. -/
structure AdcsState where
  internalDetumblingDisabled : Bool
deriving DecidableEq

namespace AdcsState

/-- `AdcsState()`. -/
def init : AdcsState := ⟨false⟩

def size : ℕ := 1

def write (s : AdcsState) (writer : Writer) : Writer :=
  (writer.writeByte (BitVec.ofBool s.internalDetumblingDisabled |>.setWidth 8)).2

def read (_ : AdcsState) (reader : Reader) : AdcsState × Reader :=
  let (byte, reader) := reader.readByte
  (⟨byte != 0⟩, reader)

end AdcsState

/-- `MessageState::MessageLength`. -/
def messageLength : ℕ := 200

/-- `state::MessageState`. The interval counts minutes. -/
structure MessageState where
  interval : BitVec 64
  repeatCount : Byte
  message : List Byte
  length_message : message.length = messageLength
deriving DecidableEq

namespace MessageState

/-- `DefaultMessage`. -/
def defaultMessage : String :=
  "We are the Borg. Lower your shields and surrender your ships. We will add your biological and " ++
  "technological distinctiveness to our own. Your culture will adapt to service us. Resistance is futile."

/-- `std::copy(source.begin(), source.end(), target.begin())`. -/
def copy (source target : List Byte) : List Byte := source ++ target.drop source.length

theorem length_copy {source target : List Byte} (h : source.length ≤ target.length) :
    (copy source target).length = target.length := by
  rw [copy, List.length_append, List.length_drop]
  omega

/-- `MessageState()`. -/
def init : MessageState where
  interval := 10
  repeatCount := 0
  message := copy (defaultMessage.toList.map fun c => BitVec.ofNat 8 c.toNat)
    (List.replicate messageLength 0)
  length_message := by
    rw [length_copy, List.length_replicate]
    decide +kernel

def size : ℕ := 1 + 1 + 200

/-- The interval is cast to a `uint8_t`. -/
def write (m : MessageState) (writer : Writer) : Writer :=
  (((writer.writeByte (m.interval.setWidth 8)).2.writeByte m.repeatCount).2.writeArray m.message).2

def read (m : MessageState) (reader : Reader) : MessageState × Reader :=
  let interval := reader.readByte
  let repeatCount := interval.2.readByte
  let r := repeatCount.2.readArray m.message.length
  ({ interval := interval.1.setWidth 64
     repeatCount := repeatCount.1
     message := copy r.1 m.message
     length_message := (length_copy (Reader.length_readArray_le _ _)).trans m.length_message }, r.2)

end MessageState

/-! ## Container -/

/-- The parts of `state::SystemPersistentState`, in the order of its declaration. -/
structure Parts where
  antennaConfiguration : AntennaConfiguration
  timeState : TimeState
  timeCorrectionConfiguration : TimeCorrectionConfiguration
  sailState : SailState
  errorCountersConfigState : ErrorCountersConfigState
  adcsState : AdcsState
  messageState : MessageState
deriving DecidableEq

namespace Parts

def init : Parts :=
  ⟨.init, .init, .init, .init, .init, .init, .init⟩

/-- `PersistentState::Size`. -/
def size : ℕ :=
  AntennaConfiguration.size + (TimeState.size + (TimeCorrectionConfiguration.size +
    (SailState.size + (ErrorCountersConfigState.size + (AdcsState.size + MessageState.size)))))

/-- `PersistentState::Write`. -/
def write (p : Parts) (writer : Writer) : Writer :=
  let writer := p.antennaConfiguration.write writer
  let writer := p.timeState.write writer
  let writer := p.timeCorrectionConfiguration.write writer
  let writer := p.sailState.write writer
  let writer := p.errorCountersConfigState.write writer
  let writer := p.adcsState.write writer
  p.messageState.write writer

/-- `PersistentState::Read`. -/
def read (p : Parts) (reader : Reader) : Parts × Reader :=
  let (antennaConfiguration, reader) := p.antennaConfiguration.read reader
  let (timeState, reader) := p.timeState.read reader
  let (timeCorrectionConfiguration, reader) := p.timeCorrectionConfiguration.read reader
  let (sailState, reader) := p.sailState.read reader
  let (errorCountersConfigState, reader) := p.errorCountersConfigState.read reader
  let (adcsState, reader) := p.adcsState.read reader
  let (messageState, reader) := p.messageState.read reader
  (⟨antennaConfiguration, timeState, timeCorrectionConfiguration, sailState,
    errorCountersConfigState, adcsState, messageState⟩, reader)

end Parts

/-- `state::PersistentState` with `StateTrackingPolicy`. -/
structure PersistentState where
  parts : Parts
  isModified : Bool
deriving DecidableEq

namespace PersistentState

/-- `PersistentState()`. -/
def init : PersistentState := ⟨.init, false⟩

/-- `PersistentState::Capture`: writes the parts and marks the state as saved. -/
def capture (s : PersistentState) (writer : Writer) : PersistentState × Writer :=
  ({ s with isModified := false }, s.parts.write writer)

/-- `PersistentState::Read`. -/
def read (s : PersistentState) (reader : Reader) : PersistentState × Reader :=
  let (parts, reader) := s.parts.read reader
  ({ s with parts }, reader)

end PersistentState

/-- `state::LockablePersistentState`. `locked` is whether an operation obtains the lock. -/
structure LockablePersistentState where
  state : PersistentState
deriving DecidableEq

namespace LockablePersistentState

/-- `LockablePersistentState::Capture`. -/
def capture (s : LockablePersistentState) (locked : Bool) (writer : Writer) :
    Bool × LockablePersistentState × Writer :=
  if !locked then (false, s, writer)
  else
    let (state, writer) := s.state.capture writer
    (true, { s with state }, writer)

/-- `LockablePersistentState::Load`. -/
def load (s : LockablePersistentState) (locked : Bool) (newState : PersistentState) :
    Bool × LockablePersistentState :=
  if !locked then (false, s) else (true, { s with state := newState })

/-- `LockablePersistentState::Get`. -/
def get {α : Type} (s : LockablePersistentState) (locked : Bool) (part : Parts → α) : Option α :=
  if !locked then none else some (part s.state.parts)

/-- `LockablePersistentState::Set`. -/
def set (s : LockablePersistentState) (locked : Bool) (update : Parts → Parts) :
    Bool × LockablePersistentState :=
  if !locked then (false, s) else (true, ⟨update s.state.parts, true⟩)

end LockablePersistentState

end State

/-! ## Storage -/

open State

/-- `obc::IStorageAccess` over a memory of type `μ`. -/
structure StorageAccess (μ : Type) where
  read : μ → BitVec 32 → ℕ → List Byte
  write : μ → BitVec 32 → List Byte → μ

/-- `obc::PersistentStorageAccess`: the three FRAM chips behind the redundant driver.
`array` is the address of the buffer that `Read` fills. -/
def persistentStorageAccess (redundantBuffer1 redundantBuffer2 array : Aligned4) :
    StorageAccess RedundantFm25w where
  read memory address length :=
    (memory.read redundantBuffer1 redundantBuffer2 (address.setWidth 16) array.addr length).1
  write memory address span := memory.write (address.setWidth 16) span

namespace ObcState

/-- `Signature`. -/
def signature : BitVec 32 := 0x55aa77ee

/-- `TotalImageSize`. -/
def totalImageSize : ℕ := Parts.size + 2 * 4

variable {μ : Type} (storage : StorageAccess μ)

/-- `WritePersistentState`. `array` is what its buffer on the stack holds before. -/
def writePersistentState (array : Vector Byte totalImageSize)
    (stateObject : LockablePersistentState) (locked : Bool) (baseAddress : BitVec 32)
    (memory : μ) : Bool × LockablePersistentState × μ :=
  let writer := Writer.init array.toList
  let (_, writer) := writer.writeDoubleWordLE signature
  let (captured, stateObject, writer) := stateObject.capture locked writer
  if !captured then (false, stateObject, memory)
  else
    let (_, writer) := writer.writeDoubleWordLE signature
    if !writer.status then (false, stateObject, memory)
    else (true, stateObject, storage.write memory baseAddress writer.capture)

/-- What `ReadPersistentState` makes of the bytes in its buffer. -/
def parse (array : List Byte) : Option PersistentState :=
  let reader := Reader.init array
  let (header, reader) := reader.readDoubleWordLE
  if header ≠ signature ∨ !reader.status then none
  else
    let (newState, reader) := PersistentState.init.read reader
    let (footer, reader) := reader.readDoubleWordLE
    let isValid := footer == signature && reader.status
    if !isValid then none else some newState

/-- `ReadPersistentState`. -/
def readPersistentState (stateObject : LockablePersistentState) (locked : Bool)
    (baseAddress : BitVec 32) (memory : μ) : Bool × LockablePersistentState :=
  match parse (storage.read memory baseAddress totalImageSize) with
  | none => (false, stateObject)
  | some newState => stateObject.load locked newState

end ObcState

end PWSat2OBC
