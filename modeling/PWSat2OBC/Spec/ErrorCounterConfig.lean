import PWSat2OBC.Spec.ReaderRuns
import PWSat2OBC.Spec.Telecommands

/-!
# Error counter configuration, entry by entry (`libs/obc/communication/telecommands/fdir.cpp`)

`SetErrorCounterConfig` for frames of any length: with the calls of `FDIR::Set` it makes on the way,
and with what ends the program when the reader is lost. For frames up to 64 KB it is the handler of
`Spec/Telecommands`.
-/

namespace PWSat2OBC

open State

namespace SetErrorCounterConfig

/-- The arguments of one call of `Set`. -/
structure Entry where
  device : Byte
  limit : Byte
  increment : Byte
  decrement : Byte
deriving DecidableEq, Repr

/-- How the handler ends. -/
inductive Ending
  /-- The frame with this payload is sent. -/
  | answered (payload : List Byte)
  /-- A violated contract of a span ends the program. -/
  | stopped
  /-- The last call of `Set` writes behind the array. -/
  | outside
deriving DecidableEq, Repr

/-- The calls of `Set`, the configuration after them, and the end. -/
structure Handling where
  applied : List Entry
  configuration : Vector (BitVec 32) maxDevices
  ending : Ending
deriving DecidableEq

/-- The four reads at the beginning of a turn. -/
def readEntry (r : Reader) : Option (Entry × Reader) := do
  let (device, r) ← SpanReader.readByte r
  let (limit, r) ← SpanReader.readByte r
  let (increment, r) ← SpanReader.readByte r
  let (decrement, r) ← SpanReader.readByte r
  some (⟨device, limit, increment, decrement⟩, r)

/-- The loop of `Handle`. Each turn reads four bytes, so `fuel` turns are enough for as many bytes. -/
def setEntries : (fuel : ℕ) → Reader → (payload : List Byte) → (applied : List Entry) →
    Vector (BitVec 32) maxDevices → Handling
  | 0, _, payload, applied, configuration => ⟨applied, configuration, .answered payload⟩
  | fuel + 1, r, payload, applied, configuration =>
    match readEntry r with
    | none => ⟨applied, configuration, .stopped⟩
    | some (entry, r) =>
      if !r.status then ⟨applied, configuration, .answered payload⟩
      else if maxDevices < entry.device.toNat then ⟨applied, configuration, .answered payload⟩
      else if h : entry.device.toNat < maxDevices then
        setEntries fuel r (payload ++ [entry.device]) (applied ++ [entry])
          (configuration.set entry.device.toNat (config entry.limit entry.increment entry.decrement) h)
      else ⟨applied ++ [entry], configuration, .outside⟩

/-- `SetErrorCounterConfig::Handle`. -/
def handleEntries (configuration : Vector (BitVec 32) maxDevices) (parameters : List Byte) : Handling :=
  match SpanReader.readByte (Reader.init parameters) with
  | none => ⟨[], configuration, .stopped⟩
  | some (correlationId, r) =>
    if !r.status then ⟨[], configuration, .answered [correlationId, 1]⟩
    else setEntries parameters.length r [correlationId, 0] [] configuration

/-- What the other handlers see of it. -/
def Handling.toHandled (s : OnboardState) (h : Handling) : Handled × OnboardState :=
  match h.ending with
  | .answered payload => (.frame apid payload, { s with errorCounters := h.configuration })
  | .stopped => (.stopped, s)
  | .outside => (.outOfBounds, s)

/-! ## What the frame says -/

/-- The complete entries of a frame behind its correlation id. -/
def entries : List Byte → List Entry
  | device :: limit :: increment :: decrement :: rest => ⟨device, limit, increment, decrement⟩ :: entries rest
  | _ => []

/-- An entry with an index of the array sets it, any other one changes nothing. -/
def Entry.apply (configuration : Vector (BitVec 32) maxDevices) (e : Entry) : Vector (BitVec 32) maxDevices :=
  if h : e.device.toNat < maxDevices then
    configuration.set e.device.toNat (config e.limit e.increment e.decrement) h
  else configuration

/-- **Only the table is written**: each call of `Set` has an index of the array, the calls are entries
of the frame in their order, and nothing but these changes the configuration. -/
structure KeepsTable (configuration : Vector (BitVec 32) maxDevices) (parameters : List Byte) : Prop where
  inside : ∀ e ∈ (handleEntries configuration parameters).applied, e.device.toNat < maxDevices
  inOrder : List.Sublist (handleEntries configuration parameters).applied (entries (parameters.drop 1))
  configuration : (handleEntries configuration parameters).configuration =
    (handleEntries configuration parameters).applied.foldl Entry.apply configuration

/-- The entries a reader with a 16-bit position comes to. -/
def reached (parameters : List Byte) : List Entry := (entries (parameters.drop 1)).take 16383

/-- The first entry without an index of the array, if there is one, does not have the index behind it. -/
def SparesEnd (parameters : List Byte) : Prop :=
  ∀ e, (reached parameters).find? (fun e => maxDevices ≤ e.device.toNat) = some e → e.device.toNat ≠ maxDevices

end SetErrorCounterConfig

end PWSat2OBC
