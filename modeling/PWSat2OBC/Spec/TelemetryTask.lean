import PWSat2OBC.Spec.Redundancy

/-!
# The telemetry task (`libs/telemetry/serialization/telemetry.cpp`)

`SaveToFile` appends an entry to the current telemetry file, at the next multiple of
`AlignFileEntriesTo`. A file that has reached its maximal size is archived first: it is moved
over the previous file and a new one is created. Each file operation is a step of its own,
and the event says what has become of it.

`written` and `archived` record what was written into the current file and into the one that
was archived last.
-/

namespace PWSat2OBC

namespace TelemetryTask

/-- `TelemetryTask::AlignFileEntriesTo`. -/
def alignFileEntriesTo : BitVec 32 := 230

/-- `CalculateBestOffset`, in the arithmetic of `size_t`. -/
def calculateBestOffset (currentSize : BitVec 32) : BitVec 32 :=
  let rem := currentSize % alignFileEntriesTo
  if rem = 0 then currentSize else currentSize + (alignFileEntriesTo - rem)

/-- Write into a file from a position on. A gap between its end and the position is filled
with zeros. -/
def writeAt (file : List Byte) (position : ℕ) (bytes : List Byte) : List Byte :=
  if bytes.isEmpty then file
  else file.take position ++ List.replicate (position - file.length) 0 ++ bytes ++
    file.drop (position + bytes.length)

/-- A write to the current file: the part of the buffer that was stored, where it begins, the
size of the file before, and whether it succeeded. -/
structure Entry where
  offset : ℕ
  bytes : List Byte
  sizeBefore : ℕ
  ok : Bool
deriving DecidableEq, Repr

/-- What a file is made of: the bytes it had when it was found, and the writes since. -/
structure Contents where
  found : List Byte
  entries : List Entry
deriving DecidableEq, Repr

/-- The next file operation of `SaveToFile`. -/
inductive Pc
  | idle
  | sizing (buffer : List Byte)
  | moving (buffer : List Byte)
  | creating (buffer : List Byte)
  | sizingNew (buffer : List Byte)
  | seeking (buffer : List Byte) (size : BitVec 32)
  | writing (buffer : List Byte) (position : ℕ)
deriving DecidableEq, Repr

end TelemetryTask

open TelemetryTask

/-- The two telemetry files, the operation that comes next, the result of the last
`SaveToFile`, and what the files should hold. -/
structure TelemetryTask where
  current : Option (List Byte)
  previous : Option (List Byte)
  pc : Pc
  result : Option Bool
  written : Contents
  archived : Option Contents
deriving DecidableEq, Repr

/-- The next operation and its outcome. -/
inductive TelemetryEvent
  /-- `SaveToFile` is called and opens the current file with `OpenAlways`. -/
  | save (buffer : List Byte) (opened : Bool)
  /-- `Size` returns a number. -/
  | size (reported : BitVec 32)
  | move (ok : Bool)
  /-- The current file is opened with `CreateAlways`. -/
  | create (ok : Bool)
  | seek (ok : Bool)
  /-- The write stores a part of the buffer. -/
  | write (ok : Bool) (stored : ℕ)
deriving DecidableEq, Repr

namespace TelemetryTask

/-- The task with the files it finds. -/
def init (current previous : Option (List Byte)) : TelemetryTask where
  current := current
  previous := previous
  pc := .idle
  result := none
  written := ⟨current.getD [], []⟩
  archived := previous.map fun file => ⟨file, []⟩

/-- `SaveToFile` returns. -/
def finish (s : TelemetryTask) (result : Bool) : TelemetryTask :=
  { s with pc := .idle, result := some result }

/-- A seek succeeds only for an offset that is not negative as a `FileSize`. -/
def seekSucceeds (ok : Bool) (offset : BitVec 32) : Bool := ok && 0 ≤ offset.toInt

/-- The write of a part of the buffer at the position of the current file. -/
def store (s : TelemetryTask) (position : ℕ) (bytes : List Byte) (ok : Bool) : TelemetryTask :=
  let file := s.current.getD []
  { s with
    current := some (writeAt file position bytes)
    written := ⟨s.written.found, s.written.entries ++ [⟨position, bytes, file.length, ok⟩]⟩ }

/-- One file operation of `SaveToFile`. -/
def step (maxFileSize : ℤ) (s : TelemetryTask) : TelemetryEvent → Option TelemetryTask
  | .save buffer opened =>
    match s.pc with
    | .idle =>
      if opened then some { s with current := some (s.current.getD []), pc := .sizing buffer }
      else some (s.finish false)
    | _ => none
  | .size reported =>
    match s.pc with
    | .sizing buffer =>
      if maxFileSize ≤ reported.toInt then some { s with pc := .moving buffer }
      else some { s with pc := .seeking buffer reported }
    | .sizingNew buffer => some { s with pc := .seeking buffer reported }
    | _ => none
  | .move ok =>
    match s.pc with
    | .moving buffer =>
      if ok then
        some { s with
          current := none, previous := s.current, pc := .creating buffer,
          written := ⟨[], []⟩, archived := some s.written }
      else some (s.finish false)
    | _ => none
  | .create ok =>
    match s.pc with
    | .creating buffer =>
      if ok then some { s with current := some [], pc := .sizingNew buffer }
      else some (s.finish false)
    | _ => none
  | .seek ok =>
    match s.pc with
    | .seeking buffer size =>
      let offset := calculateBestOffset size
      -- the result of `Seek` is not looked at; the file has just been opened
      some { s with pc := .writing buffer (if seekSucceeds ok offset then offset.toNat else 0) }
    | _ => none
  | .write ok stored =>
    match s.pc with
    | .writing buffer position => some ((s.store position (buffer.take stored) ok).finish ok)
    | _ => none

end TelemetryTask

end PWSat2OBC
