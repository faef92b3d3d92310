import PWSat2OBC.Lib.Loops
import PWSat2OBC.Spec.ExperimentFile

/-!
# Files (`libs/fs/yaffs.cpp`)

`YaffsFileSystem` calls yaffs and translates what it answers. The answers of yaffs are an
argument: `-1`, or the descriptor, or the number of bytes that were transferred. A call that
fails leaves an error code other than `0`.
-/

namespace PWSat2OBC

namespace YaffsFileSystem

/-- `YaffsTranslateError`, where `lastError` is what `yaffs_get_error` returns. -/
def yaffsTranslateError (error : ℤ) (lastError : OSResult) : OSResult :=
  if error ≠ -1 then .success else lastError

/-! ## Copy -/

/-- A call to yaffs with its result. -/
inductive Call
  | openFile (result : ℤ)
  | read (result : ℤ)
  | write (nbyte result : ℤ)
  | close (file result : ℤ)
deriving DecidableEq, Repr

/-- What yaffs answers during a copy. A read and a write transfer at most as many bytes as they
are given, and a read at most what is left of the file. -/
structure Answers where
  source : ℤ
  destination : ℤ
  reads : ℕ → Option ℕ
  writes : ℕ → Option ℕ
  sourceClosed : ℤ
  destinationClosed : ℤ
  lastError : OSResult
  lastError_ne : lastError ≠ .success

/-- The result of a read or write. -/
def transferred (answer : Option ℕ) (most : ℕ) : ℤ :=
  match answer with
  | none => -1
  | some n => (min n most : ℕ)

variable {File : Type} [DecidableEq File]

/-- The contents of the files, the position in the source and the calls so far. The destination
is written at its end. -/
structure CopyState (File : Type) where
  files : File → List Byte
  position : ℕ
  calls : List Call

/-- How the loop of `Copy` ends. -/
inductive CopyEnd
  | failed
  | finished
deriving DecidableEq, Repr

/-- `bufferSize`. -/
def bufferSize : ℕ := 1024

/-- One turn of the loop in `Copy`. -/
def copyTurn (answers : Answers) (source destination : File) (s : CopyState File) (i : ℕ) :
    Option CopyEnd × CopyState File :=
  let rest := (s.files source).drop s.position
  let bytesRead := transferred (answers.reads i) (min bufferSize rest.length)
  let buffer := rest.take bytesRead.toNat
  let s := { s with position := s.position + bytesRead.toNat, calls := s.calls ++ [.read bytesRead] }
  if bytesRead = -1 then (some .failed, s)
  else
    let bytesWritten := transferred (answers.writes i) buffer.length
    let s := { s with
      files := Function.update s.files destination (s.files destination ++ buffer.take bytesWritten.toNat)
      calls := s.calls ++ [.write bytesRead bytesWritten] }
    if bytesWritten = -1 then (some .failed, s)
    else if bytesRead < bufferSize then (some .finished, s)
    else (none, s)

/-- What a copy leaves. -/
structure Copied (File : Type) where
  result : OSResult
  files : File → List Byte
  calls : List Call

/-- `YaffsFileSystem::Copy`. `source` and `destination` are the files that the two paths name. The
loop reads whole blocks before its last turn, so it cannot take more turns than this. -/
def copy (answers : Answers) (files : File → List Byte) (source destination : File) :
    Option (Copied File) :=
  let calls := [.openFile answers.source]
  if answers.source = -1 then
    some ⟨yaffsTranslateError answers.source answers.lastError, files, calls⟩
  else
    let calls := calls ++ [.openFile answers.destination]
    if answers.destination = -1 then
      some ⟨yaffsTranslateError answers.destination answers.lastError, files,
        calls ++ [.close answers.source answers.sourceClosed]⟩
    else
      let files' := Function.update files destination []
      let r := Loops.firstSome (copyTurn answers source destination)
        (List.range ((files source).length / bufferSize + 1)) ⟨files', 0, calls⟩
      let closed := [.close answers.destination answers.destinationClosed,
        .close answers.source answers.sourceClosed]
      r.1.map fun
        | .failed => ⟨yaffsTranslateError answers.destination answers.lastError, r.2.files,
            r.2.calls ++ closed⟩
        | .finished =>
          ⟨if answers.destinationClosed = -1 then
              yaffsTranslateError answers.destinationClosed answers.lastError
            else yaffsTranslateError answers.sourceClosed answers.lastError,
            r.2.files, r.2.calls ++ closed⟩

/-! ## MakeDirectory -/

/-- What `MakeDirectory` uses of yaffs. `yaffs_mkdir` returns `0` or `-1`, creates the directory
unless it returns `-1`, and removes nothing. -/
structure Directories (σ : Type) where
  pathExists : σ → List Byte → Bool
  mkdir : σ → List Byte → ℤ × σ
  lastError : σ → OSResult
  mkdir_status : ∀ s path, (mkdir s path).1 = 0 ∨ (mkdir s path).1 = -1
  mkdir_creates : ∀ s path, (mkdir s path).1 = 0 → pathExists (mkdir s path).2 path = true
  mkdir_keeps : ∀ s path other, pathExists s other = true → pathExists (mkdir s path).2 other = true
  lastError_ne : ∀ s, lastError s ≠ .success

/-- `'/'`. -/
def slash : Byte := 0x2F

/-- A path, without its terminating zero. -/
abbrev Path := { path : List Byte // (0 : Byte) ∉ path }

/-- `strchr` from the index `i` of the buffer: `none` when it comes to the end of the buffer. -/
def strchr (buf : List Byte) (c : Byte) (i : ℕ) : Option (Option ℕ) :=
  scan (buf.drop i) i
where
  scan : List Byte → ℕ → Option (Option ℕ)
    | [], _ => none
    | b :: rest, i => if b = c then some (some i) else if b = 0 then some none else scan rest (i + 1)

theorem strchr_scan_bounds {c : Byte} {l : List Byte} {i p : ℕ} (h : strchr.scan c l i = some (some p)) :
    i ≤ p ∧ p < i + l.length := by
  induction l generalizing i with
  | nil => cases h
  | cons b l ih =>
    rw [strchr.scan] at h
    rw [List.length_cons]
    by_cases hb : b = c
    · rw [if_pos hb] at h
      cases h
      omega
    · rw [if_neg hb] at h
      by_cases hz : b = 0
      · rw [if_pos hz] at h
        cases h
      · rw [if_neg hz] at h
        have hbounds := ih h
        omega

/-- What `strchr` finds lies behind where it begins. -/
theorem strchr_bounds {buf : List Byte} {c : Byte} {i p : ℕ} (h : strchr buf c i = some (some p)) :
    i ≤ p ∧ p < buf.length := by
  have hbounds := strchr_scan_bounds h
  rw [List.length_drop] at hbounds
  omega

/-- The string in the buffer. -/
def cString (buf : List Byte) : List Byte := buf.takeWhile (· ≠ 0)

/-- The file system, and the directories that `yaffs_mkdir` was called for. -/
structure Made (σ : Type) where
  files : σ
  calls : List (List Byte)

/-- How a call of `MakeDirectory` ends. -/
inductive Outcome (σ : Type)
  | returned (result : OSResult) (made : Made σ)
  /-- Memory outside of the buffer was accessed. -/
  | outside

variable {σ : Type} (d : Directories σ)

/-- The loop of `MakeDirectory`, from where `strchr` looks for the next slash on. -/
def mkdirLoop (status : ℤ) (s : Made σ) (buf : List Byte) (i : ℕ) : Outcome σ :=
  match hp : strchr buf slash i with
  | none => .outside
  | some none => .returned (yaffsTranslateError status (d.lastError s.files)) s
  | some (some p) =>
    have : i ≤ p ∧ p < buf.length := strchr_bounds hp
    let cut := buf.set p 0
    if d.pathExists s.files (cString cut) then mkdirLoop status s (cut.set p slash) (p + 1)
    else
      let (status, files) := d.mkdir s.files (cString cut)
      let s := ⟨files, s.calls ++ [cString cut]⟩
      if status < 0 then .returned (yaffsTranslateError status (d.lastError files)) s
      else mkdirLoop status s (cut.set p slash) (p + 1)
termination_by buf.length - i
decreasing_by all_goals
  simp only [List.length_set]
  omega

/-- `stpncpy`: the buffer, and the index of `end`. -/
def stpncpy (buf path : List Byte) (n : ℕ) : List Byte × ℕ :=
  (path.take n ++ List.replicate (n - path.length) 0 ++ buf.drop n, min path.length n)

/-- A write into the buffer. -/
def store (buf : List Byte) (i : ℕ) (b : Byte) : Option (List Byte) :=
  if i < buf.length then some (buf.set i b) else none

/-- The slash behind the path: `none` when memory outside of the buffer is accessed. -/
def endWithSlash (buf : List Byte) (endIndex : ℕ) : Option (List Byte) :=
  if endIndex = 0 then none
  else if buf[endIndex - 1]? ≠ some slash then (store buf endIndex slash).bind fun buf => store buf (endIndex + 1) 0
  else some buf

/-- `YaffsFileSystem::MakeDirectory`. The buffer is not initialized. -/
def makeDirectory (nameMax : ℕ) (uninitialized : ℕ → Byte) (files : σ) (path : Path) : Outcome σ :=
  let (buf, endIndex) := stpncpy ((List.range (nameMax + 1)).map uninitialized) path.1 nameMax
  match endWithSlash buf endIndex with
  | none => .outside
  | some buf => mkdirLoop d 0 ⟨files, []⟩ buf 1

end YaffsFileSystem

end PWSat2OBC
