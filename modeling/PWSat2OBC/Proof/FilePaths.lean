import PWSat2OBC.Proof.FileList
import PWSat2OBC.Proof.Reader

/-!
# Paths of the telecommands for files

A path is a pointer into the parameters, up to the next zero byte. `RequestedPath` is what the
checks of the handlers for download and removal leave of it: the path begins at byte 2 and a
zero follows its length byte's worth of bytes. The handler for the listing looks at the last
byte of the parameters, which is the correlation id when there is no path.
-/

namespace PWSat2OBC

/-- The path begins inside the parameters, and so does a zero byte behind it. -/
def InsideParameters (parameters : List Byte) (path : ℕ) : Prop :=
  path < parameters.length ∧ ∃ i, path ≤ i ∧ parameters[i]? = some 0

/-- The handlers. -/
inductive FileTelecommand
  | downloadFile
  | removeFile
  | listFiles
deriving DecidableEq, Repr

/-- `Handle`. -/
def FileTelecommand.handle : FileTelecommand → FileAnswers → List Byte → Option FileResponse
  | downloadFile, answers, parameters => some (DownloadFileTelecommand.handle answers parameters)
  | removeFile, answers, parameters => some (RemoveFileTelecommand.handle answers parameters)
  | listFiles, answers, parameters => ListFilesTelecommand.handle answers parameters

variable {parameters : List Byte} {answers : FileAnswers}

/-! ## Download and removal -/

/-- The readers of the two handlers: after the header, and after the path. -/
def afterLength (parameters : List Byte) : Reader := (Reader.init parameters).readByte.2.readByte.2

def afterPath (parameters : List Byte) : Reader :=
  ((afterLength parameters).readArray (Reader.init parameters).readByte.2.readByte.1.toNat).2

/-- The check of the two handlers passes: the path is inside the parameters. -/
theorem inside_of_checked (hstatus : (afterPath parameters).readByte.2.status = true)
    (hzero : (afterPath parameters).readByte.1 = 0) :
    InsideParameters parameters (afterLength parameters).position := by
  set length := (Reader.init parameters).readByte.2.readByte.1.toNat with hlength
  have hlt : length < 2 ^ 8 := (Reader.init parameters).readByte.2.readByte.1.isLt
  have h2 : (afterLength parameters).Consumed parameters 2 :=
    ((Reader.Consumed.init parameters).updateState (n := 1) (by omega)).updateState (n := 1) (by omega)
  have hpath : (afterPath parameters).Consumed parameters (2 + length) := h2.updateState (by omega)
  have hend : (afterPath parameters).readByte.2.Consumed parameters (2 + length + 1) :=
    hpath.updateState (by omega)
  have hle := (hend.isValid.1 hstatus).2
  have hposition : (afterLength parameters).position = 2 := h2.position (h2.valid_of_le (by omega) (by omega))
  rw [hpath.readByte (by omega), if_pos hle] at hzero
  rw [hposition]
  refine ⟨by omega, 2 + length, by omega, ?_⟩
  have hget := List.getElem?_eq_getElem (l := parameters) (i := 2 + length) (by omega)
  rw [List.getD_eq_getElem?_getD, hget, Option.getD_some] at hzero
  rw [hget, hzero]

/-- The check as the code has it. -/
theorem checked_of_not {status : Bool} {terminationByte : Byte}
    (h : ¬ (!status || terminationByte != 0) = true) : status = true ∧ terminationByte = 0 := by
  simpa using h

theorem DownloadFileTelecommand.path_inside :
    ∀ call ∈ (handle answers parameters).calls, InsideParameters parameters call.path := by
  unfold handle
  dsimp only
  split
  · exact fun call hcall => by contradiction
  · rename_i hcheck
    obtain ⟨hstatus, hzero⟩ := checked_of_not hcheck
    have hinside := inside_of_checked hstatus hzero
    intro call hcall
    have hpath : call.path = (afterLength parameters).position := by
      split at hcall
      · obtain rfl := List.mem_singleton.1 hcall
        rfl
      · split at hcall <;>
        · simp only [List.mem_cons, List.not_mem_nil, or_false] at hcall
          obtain rfl | rfl := hcall <;> rfl
    rw [hpath]
    exact hinside

theorem RemoveFileTelecommand.path_inside :
    ∀ call ∈ (handle answers parameters).calls, InsideParameters parameters call.path := by
  unfold handle
  dsimp only
  split
  · exact fun call hcall => by contradiction
  · rename_i hcheck
    obtain ⟨hstatus, hzero⟩ := checked_of_not hcheck
    intro call hcall
    obtain rfl := List.mem_singleton.1 hcall
    exact inside_of_checked hstatus hzero

/-! ## Listing -/

namespace ListFilesTelecommand

/-- The parameters are not accepted: the file system is not called. -/
theorem handle_rejected (h : ¬ Accepted parameters) :
    ∀ response ∈ handle answers parameters, response.calls = [] := by
  intro response hresponse
  unfold handle at hresponse
  dsimp only at hresponse
  split at hresponse
  · contradiction
  · rename_i ahead r hread
    split at hresponse
    · obtain rfl := Option.some.inj hresponse
      rfl
    · rename_i hcheck
      obtain ⟨hstatus, hlast⟩ := checked_of_not hcheck
      exact absurd ⟨ahead, r, hread, hstatus, hlast⟩ h

/-- The parameters are accepted: the directory is opened, and every call is about its path. -/
theorem handle_accepted (answers : FileAnswers) (h : Accepted parameters) :
    ∃ response, handle answers parameters = some response ∧
      .openDirectory (pathOf parameters) ∈ response.calls ∧
      ∀ call ∈ response.calls, call.path = pathOf parameters := by
  cases hdirectory : answers.directory with
  | ok entries =>
    obtain ⟨response, groups, hresponse, hopen, hgroups⟩ := handle_listing answers h hdirectory
    exact ⟨response, hresponse, hopen, hgroups.calls⟩
  | error status =>
    obtain ⟨ahead, r, hread, hstatus, hlast⟩ := h
    unfold handle
    dsimp only
    rw [hread]
    dsimp only
    rw [hstatus, hlast, hdirectory, if_neg (by decide)]
    refine ⟨_, rfl, List.mem_singleton_self _, ?_⟩
    intro call hcall
    obtain rfl := List.mem_singleton.1 hcall
    rfl

/-- Accepted parameters begin with a correlation id and end with a zero. -/
theorem Accepted.path (h : Accepted parameters) :
    pathOf parameters = 1 ∧ 0 < parameters.length ∧ parameters[parameters.length - 1]? = some 0 := by
  obtain ⟨ahead, r, hread, hstatus, hlast⟩ := h
  have h1 : (Reader.init parameters).readByte.2.Consumed parameters 1 :=
    (Reader.Consumed.init parameters).updateState (n := 1) (by omega)
  have hvalid : (Reader.init parameters).readByte.2.status = true := by
    by_contra hnot
    rw [Reader.readToEnd_of_not_valid (Bool.eq_false_iff.2 hnot)] at hread
    obtain rfl := (Prod.mk.inj (Option.some.inj hread)).2
    exact hnot hstatus
  obtain ⟨hne, hlength⟩ := h1.isValid.1 hvalid
  refine ⟨h1.position hvalid, hlength, ?_⟩
  rw [List.getLastD_eq_getLast?, List.getLast?_eq_getElem?, List.getElem?_eq_getElem (by omega)] at hlast
  rw [List.getElem?_eq_getElem (by omega)]
  exact congrArg some hlast

theorem inside_iff (h : Accepted parameters) :
    InsideParameters parameters (pathOf parameters) ↔ parameters ≠ [0] := by
  obtain ⟨hpath, hpos, hlast⟩ := h.path
  rw [hpath]
  constructor
  · rintro ⟨hlt, -⟩ rfl
    exact absurd hlt (lt_irrefl 1)
  · intro hne
    have hlong : 1 < parameters.length := by
      by_contra hshort
      have hone : parameters.length = 1 := by omega
      obtain ⟨b, rfl⟩ := List.length_eq_one_iff.1 hone
      obtain rfl : b = 0 := by simpa using hlast
      exact hne rfl
    exact ⟨hlong, _, by omega, hlast⟩

theorem correlationIdOnly_accepted : Accepted [0] := ⟨_, _, rfl, rfl, rfl⟩

end ListFilesTelecommand

/-! ## All of them -/

/-- Every path the handler passes on is inside the parameters. -/
def PathsInside (telecommand : FileTelecommand) (answers : FileAnswers) (parameters : List Byte) : Prop :=
  ∀ response ∈ telecommand.handle answers parameters, ∀ call ∈ response.calls,
    InsideParameters parameters call.path

theorem listFiles_pathsInside_iff :
    PathsInside .listFiles answers parameters ↔ parameters ≠ [0] := by
  by_cases h : ListFilesTelecommand.Accepted parameters
  · obtain ⟨response, hresponse, hopen, hcalls⟩ := ListFilesTelecommand.handle_accepted answers h
    rw [← ListFilesTelecommand.inside_iff h]
    constructor
    · intro hinside
      exact hinside response hresponse _ hopen
    · intro hinside response' hresponse' call hcall
      obtain rfl := Option.some.inj (hresponse.symm.trans hresponse')
      rw [hcalls call hcall]
      exact hinside
  · have hne : parameters ≠ [0] := by
      rintro rfl
      exact h ListFilesTelecommand.correlationIdOnly_accepted
    refine iff_of_true ?_ hne
    intro response hresponse call hcall
    rw [ListFilesTelecommand.handle_rejected h response hresponse] at hcall
    contradiction

/-- **Paths stay inside the parameters**, but for a listing that consists of nothing but a zero. -/
theorem pathsInside_iff (telecommand : FileTelecommand) (answers : FileAnswers) (parameters : List Byte) :
    PathsInside telecommand answers parameters ↔ ¬ (telecommand = .listFiles ∧ parameters = [0]) := by
  cases telecommand with
  | downloadFile =>
    refine iff_of_true ?_ fun h => by cases h.1
    intro response hresponse
    obtain rfl := Option.some.inj hresponse
    exact DownloadFileTelecommand.path_inside
  | removeFile =>
    refine iff_of_true ?_ fun h => by cases h.1
    intro response hresponse
    obtain rfl := Option.some.inj hresponse
    exact RemoveFileTelecommand.path_inside
  | listFiles =>
    rw [listFiles_pathsInside_iff, ne_eq, not_and]
    exact ⟨fun h _ => h, fun h => h rfl⟩

/-- The request [0]: the correlation id is taken for the terminator of a path behind it. -/
theorem correlationIdOnly_not_pathsInside :
    ¬ PathsInside .listFiles (ListFilesTelecommand.answersFor []) [0] := by
  rw [listFiles_pathsInside_iff]
  exact fun h => h rfl

end PWSat2OBC
