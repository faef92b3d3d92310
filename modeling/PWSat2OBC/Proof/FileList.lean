import PWSat2OBC.Proof.Downlink
import PWSat2OBC.Spec.FileTelecommands

/-!
# The listing of a directory

`record e` is what the ground is to learn about an entry. `Stands name entries todo`: with
`name` at hand and `entries` behind it, the entries of `todo` are not in any frame yet. A turn
of the inner loop puts one record into the frame or finds no room (`turn_cases`), a frame takes
as many records as have room (`fill_spec`), and the frames go on until nothing is left
(`sendAll_spec`).
-/

namespace PWSat2OBC

namespace ListFilesTelecommand

/-! ## Records -/

/-- Name, terminator and size, for a name that has its place in a frame. -/
def record (e : DirectoryEntry) : List Byte :=
  if e.name.length ≤ maxNameLength then e.name ++ [0] ++ Redundancy.storeWord e.size
  else lostFileName ++ [0] ++ Redundancy.storeWord 0

theorem length_record (e : DirectoryEntry) :
    (record e).length = (if e.name.length ≤ maxNameLength then e.name.length else 6) + 5 := by
  unfold record
  split <;> simp [Redundancy.storeWord, lostFileName]

theorem length_record_le (e : DirectoryEntry) : (record e).length ≤ 95 := by
  have h90 : maxNameLength = 90 := rfl
  rw [length_record]
  split <;> omega

theorem le_length_record (e : DirectoryEntry) : 5 ≤ (record e).length := by
  rw [length_record]
  omega

/-- The entries that `name` and the entries behind it stand for. -/
inductive Stands : NamePointer → List DirectoryEntry → List DirectoryEntry → Prop
  | null : Stands .null [] []
  | entry (e : DirectoryEntry) (entries : List DirectoryEntry) : Stands (.entry e) entries (e :: entries)
  | lost (e : DirectoryEntry) (entries : List DirectoryEntry) (h : maxNameLength < e.name.length) :
    Stands .lost entries (e :: entries)

theorem Stands.null_or {name : NamePointer} {entries todo : List DirectoryEntry}
    (h : Stands name entries todo) : (name = .null ∧ entries = [] ∧ todo = []) ∨ ∃ e, todo = e :: entries := by
  cases h with
  | null => exact .inl ⟨rfl, rfl, rfl⟩
  | entry e => exact .inr ⟨e, rfl⟩
  | lost e => exact .inr ⟨e, rfl⟩

theorem stands_readDirectory (entries : List DirectoryEntry) :
    Stands (readDirectory entries).1 (readDirectory entries).2 entries := by
  cases entries with
  | nil => exact .null
  | cons e entries => exact .entry e entries

/-! ## Turns -/

variable {response : DownlinkFrame} {seq : BitVec 32} {payload : List Byte} {path : ℕ}
  {name : NamePointer} {entries todo : List DirectoryEntry} {calls : List FileCall}

/-- A record that has room is appended. -/
theorem carries_writeRecord (h : response.Carries apid seq payload) (s : List Byte) (size : BitVec 32)
    (hroom : payload.length + (s.length + 5) ≤ DownlinkFrame.maxPayloadSize) :
    (writeRecord response s size).Carries apid seq (payload ++ (s ++ [0] ++ Redundancy.storeWord size)) := by
  have h1 := h.writeArray s (by omega)
  have h2 := h1.writeByte 0 (by
    rw [List.length_append]
    omega)
  have h3 := h2.writeDoubleWordLE size (by
    rw [List.length_append, List.length_append, List.length_singleton]
    omega)
  rw [← List.append_assoc, ← List.append_assoc]
  exact h3

theorem remainingSize_lt_iff (h : response.Carries apid seq payload) (n : ℕ) :
    response.payloadWriter.remainingSize < (n : ℕ) ↔ DownlinkFrame.maxPayloadSize < payload.length + n := by
  have hle := h.length_le
  rw [h.holds.remainingSize, Int.ofNat_lt]
  omega

/-- **A turn**: the record of the next entry is appended, or it has no room and the entry stays
the next one. The marker that was carried over is written unasked. -/
theorem turn_cases (path : ℕ) {e : DirectoryEntry} (h : response.Carries apid seq payload)
    (hs : Stands name entries (e :: todo))
    (hlost : name = .lost → payload.length + 95 ≤ DownlinkFrame.maxPayloadSize) :
    (payload.length + (record e).length ≤ DownlinkFrame.maxPayloadSize ∧ entries = todo ∧
      ∃ response' more, turn path response name = .continue response' more ∧
        response'.Carries apid seq (payload ++ record e) ∧ ∀ call ∈ more, call.path = path) ∨
    (DownlinkFrame.maxPayloadSize < payload.length + (record e).length ∧
      ∃ name', turn path response name = .break true name' ∧ Stands name' entries (e :: todo)) := by
  cases hs with
  | lost _ _ hlong =>
    have h95 := hlost rfl
    have hle := length_record_le e
    have hrecord : record e = lostFileName ++ [0] ++ Redundancy.storeWord 0 := by
      unfold record
      rw [if_neg (by omega)]
    refine .inl ⟨by omega, rfl, _, _, rfl, ?_, fun call hcall => by contradiction⟩
    have hwrite := carries_writeRecord h lostFileName 0 (by
      change payload.length + 11 ≤ _
      omega)
    rw [hrecord]
    exact hwrite
  | entry =>
    by_cases hlong : maxNameLength < e.name.length
    · -- a name that is too long: the marker instead
      have hrecord : record e = lostFileName ++ [0] ++ Redundancy.storeWord 0 := by
        unfold record
        rw [if_neg (by omega)]
      have hlength : (record e).length = lostFileName.length + 5 := by
        rw [hrecord]
        rfl
      have hlt : min e.name.length maxNameLength < e.name.length := by omega
      have hroom := remainingSize_lt_iff h (lostFileName.length + 5)
      unfold turn
      dsimp only
      rw [if_pos hlt]
      by_cases hfull : DownlinkFrame.maxPayloadSize < payload.length + (lostFileName.length + 5)
      · rw [if_pos (hroom.2 hfull)]
        exact .inr ⟨by omega, _, rfl, .lost e _ hlong⟩
      · rw [if_neg (fun hr => hfull (hroom.1 hr))]
        refine .inl ⟨by omega, rfl, _, _, rfl, ?_, fun call hcall => by contradiction⟩
        rw [hrecord]
        exact carries_writeRecord h lostFileName 0 (by omega)
    · have hmin : min e.name.length maxNameLength = e.name.length := by omega
      have hrecord : record e = e.name ++ [0] ++ Redundancy.storeWord e.size := by
        unfold record
        rw [if_pos (by omega)]
      have hlength : (record e).length = e.name.length + 5 := by
        rw [length_record, if_pos (by omega)]
      have hroom := remainingSize_lt_iff h (e.name.length + 5)
      unfold turn
      dsimp only
      rw [hmin, if_neg (lt_irrefl _)]
      by_cases hfull : DownlinkFrame.maxPayloadSize < payload.length + (e.name.length + 5)
      · rw [if_pos (hroom.2 hfull)]
        exact .inr ⟨by omega, _, rfl, .entry e _⟩
      · rw [if_neg (fun hr => hfull (hroom.1 hr))]
        refine .inl ⟨by omega, rfl, _, _, rfl, ?_, fun call hcall => ?_⟩
        · rw [hrecord, List.take_length]
          exact carries_writeRecord h e.name e.size (by omega)
        · obtain rfl := List.mem_singleton.1 hcall
          rfl

/-! ## Frames -/

/-- What a frame takes of the entries that are left: those of `sent`. -/
structure FillSpec (path : ℕ) (seq : BitVec 32) (payload : List Byte) (todo : List DirectoryEntry)
    (filled : Filled) (sent rest : List DirectoryEntry) : Prop where
  split : todo = sent ++ rest
  carries : filled.response.Carries apid seq (payload ++ sent.flatMap record)
  stands : Stands filled.name filled.entries rest
  moreFiles : filled.moreFiles = true ↔ rest ≠ []
  /-- The next record has no room. -/
  full : ∀ e ∈ rest.head?, DownlinkFrame.maxPayloadSize <
    (payload ++ sent.flatMap record).length + (record e).length
  calls : ∀ call ∈ filled.calls, call.path = path

/-- A frame without room for the next record. -/
theorem FillSpec.break {e : DirectoryEntry} (h : response.Carries apid seq payload)
    (hs : Stands name entries (e :: todo))
    (hfull : DownlinkFrame.maxPayloadSize < payload.length + (record e).length)
    (hcalls : ∀ call ∈ calls, call.path = path) :
    FillSpec path seq payload (e :: todo) ⟨true, name, entries, response, calls⟩ [] (e :: todo) where
  split := rfl
  carries := by
    rw [List.flatMap_nil, List.append_nil]
    exact h
  stands := hs
  moreFiles := ⟨fun _ => List.cons_ne_nil _ _, fun _ => rfl⟩
  full := by
    intro e' he'
    obtain rfl : e = e' := by simpa using he'
    rw [List.flatMap_nil, List.append_nil]
    exact hfull
  calls := hcalls

/-- A record in front of those that the rest of the turns add. -/
theorem FillSpec.cons {e : DirectoryEntry} {filled : Filled} {sent rest : List DirectoryEntry}
    (h : FillSpec path seq (payload ++ record e) todo filled sent rest) :
    FillSpec path seq payload (e :: todo) filled (e :: sent) rest where
  split := congrArg (e :: ·) h.split
  carries := by
    rw [List.flatMap_cons, ← List.append_assoc]
    exact h.carries
  stands := h.stands
  moreFiles := h.moreFiles
  full := by
    rw [List.flatMap_cons, ← List.append_assoc]
    exact h.full
  calls := h.calls

/-- **A frame**: it takes records of the next entries, in order, and goes on until nothing is
left or the next record has no room. -/
theorem fill_spec (path : ℕ) (h : response.Carries apid seq payload) (hs : Stands name entries todo)
    (hlost : name = .lost → payload.length + 95 ≤ DownlinkFrame.maxPayloadSize)
    (hcalls : ∀ call ∈ calls, call.path = path) :
    ∃ sent rest, FillSpec path seq payload todo (fill path name response calls entries) sent rest := by
  induction entries generalizing name response payload todo calls with
  | nil =>
    obtain ⟨rfl, -, rfl⟩ | ⟨e, rfl⟩ := hs.null_or
    · -- `nullptr` ends the list
      refine ⟨[], [], rfl, ?_, .null, ?_, fun e he => by contradiction, hcalls⟩
      · rw [List.flatMap_nil, List.append_nil]
        exact h
      · exact ⟨fun hmore => by contradiction, fun hrest => absurd rfl hrest⟩
    · obtain ⟨-, -, response', more, hturn, hcarries, hmore⟩ | ⟨hfull, name', hturn, hs'⟩ :=
        turn_cases path h hs hlost
      · refine ⟨[e], [], ?_⟩
        unfold fill
        rw [hturn]
        refine ⟨rfl, ?_, .null, ⟨fun hmore => by contradiction, fun hrest => absurd rfl hrest⟩,
          fun e he => by contradiction, ?_⟩
        · rw [List.flatMap_singleton]
          exact hcarries
        · intro call hcall
          exact (List.mem_append.1 hcall).elim (hcalls call) (hmore call)
      · refine ⟨[], [e], ?_⟩
        unfold fill
        rw [hturn]
        exact FillSpec.break h hs' hfull hcalls
  | cons e' entries ih =>
    obtain ⟨-, h0, -⟩ | ⟨e, rfl⟩ := hs.null_or
    · contradiction
    · obtain ⟨-, -, response', more, hturn, hcarries, hmore⟩ | ⟨hfull, name', hturn, hs'⟩ :=
        turn_cases path h hs hlost
      · -- the turn after it is about the entry read next
        have hcalls' : ∀ call ∈ calls ++ more, call.path = path := fun call hcall =>
          (List.mem_append.1 hcall).elim (hcalls call) (hmore call)
        obtain ⟨sent, rest, hrest⟩ := ih hcarries (.entry e' entries) (fun hlost => by contradiction) hcalls'
        refine ⟨e :: sent, rest, ?_⟩
        unfold fill
        rw [hturn]
        exact hrest.cons
      · refine ⟨[], e :: e' :: entries, ?_⟩
        unfold fill
        rw [hturn]
        exact FillSpec.break h hs' hfull hcalls

/-! ## The whole listing -/

/-- A frame as the ground reads it. -/
def listed (seq : ℕ) (correlationId : Byte) (group : List DirectoryEntry) : ReceivedFrame :=
  ⟨0x0C, seq % 2 ^ 18, correlationId :: 0 :: group.flatMap record⟩

/-- **The frames of a listing**: groups of entries that make up all of them, each group in one
frame, with the sequence numbers from `seq` on. -/
structure ListSpec (path : ℕ) (correlationId : Byte) (seq : BitVec 32) (todo : List DirectoryEntry)
    (response : FileResponse) (groups : List (List DirectoryEntry)) : Prop where
  flatten : groups.flatten = todo
  fits : ∀ group ∈ groups, (group.flatMap record).length ≤ CorrelatedDownlinkFrame.maxPayloadSize - 1
  frames : response.frames.map ReceivedFrame.parse =
    groups.mapIdx fun i group => listed (seq.toNat + i) correlationId group
  calls : ∀ call ∈ response.calls, call.path = path

theorem sendAll_spec (path : ℕ) (correlationId : Byte) (seq : BitVec 32) (fuel : ℕ) (hs : Stands name entries todo)
    (hfuel : todo.length < fuel) :
    ∃ response groups, sendAll path correlationId fuel seq name entries = some response ∧
      ListSpec path correlationId seq todo response groups := by
  induction fuel generalizing seq name entries todo with
  | zero => exact absurd hfuel (Nat.not_lt_zero _)
  | succ fuel ih =>
    have hmax : DownlinkFrame.maxPayloadSize = 232 := rfl
    have hmax' : CorrelatedDownlinkFrame.maxPayloadSize = 231 := rfl
    have hinit : ((CorrelatedDownlinkFrame.init apid seq correlationId).writeByte 0).Carries apid seq
        [correlationId, 0] :=
      (CorrelatedDownlinkFrame.carries_init apid seq correlationId).writeByte 0 (by
        rw [hmax, List.length_singleton]
        omega)
    have hlength : [correlationId, (0 : Byte)].length = 2 := rfl
    have hnocalls : ∀ call ∈ ([] : List FileCall), call.path = path := fun call hcall => by contradiction
    obtain ⟨sent, rest, h⟩ := fill_spec path hinit hs (fun _ => by omega) hnocalls
    generalize hfill : fill path name ((CorrelatedDownlinkFrame.init apid seq correlationId).writeByte 0) []
      entries = filled at h
    -- the frame of this turn
    have hframe : ReceivedFrame.parse filled.response.frame = listed seq.toNat correlationId sent :=
      h.carries.parse
    have hfits : (sent.flatMap record).length ≤ CorrelatedDownlinkFrame.maxPayloadSize - 1 := by
      have hle := h.carries.length_le
      rw [List.length_append] at hle
      omega
    unfold sendAll
    dsimp only
    rw [hfill]
    by_cases hmore : filled.moreFiles = true
    · rw [if_pos hmore]
      obtain ⟨e, rest, rfl⟩ := List.exists_cons_of_ne_nil (h.moreFiles.1 hmore)
      -- an empty frame has room for a record
      have hsent : sent ≠ [] := by
        rintro rfl
        have hfull := h.full e rfl
        have hle := length_record_le e
        rw [List.flatMap_nil, List.append_nil] at hfull
        omega
      have hpos := List.length_pos_iff.2 hsent
      have hrest : (e :: rest).length < fuel := by
        rw [h.split, List.length_append] at hfuel
        omega
      obtain ⟨response, groups, hresponse, hgroups⟩ := ih (seq + 1) h.stands hrest
      refine ⟨_, sent :: groups, congrArg (Option.map _) hresponse, ?_, ?_, ?_, ?_⟩
      · rw [List.flatten_cons, hgroups.flatten, h.split]
      · exact List.forall_mem_cons.2 ⟨hfits, hgroups.fits⟩
      · have hnext : ∀ i, (seq + 1).toNat + i ≡ seq.toNat + (i + 1) [MOD 2 ^ 18] := by
          intro i
          rw [BitVec.toNat_add]
          unfold Nat.ModEq
          change ((seq.toNat + 1) % 2 ^ 32 + i) % 2 ^ 18 = _
          omega
        rw [List.map_cons, hframe, hgroups.frames, List.mapIdx_cons]
        congr 1
        refine congrArg (List.mapIdx · groups) ?_
        funext i group
        unfold listed
        rw [hnext i]
      · intro call hcall
        exact (List.mem_append.1 hcall).elim (h.calls call) (hgroups.calls call)
    · -- nothing is left: the last frame
      rw [if_neg hmore]
      have hrest : rest = [] := by
        by_contra hne
        exact hmore (h.moreFiles.2 hne)
      refine ⟨_, [sent], rfl, ?_, ?_, ?_, h.calls⟩
      · rw [List.flatten_singleton, h.split, hrest, List.append_nil]
      · exact List.forall_mem_singleton.2 hfits
      · rw [List.map_singleton, hframe]
        rfl

/-! ## The handler -/

/-- The parameters are accepted: there is a correlation id, and the last byte is zero. -/
def Accepted (parameters : List Byte) : Prop :=
  ∃ ahead r, ((Reader.init parameters).readByte.2).readToEnd = some (ahead, r) ∧ r.status = true ∧
    parameters.getLastD 0 = 0

/-- The path and the correlation id of a request. -/
def pathOf (parameters : List Byte) : ℕ := (Reader.init parameters).readByte.2.position

def correlationIdOf (parameters : List Byte) : Byte := (Reader.init parameters).readByte.1

theorem handle_listing (answers : FileAnswers) {parameters : List Byte} {entries : List DirectoryEntry}
    (h : Accepted parameters) (hdirectory : answers.directory = .ok entries) :
    ∃ response groups, handle answers parameters = some response ∧
      .openDirectory (pathOf parameters) ∈ response.calls ∧
      ListSpec (pathOf parameters) (correlationIdOf parameters) 0 entries response groups := by
  obtain ⟨ahead, r, hread, hstatus, hlast⟩ := h
  obtain ⟨response, groups, hresponse, hgroups⟩ := sendAll_spec (pathOf parameters)
    (correlationIdOf parameters) 0 (entries.length + 2) (stands_readDirectory entries) (by omega)
  refine ⟨⟨.openDirectory (pathOf parameters) :: response.calls, response.frames⟩, groups, ?_,
    List.mem_cons_self, hgroups.flatten, hgroups.fits, hgroups.frames, ?_⟩
  · unfold handle
    dsimp only
    rw [hread]
    dsimp only
    rw [hstatus, hlast, hdirectory, if_neg (by decide)]
    exact congrArg (Option.map _) hresponse
  · intro call hcall
    obtain rfl | hcall := List.mem_cons.1 hcall
    · rfl
    · exact hgroups.calls call hcall

/-- **The listing is complete and ends**: for any directory, the frames carry one record for each
entry, in the order of the directory and none across two frames, and the sequence numbers go up
by one modulo 2^18. -/
theorem lists_everyEntry {answers : FileAnswers} {parameters : List Byte} {entries : List DirectoryEntry}
    (h : Accepted parameters) (hdirectory : answers.directory = .ok entries) :
    ∃ response groups, handle answers parameters = some response ∧ List.flatten groups = entries ∧
      (∀ group ∈ groups, (List.flatMap record group).length ≤ CorrelatedDownlinkFrame.maxPayloadSize - 1) ∧
      response.frames.map ReceivedFrame.parse =
        List.mapIdx (fun i group => listed i (correlationIdOf parameters) group) groups := by
  obtain ⟨response, groups, hresponse, -, hgroups⟩ := handle_listing answers h hdirectory
  refine ⟨response, groups, hresponse, hgroups.flatten, hgroups.fits, hgroups.frames.trans ?_⟩
  refine congrArg (List.mapIdx · groups) ?_
  funext i group
  exact congrArg (listed · _ group) (Nat.zero_add i)

/-- A request for the directory "/". -/
def rootRequest : List Byte := [0x11, 0x2F, 0]

theorem rootRequest_accepted : Accepted rootRequest := ⟨_, _, rfl, rfl, rfl⟩

/-- Answers for a directory. -/
def answersFor (entries : List DirectoryEntry) : FileAnswers :=
  ⟨false, none, fun _ => ⟨true, 0, true⟩, 0, .ok entries⟩

/-- A file with a short name. -/
def shortName : DirectoryEntry := ⟨[0x61], by decide, 5⟩

theorem noNul_longName : (0 : Byte) ∉ List.replicate 91 0x62 := by decide

/-- A file whose name is too long for a frame. -/
def longName : DirectoryEntry := ⟨List.replicate 91 0x62, noNul_longName, 7⟩

/-- A directory with files of both kinds. -/
theorem lists_everyEntry_twoFiles :
    Accepted rootRequest ∧ ∃ response groups,
      handle (answersFor [shortName, longName]) rootRequest = some response ∧
      List.flatten groups = [shortName, longName] ∧
      (∀ group ∈ groups, (List.flatMap record group).length ≤ CorrelatedDownlinkFrame.maxPayloadSize - 1) ∧
      response.frames.map ReceivedFrame.parse =
        List.mapIdx (fun i group => listed i (correlationIdOf rootRequest) group) groups :=
  ⟨rootRequest_accepted, lists_everyEntry rootRequest_accepted rfl⟩

/-- The frames of a listing are numbered 0, 1, 2, … -/
def NumberedInOrder (response : FileResponse) : Prop :=
  ∀ i, ∀ frame ∈ response.frames[i]?, (ReceivedFrame.parse frame).seq = i

/-- A group has at most 46 entries. -/
theorem length_group_le {group : List DirectoryEntry} {n : ℕ} (h : (group.flatMap record).length ≤ n) :
    5 * group.length ≤ n := by
  refine le_trans ?_ h
  clear h
  induction group with
  | nil => exact Nat.zero_le _
  | cons e group ih =>
    have he := le_length_record e
    rw [List.flatMap_cons, List.length_append, List.length_cons]
    omega

theorem length_flatten_le {groups : List (List DirectoryEntry)} {n : ℕ}
    (h : ∀ group ∈ groups, group.length ≤ n) : groups.flatten.length ≤ groups.length * n := by
  induction groups with
  | nil => exact Nat.zero_le _
  | cons group groups ih =>
    have hgroup := h group List.mem_cons_self
    have hgroups := ih fun g hg => h g (List.mem_cons_of_mem group hg)
    rw [List.flatten_cons, List.length_append, List.length_cons, Nat.succ_mul]
    omega

/-- A directory with 2^24 entries: the sequence number of frame 2^18 is 0. -/
theorem manyFiles_not_numberedInOrder :
    ∃ response, handle (answersFor (List.replicate (2 ^ 24) shortName)) rootRequest = some response ∧
      ¬ NumberedInOrder response := by
  have hlength : (List.replicate (2 ^ 24) shortName).length = 2 ^ 24 := List.length_replicate
  generalize List.replicate (2 ^ 24) shortName = entries at hlength
  obtain ⟨response, groups, hresponse, -, hgroups⟩ :=
    handle_listing (answersFor entries) rootRequest_accepted rfl
  refine ⟨response, hresponse, fun hnumbered => ?_⟩
  have hmax : CorrelatedDownlinkFrame.maxPayloadSize - 1 = 230 := rfl
  -- a frame has at most 46 records
  have hmany : 2 ^ 18 < groups.length := by
    have hle := length_flatten_le (n := 46) fun group hgroup => by
      have := length_group_le (hgroups.fits group hgroup)
      omega
    rw [hgroups.flatten, hlength] at hle
    omega
  have hframes := congrArg (·[2 ^ 18]?) hgroups.frames
  rw [List.getElem?_map, List.getElem?_mapIdx, List.getElem?_eq_getElem hmany] at hframes
  obtain ⟨frame, hframe, hparse⟩ := Option.map_eq_some_iff.1 hframes
  have hseq := congrArg ReceivedFrame.seq hparse
  rw [hnumbered _ frame hframe] at hseq
  unfold listed at hseq
  dsimp only at hseq
  rw [show (0 : BitVec 32).toNat = 0 from rfl] at hseq
  omega

end ListFilesTelecommand

end PWSat2OBC
