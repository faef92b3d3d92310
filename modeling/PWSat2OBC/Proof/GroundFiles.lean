import PWSat2OBC.Lib.Runs
import PWSat2OBC.Proof.FileDownload
import PWSat2OBC.Proof.FileList
import PWSat2OBC.Proof.Uplink
import PWSat2OBC.Spec.GroundFiles

/-!
# Listings and files arrive on the ground

* `listing_shown`: the records of a directory are read one after the other, whatever frames they are in.
* `downloaded`: the script waits for the chunks of its last request only, so that what it takes for a
  chunk is one (`Inv`); all chunks together are the file (`Reassembly.Partly`).
* `can_finish_iff`: a chunk whose number does not fit into a header is waited for in vain (`waits_step`),
  and over a link that loses nothing all others come (`exists_finished`).
-/

namespace PWSat2OBC

open Runs Chunks

/-! ## Requests -/

variable {securityCode : BitVec 32}

/-- A request reaches its handler with what the ground packed. -/
theorem uplinked_build {α : Type} {handler : HandleTelecommand α} {content : List Byte}
    (hsmall : content.length + 5 < 2 ^ 16) :
    uplinked securityCode [handler] (UplinkFrame.build securityCode handler.commandCode content) =
      some (handler.handle content) := by
  unfold uplinked UplinkFrame.build
  rw [UplinkProtocol.decode_fields securityCode securityCode handler.commandCode _ hsmall,
    if_neg (not_not_intro rfl)]
  dsimp only
  rw [IncomingTelecommandHandler.dispatchCommandHandler, List.find?_cons_of_pos (by simp), Option.map_some]

/-- A path that is followed by a zero byte. -/
theorem takeWhile_path {path : List Byte} (hpath : 0 ∉ path) (rest : List Byte) :
    (path ++ 0 :: rest).takeWhile (· ≠ 0) = path := by
  have hall : ∀ b ∈ path, decide (b ≠ 0) = true := by
    intro b hb
    exact decide_eq_true fun h0 => hpath (h0 ▸ hb)
  rw [List.takeWhile_append_of_pos hall, List.takeWhile_cons_of_neg (by simp), List.append_nil]

theorem dropWhile_path {path : List Byte} (hpath : 0 ∉ path) (rest : List Byte) :
    (path ++ 0 :: rest).dropWhile (· ≠ 0) = 0 :: rest := by
  have hall : ∀ b ∈ path, decide (b ≠ 0) = true := by
    intro b hb
    exact decide_eq_true fun h0 => hpath (h0 ▸ hb)
  rw [List.dropWhile_append_of_pos hall, List.dropWhile_cons_of_neg (by simp)]

theorem GenericSuccessResponseFrame.decode_mk (apid seq : ℕ) (correlationId status : Byte) (response : List Byte) :
    decode apid ⟨apid, seq, correlationId :: status :: response⟩ =
      if status = 0 then some (correlationId, response) else none := if_pos rfl

/-! ## Listings -/

namespace FileListSuccessFrame

open ListFilesTelecommand

/-- What the ground is told about an entry. -/
def shown (e : DirectoryEntry) : List Byte × ℕ :=
  if e.name.length ≤ maxNameLength then (e.name, e.size.toNat) else (lostFileName, 0)

theorem turn_file {name : List Byte} (hname : 0 ∉ name) (size : BitVec 32) (rest : List Byte) :
    turn (name ++ [0] ++ Redundancy.storeWord size ++ rest) = some ((name, size.toNat), rest) := by
  have hraw : name ++ [0] ++ Redundancy.storeWord size ++ rest = name ++ 0 :: (Redundancy.storeWord size ++ rest) := by
    simp only [List.append_assoc, List.cons_append, List.nil_append]
  have hzero : (0 : Byte) ∈ name ++ 0 :: (Redundancy.storeWord size ++ rest) := by simp
  rw [hraw, turn, if_pos (List.contains_iff_mem.2 hzero), dropWhile_path hname, takeWhile_path hname]
  have hload := Redundancy.loadWord_storeWord size
  exact congrArg (fun w : BitVec 32 => some ((name, w.toNat), rest)) hload

theorem turn_record (e : DirectoryEntry) (rest : List Byte) : turn (record e ++ rest) = some (shown e, rest) := by
  unfold record shown
  by_cases hlong : e.name.length ≤ maxNameLength
  · rw [if_pos hlong, if_pos hlong]
    exact turn_file e.noNul e.size rest
  · rw [if_neg hlong, if_neg hlong]
    exact turn_file (by decide) 0 rest

/-- The loop reads one record after the other. -/
theorem fileList_records (group : List DirectoryEntry) {fuel : ℕ} (hfuel : (group.flatMap record).length ≤ fuel) :
    fileList fuel (group.flatMap record) = some (group.map shown) := by
  induction group generalizing fuel with
  | nil => rw [List.flatMap_nil, fileList, List.map_nil]
  | cons e group ih =>
    have hrecord := le_length_record e
    rw [List.flatMap_cons, List.length_append] at hfuel
    obtain ⟨fuel, rfl⟩ : ∃ k, fuel = k + 1 := ⟨fuel - 1, by omega⟩
    have hturn := turn_record e (group.flatMap record)
    obtain ⟨b, raw, hraw⟩ := List.exists_cons_of_length_pos
      (show 0 < (record e ++ group.flatMap record).length by rw [List.length_append]; omega)
    rw [List.flatMap_cons, List.map_cons]
    rw [hraw] at hturn ⊢
    rw [fileList, hturn]
    dsimp only
    rw [ih (by omega), Option.map_some]

theorem decode_listed (seq : ℕ) (correlationId : Byte) (group : List DirectoryEntry) :
    decode (listed seq correlationId group) = some (correlationId, group.map shown) := by
  have hgeneric : GenericSuccessResponseFrame.decode 0x0C (listed seq correlationId group) =
      some (correlationId, group.flatMap record) :=
    GenericSuccessResponseFrame.decode_mk 0x0C _ correlationId 0 _
  unfold decode
  rw [hgeneric]
  dsimp only
  rw [fileList_records group le_rfl, Option.map_some]

theorem accepted_payload (correlationId : Byte) (path : List Byte) (hsmall : path.length + 2 < 2 ^ 16) :
    Accepted (ListFiles.payload correlationId path) ∧
      correlationIdOf (ListFiles.payload correlationId path) = correlationId := by
  have h0 : (Reader.init (ListFiles.payload correlationId path)).At ([correlationId] ++ (path ++ [0])) := by
    unfold ListFiles.payload
    rw [← List.append_assoc]
    refine Reader.at_init (by simp) ?_
    simp only [List.length_append, List.length_singleton]
    omega
  obtain ⟨hid, h1⟩ := h0.readByte
  obtain ⟨r, hread, hr⟩ := h1.readToEnd
  refine ⟨⟨_, r, hread, hr.isValid, ?_⟩, hid⟩
  unfold ListFiles.payload
  rw [List.getLastD_concat]

/-- **A directory is listed on the ground**: each frame of the response brings the next entries, with
their names and sizes, and all frames together bring all of them. -/
theorem listing_shown {directories : List Byte → Except Byte (List DirectoryEntry)} {path : List Byte}
    {entries : List DirectoryEntry} (correlationId : Byte) (hpath : 0 ∉ path)
    (hsize : (ListFiles.payload correlationId path).length ≤ UploadSoftware.maxPayloadSize)
    (hdirectory : directories path = .ok entries) :
    ∃ response groups,
      uplinked securityCode (listingTelecommands directories)
        (UplinkFrame.build securityCode ListFiles.apid (ListFiles.payload correlationId path)) =
          some (some response) ∧
      List.flatten groups = entries ∧
      response.frames.map (fun frame => decode (ReceivedFrame.parse frame)) =
        groups.map fun group => some (correlationId, List.map shown group) := by
  unfold UploadSoftware.maxPayloadSize at hsize
  have hlength : (ListFiles.payload correlationId path).length = path.length + 2 := by
    unfold ListFiles.payload
    simp only [List.length_append, List.length_singleton]
    omega
  obtain ⟨haccepted, hid⟩ := accepted_payload correlationId path (by omega)
  have hpath' : ((ListFiles.payload correlationId path).drop 1).takeWhile (· ≠ 0) = path :=
    takeWhile_path hpath []
  obtain ⟨response, groups, hresponse, -, hgroups⟩ := handle_listing
    { isDirectory := true, file := none, parts := fun _ => ⟨false, 0, false⟩, unlink := 0,
      directory := directories (((ListFiles.payload correlationId path).drop 1).takeWhile (· ≠ 0)) }
    haccepted (by rw [hpath']; exact hdirectory)
  refine ⟨response, groups, ?_, hgroups.flatten, ?_⟩
  · rw [listingTelecommands, uplinked_build (by omega)]
    exact congrArg some hresponse
  · have hparse : response.frames.map (fun frame => decode (ReceivedFrame.parse frame)) =
        (response.frames.map ReceivedFrame.parse).map decode := by
      rw [List.map_map]
      rfl
    rw [hparse, hgroups.frames, hid]
    apply List.ext_getElem?
    intro i
    rw [List.getElem?_map, List.getElem?_mapIdx, List.getElem?_map, Option.map_map]
    cases groups[i]? with
    | none => rfl
    | some group => exact congrArg some (decode_listed _ correlationId group)

/-- A directory with two files, at "/". -/
def twoFiles (path : List Byte) : Except Byte (List DirectoryEntry) :=
  if path = [0x2F] then .ok [shortName, longName] else .error 2

theorem listing_shown_twoFiles : ∃ response groups,
    uplinked 0xBBCCDDEE (listingTelecommands twoFiles)
      (UplinkFrame.build 0xBBCCDDEE ListFiles.apid (ListFiles.payload 0x11 [0x2F])) = some (some response) ∧
    List.flatten groups = [shortName, longName] ∧
    response.frames.map (fun frame => decode (ReceivedFrame.parse frame)) =
      groups.map fun group => some (0x11, List.map shown group) :=
  listing_shown 0x11 (by decide) (by decide) rfl

end FileListSuccessFrame

/-! ## The handler for downloads -/

/-- A reader at its end reads no more. -/
theorem Reader.At.exhausted {r : Reader} (h : r.At []) (n : ℕ) (hn : 0 < n) (hsmall : r.buffer.length + n < 2 ^ 16) :
    (r.updateState n).isValid = false := by
  have hposition := h.position
  rw [List.length_nil, Nat.add_zero] at hposition
  have hmod : (r.position + n) % 2 ^ 16 = r.position + n := Nat.mod_eq_of_lt (by omega)
  rw [Reader.updateState, if_pos h.isValid, hmod]
  exact decide_eq_false (by omega)

namespace DownloadFileTelecommand

variable (sender : FileSender) (pathSpan : List Byte)

/-- The frames for one part. -/
def partFrames (answers : PartAnswers) (seq : ℕ) : List (List Byte) :=
  (sender.sendPart answers (BitVec.ofNat 32 seq)).frames ++
    if !(sender.sendPart answers (BitVec.ofNat 32 seq)).returned then
      [errorResponse (BitVec.ofNat 32 seq) sender.correlationId .tooBigSeq pathSpan]
    else []

/-- **The loop answers all requests**, in their order. -/
theorem sendParts_eq {seqs : List ℕ} {r : Reader}
    (h : r.At (seqs.flatMap fun seq => Redundancy.storeWord (BitVec.ofNat 32 seq)))
    (hsmall : r.buffer.length + 4 < 2 ^ 16) {fuel : ℕ} (hfuel : seqs.length < fuel) (parts : ℕ → PartAnswers) :
    sendParts sender pathSpan parts fuel r =
      seqs.zipIdx.flatMap fun p => partFrames sender pathSpan (parts p.2) p.1 := by
  induction seqs generalizing r fuel parts with
  | nil =>
    obtain ⟨fuel, rfl⟩ : ∃ k, fuel = k + 1 := ⟨fuel - 1, by omega⟩
    have hstatus : r.readDoubleWordLE.2.status = false := Reader.At.exhausted h 4 (by decide) hsmall
    rw [sendParts]
    dsimp only
    rw [hstatus]
    rfl
  | cons seq seqs ih =>
    obtain ⟨fuel, rfl⟩ : ∃ k, fuel = k + 1 := ⟨fuel - 1, by omega⟩
    rw [List.flatMap_cons] at h
    have hbuffer : r.readDoubleWordLE.2.buffer = r.buffer := (h.updateState (n := 4) rfl).2.2
    obtain ⟨hword, hrest⟩ := h.readDoubleWordLE
    have hstatus : r.readDoubleWordLE.2.status = true := hrest.isValid
    have hfuel' : seqs.length < fuel := by
      rw [List.length_cons] at hfuel
      omega
    have ih := ih hrest (by rw [hbuffer]; exact hsmall) hfuel' (fun i => parts (i + 1))
    rw [sendParts]
    dsimp only
    rw [hstatus, hword, Bool.not_true, if_neg Bool.false_ne_true, ih, List.zipIdx_cons, List.flatMap_cons,
      List.zipIdx_succ, List.flatMap_map]
    rfl

/-- An error is no chunk. -/
theorem decode_errorResponse (seq : BitVec 32) (correlationId : Byte) {code : ErrorCode} (hcode : code ≠ .success)
    {rest : List Byte} (hrest : rest.length ≤ 230) :
    FileSendSuccessFrame.decode (ReceivedFrame.parse (errorResponse seq correlationId code rest)) = none := by
  have hmax : DownlinkFrame.maxPayloadSize = 232 := rfl
  have hinit := CorrelatedDownlinkFrame.carries_init apid seq correlationId
  have hcarries := (hinit.writeByte code.num (by rw [hmax, List.length_singleton]; omega)).writeArray rest (by
    rw [hmax, List.length_append, List.length_singleton, List.length_singleton]
    omega)
  have hnum : code.num ≠ 0 := by cases code <;> first | exact absurd rfl hcode | decide
  unfold errorResponse
  rw [hcarries.parse]
  have hdecode := GenericSuccessResponseFrame.decode_mk 0x0B (seq.toNat % 2 ^ 18) correlationId code.num rest
  rw [if_neg hnum] at hdecode
  exact hdecode

theorem decode_filePart (seq : BitVec 32) (correlationId : Byte) (data : List Byte) :
    FileSendSuccessFrame.decode (.filePart seq correlationId data) = some (correlationId, data) :=
  GenericSuccessResponseFrame.decode_mk 0x0B _ correlationId 0 data

variable {sender pathSpan} {answers : PartAnswers} {seq : ℕ}

/-- A part inside the file that is answered at all is answered with its chunk, or with an error. -/
theorem partFrames_inside (hin : seq < count sender.fileLength FileSender.maxFileDataSize)
    (hdelivered : FileSender.maxFileDataSize ≤ answers.delivered) (hspan : pathSpan.length ≤ 230) :
    (∀ frame ∈ partFrames sender pathSpan answers seq,
      FileSendSuccessFrame.decode (ReceivedFrame.parse frame) = none ∨ ReceivedFrame.parse frame =
        .filePart (BitVec.ofNat 32 seq) sender.correlationId (sender.chunk seq)) ∧
    (answers.seek = true → ∃ frame ∈ partFrames sender pathSpan answers seq, ReceivedFrame.parse frame =
        .filePart (BitVec.ofNat 32 seq) sender.correlationId (sender.chunk seq)) := by
  have hsmall := sender.fileLength_lt
  have htoNat : (BitVec.ofNat 32 seq).toNat = seq := sender.toNat_seq (by omega)
  have hoffset := (sender.inside_iff seq).2 hin
  have herror : ∀ frame ∈ (if !(sender.sendPart answers (BitVec.ofNat 32 seq)).returned then
      [errorResponse (BitVec.ofNat 32 seq) sender.correlationId .tooBigSeq pathSpan] else []),
      FileSendSuccessFrame.decode (ReceivedFrame.parse frame) = none := by
    intro frame hframe
    have hcode : ErrorCode.tooBigSeq ≠ .success := by decide
    split at hframe
    · rw [List.mem_singleton.1 hframe]
      exact decode_errorResponse (BitVec.ofNat 32 seq) sender.correlationId hcode hspan
    · contradiction
  cases hseek : answers.seek with
  | false =>
    have hrefused : sender.sendPart answers (BitVec.ofNat 32 seq) = ⟨false, [], []⟩ :=
      FileSender.sendPart_refused answers fun _ htrue => by
        rw [hseek] at htrue
        contradiction
    refine ⟨fun frame hframe => .inl (herror frame ?_), fun h => by contradiction⟩
    rw [partFrames, hrefused, List.nil_append] at hframe
    rw [hrefused]
    exact hframe
  | true =>
    obtain ⟨frame, hpart, hparse⟩ := sender.sendPart_sent answers (BitVec.ofNat 32 seq)
      (by rw [htoNat]; omega) hseek (by rw [htoNat]; omega)
    obtain ⟨hsegment, harriving⟩ := sender.arriving_inside hoffset answers.delivered
    have hall : (sender.chunk seq).length ≤ answers.delivered := by
      rw [FileSender.chunk, List.length_take]
      omega
    rw [htoNat, hsegment, harriving, List.take_of_length_le hall, Nat.sub_self, List.replicate_zero,
      List.append_nil] at hparse
    refine ⟨fun frame' hframe => ?_, fun _ => ⟨frame, ?_, hparse⟩⟩
    · rcases List.mem_append.1 hframe with hframe | hframe
      · rw [hpart] at hframe
        obtain rfl := List.mem_singleton.1 hframe
        exact .inr hparse
      · exact .inl (herror frame' hframe)
    · refine List.mem_append_left _ ?_
      rw [hpart]
      exact List.mem_singleton_self frame

theorem length_payload (correlationId : Byte) (path : List Byte) (seqs : List ℕ) :
    (DownloadFile.payload correlationId path seqs).length = path.length + 3 + 4 * seqs.length := by
  have hseqs : (seqs.flatMap fun seq => Redundancy.storeWord (BitVec.ofNat 32 seq)).length = 4 * seqs.length := by
    induction seqs with
    | nil => rfl
    | cons seq seqs ih =>
      rw [List.flatMap_cons, List.length_append, ih, List.length_cons, Redundancy.storeWord]
      simp only [List.length_cons, List.length_nil]
      omega
  unfold DownloadFile.payload
  rw [List.length_append, hseqs]
  simp only [List.length_append, List.length_cons, List.length_nil]
  omega

/-- **What the ground packs is what the handler reads.** -/
theorem handle_payload (answers : FileAnswers) (correlationId : Byte) {path : List Byte} {seqs : List ℕ}
    (hpath : path.length < 256) (hseqs : seqs.length ≤ 256) :
    (handle answers (DownloadFile.payload correlationId path seqs)).frames =
      if answers.isDirectory then [errorResponse 0 correlationId .invalidPath [0]]
      else
        match answers.file with
        | none => [errorResponse 0 correlationId .fileNotFound path]
        | some file => seqs.zipIdx.flatMap fun p => partFrames ⟨file, correlationId⟩ path (answers.parts p.2) p.1 := by
  have hlength := length_payload correlationId path seqs
  have h0 : (Reader.init (DownloadFile.payload correlationId path seqs)).At ([correlationId] ++
      ([BitVec.ofNat 8 path.length] ++ (path ++ ([0] ++
        seqs.flatMap fun seq => Redundancy.storeWord (BitVec.ofNat 32 seq))))) := by
    have hsplit : DownloadFile.payload correlationId path seqs = [correlationId] ++
        ([BitVec.ofNat 8 path.length] ++ (path ++ ([0] ++
          seqs.flatMap fun seq => Redundancy.storeWord (BitVec.ofNat 32 seq)))) := by
      unfold DownloadFile.payload
      simp only [List.append_assoc, List.cons_append, List.nil_append]
    rw [← hsplit]
    refine Reader.at_init ?_ (by omega)
    rw [hsplit]
    simp
  have htoNat : path.length = (BitVec.ofNat 8 path.length).toNat := by
    rw [BitVec.toNat_ofNat]
    exact (Nat.mod_eq_of_lt hpath).symm
  obtain ⟨hid, h1⟩ := h0.readByte
  obtain ⟨hpathLength, h2⟩ := h1.readByte
  obtain ⟨hspan, h3⟩ := h2.readArray htoNat
  obtain ⟨hzero, h4⟩ := h3.readByte
  have hbuffer := (h3.updateState (n := 1) rfl).2.2.trans ((h2.updateState htoNat).2.2.trans
    ((h1.updateState (n := 1) rfl).2.2.trans (h0.updateState (n := 1) rfl).2.2))
  rw [← hpathLength] at hspan hzero h4 hbuffer
  have hstatus := h4.isValid
  have hloop : ∀ sender : FileSender, sendParts sender path answers.parts
      (DownloadFile.payload correlationId path seqs).length _ =
        seqs.zipIdx.flatMap fun p => partFrames sender path (answers.parts p.2) p.1 := fun sender =>
    sendParts_eq sender path h4
      ((congrArg (fun buffer : List Byte => buffer.length + 4) hbuffer).trans_lt
        (show (DownloadFile.payload correlationId path seqs).length + 4 < 2 ^ 16 by omega))
      (by omega) answers.parts
  unfold handle
  dsimp only
  rw [hid, hspan, hzero, Reader.status, hstatus, if_neg (by decide)]
  split
  · rfl
  · cases answers.file with
    | none => rfl
    | some file => exact hloop ⟨file, correlationId⟩

end DownloadFileTelecommand

/-! ## The script and the satellite -/

namespace DownloadLink

open DownloadScript DownloadFileTelecommand

variable {files : List Byte → Option OpenedFile} {path : List Byte} {length : ℕ} {file : OpenedFile}

/-- The file, as the handler sends it to the script. -/
def sender (file : OpenedFile) : FileSender := ⟨file, DownloadScript.correlationId⟩

/-- Some frame brings the chunk. -/
def Brings (file : OpenedFile) (seq : ℕ) (frame : List Byte) : Prop :=
  ReceivedFrame.parse frame =
    .filePart (BitVec.ofNat 32 seq) DownloadScript.correlationId ((sender file).chunk seq)

theorem Asked.inside (h : Asked files path length file) {seq : ℕ} (hseq : seq < chunksCount length) :
    seq < count (sender file).fileLength FileSender.maxFileDataSize := by
  have hlength : length + 230 - 1 ≤ (sender file).fileLength + 230 - 1 :=
    Nat.sub_le_sub_right (Nat.add_le_add_right h.length 230) 1
  exact hseq.trans_le (Nat.div_le_div_right hlength)

/-- **The answer to a request**: for each chunk, the chunk or an error, and nothing else. -/
theorem Asked.answer (h : Asked files path length file) (securityCode : BitVec 32) {chunks : List ℕ}
    (hchunks : chunks.length ≤ chunksPerIteration) (hin : ∀ seq ∈ chunks, seq < chunksCount length) :
    ∃ handle, uplinked securityCode (downloadTelecommands files) (requestFrame securityCode path chunks) =
        some handle ∧
      ∀ isDirectory parts, (∀ i, FileSender.maxFileDataSize ≤ (parts i).delivered) →
        (∀ frame ∈ (handle isDirectory parts).frames,
          FileSendSuccessFrame.decode (ReceivedFrame.parse frame) = none ∨ ∃ seq ∈ chunks, Brings file seq frame) ∧
        (isDirectory = false → (∀ i, (parts i).seek = true) → ∀ seq ∈ chunks,
          ∃ frame ∈ (handle isDirectory parts).frames, Brings file seq frame) := by
  have hroom := h.room
  unfold chunksPerIteration at hroom hchunks
  unfold UploadSoftware.maxPayloadSize at hroom
  have hlength := length_payload DownloadScript.correlationId path chunks
  have hpath : ((DownloadFile.payload DownloadScript.correlationId path chunks).drop 2).takeWhile (· ≠ 0) = path := by
    have hdrop : (DownloadFile.payload DownloadScript.correlationId path chunks).drop 2 =
        path ++ 0 :: chunks.flatMap fun seq => Redundancy.storeWord (BitVec.ofNat 32 seq) := by
      unfold DownloadFile.payload
      simp only [List.append_assoc, List.cons_append, List.nil_append, List.drop_succ_cons, List.drop_zero]
    rw [hdrop, takeWhile_path h.noNul]
  refine ⟨_, uplinked_build (by omega), fun isDirectory parts hdelivered => ?_⟩
  dsimp only
  rw [handle_payload _ DownloadScript.correlationId (by omega) (by omega)]
  dsimp only
  rw [hpath, h.found]
  cases isDirectory with
  | true =>
    refine ⟨fun frame hframe => .inl ?_, fun hno => by contradiction⟩
    rw [if_pos rfl] at hframe
    rw [List.mem_singleton.1 hframe]
    exact decode_errorResponse 0 _ (by decide) (by decide)
  | false =>
    rw [if_neg Bool.false_ne_true]
    have hparts : ∀ p ∈ chunks.zipIdx, _ := fun p hp =>
      partFrames_inside (h.inside (hin p.1 (List.fst_mem_of_mem_zipIdx hp))) (hdelivered p.2)
        (show path.length ≤ 230 by omega)
    constructor
    · intro frame hframe
      obtain ⟨p, hp, hframe⟩ := List.mem_flatMap.1 hframe
      exact ((hparts p hp).1 frame hframe).imp_right fun hbrings =>
        ⟨p.1, List.fst_mem_of_mem_zipIdx hp, hbrings⟩
    · intro _ hseek seq hseq
      obtain ⟨k, hk, rfl⟩ := List.getElem_of_mem hseq
      have hp : (chunks[k], k) ∈ chunks.zipIdx := by
        rw [List.mk_mem_zipIdx_iff_getElem?]
        exact List.getElem?_eq_getElem hk
      obtain ⟨frame, hframe, hbrings⟩ := (hparts _ hp).2 (hseek k)
      exact ⟨frame, List.mem_flatMap.2 ⟨_, hp, hframe⟩, hbrings⟩

variable (securityCode files path length file) in
/-- **What holds of every run**: the script waits for chunks of the last request, the frames under way
bring chunks that were asked for, and the chunks that are not waited for any more are in the file. -/
structure Inv (s : DownloadLink) : Prop where
  chunks : ∀ seq ∈ s.script.chunks, s.script.next ≤ seq + chunksPerIteration ∧ seq < s.script.next ∧
    seq < chunksCount length
  nodup : s.script.chunks.Nodup
  requests : ∀ request ∈ s.requests, ∃ chunks, request = requestFrame securityCode path chunks ∧
    chunks.length ≤ chunksPerIteration ∧ ∀ seq ∈ chunks, seq < s.script.next ∧ seq < chunksCount length
  air : ∀ frame ∈ s.air, FileSendSuccessFrame.decode (ReceivedFrame.parse frame) = none ∨
    ∃ seq, seq < s.script.next ∧ seq < chunksCount length ∧ Brings file seq frame
  stored : Reassembly.Partly (file.content.take (chunksCount length * chunkSize)) chunkSize
    (fun k => k < s.script.next ∧ k ∉ s.script.chunks) s.script.localFile

theorem inv_init : Inv securityCode path length file init where
  chunks := fun _ hseq => absurd hseq List.not_mem_nil
  nodup := List.nodup_nil
  requests := fun _ hrequest => absurd hrequest List.not_mem_nil
  air := fun _ hframe => absurd hframe List.not_mem_nil
  stored := Reassembly.partly_nil fun k hk => Nat.not_lt_zero k hk.1

theorem mem_range (script : DownloadScript) (n seq : ℕ) :
    seq ∈ script.range n ↔ script.next ≤ seq ∧ seq < script.next + chunksPerIteration ∧ seq < n := by
  unfold DownloadScript.range chunksPerIteration
  simp only [List.mem_map, List.mem_range]
  constructor
  · rintro ⟨k, hk, rfl⟩
    omega
  · rintro ⟨h1, h2, h3⟩
    exact ⟨seq - script.next, by omega, by omega⟩

theorem nodup_range (script : DownloadScript) (n : ℕ) : (script.range n).Nodup :=
  List.nodup_range.map fun _ _ hab => Nat.add_left_cancel hab

theorem length_range_le (script : DownloadScript) (n : ℕ) : (script.range n).length ≤ chunksPerIteration := by
  unfold DownloadScript.range
  rw [List.length_map, List.length_range]
  omega

variable {s t : DownloadLink}

/-- The next chunks are requested. -/
theorem Inv.request (h : Inv securityCode path length file s) (hnone : s.script.chunks = []) :
    Inv securityCode path length file { s with
      script := s.script.request (chunksCount length)
      requests := s.requests ++ [requestFrame securityCode path (s.script.range (chunksCount length))] } where
  chunks := by
    intro seq hseq
    have := mem_range s.script _ _ |>.1 hseq
    change s.script.next + chunksPerIteration ≤ _ ∧ _ < s.script.next + chunksPerIteration ∧ _
    omega
  nodup := nodup_range s.script _
  requests := by
    intro request hrequest
    rcases List.mem_append.1 hrequest with hold | hnew
    · obtain ⟨chunks, heq, hlength, hin⟩ := h.requests request hold
      exact ⟨chunks, heq, hlength, fun seq hseq => ⟨(hin seq hseq).1.trans_le (Nat.le_add_right _ _), (hin seq hseq).2⟩⟩
    · refine ⟨_, List.mem_singleton.1 hnew, length_range_le _ _, fun seq hseq => ?_⟩
      exact (mem_range s.script _ _ |>.1 hseq).2
  air := by
    intro frame hframe
    refine (h.air frame hframe).imp_right ?_
    rintro ⟨seq, hnext, hrest⟩
    exact ⟨seq, hnext.trans_le (Nat.le_add_right _ _), hrest⟩
  stored := by
    refine h.stored.imp fun j hj hk => ?_
    have hcount : j / chunkSize < chunksCount length := by
      rw [Nat.div_lt_iff_lt_mul (by decide)]
      rw [List.length_take] at hj
      omega
    obtain ⟨hnext, hrange⟩ := hk
    rw [hnone]
    refine ⟨?_, List.not_mem_nil⟩
    by_contra hge
    exact hrange (mem_range s.script _ _ |>.2 ⟨not_lt.1 hge, hnext, hcount⟩)

/-- The satellite answers a request. -/
theorem Inv.handle (h : Inv securityCode path length file s) {frames : List (List Byte)}
    (hframes : ∀ frame ∈ frames, FileSendSuccessFrame.decode (ReceivedFrame.parse frame) = none ∨
      ∃ seq, seq < s.script.next ∧ seq < chunksCount length ∧ Brings file seq frame) :
    Inv securityCode path length file { s with air := s.air ++ frames } where
  chunks := h.chunks
  nodup := h.nodup
  requests := h.requests
  air := fun frame hframe => (List.mem_append.1 hframe).elim (h.air frame) (hframes frame)
  stored := h.stored

/-- A frame that brings nothing. -/
theorem receive_of_other {script : DownloadScript} {part : ReceivedFrame}
    (h : ∀ id response, FileSendSuccessFrame.decode part = some (id, response) →
      id ≠ DownloadScript.correlationId) : script.receive part = script := by
  unfold DownloadScript.receive
  cases hdecode : FileSendSuccessFrame.decode part with
  | none => rfl
  | some r =>
    obtain ⟨id, response⟩ := r
    exact if_pos (h id response hdecode)

/-- A frame that brings a chunk. -/
theorem receive_of_brings (script : DownloadScript) {frame : List Byte} {seq : ℕ} (h : Brings file seq frame) :
    script.receive (ReceivedFrame.parse frame) =
      if (BitVec.ofNat 32 seq).toNat % 2 ^ 18 ∈ script.chunks then
        { script with
          chunks := script.chunks.erase ((BitVec.ofNat 32 seq).toNat % 2 ^ 18)
          localFile := Reassembly.put 0 ((BitVec.ofNat 32 seq).toNat % 2 ^ 18 * chunkSize)
            ((sender file).chunk seq) script.localFile }
      else script := by
  have hdecode := decode_filePart (BitVec.ofNat 32 seq) DownloadScript.correlationId ((sender file).chunk seq)
  unfold DownloadScript.receive
  rw [h, hdecode]
  dsimp only
  rw [if_neg (not_not_intro rfl)]
  have hseq : (ReceivedFrame.filePart (BitVec.ofNat 32 seq) DownloadScript.correlationId
      ((sender file).chunk seq)).seq = (BitVec.ofNat 32 seq).toNat % 2 ^ 18 := rfl
  rw [hseq]
  by_cases hmem : (BitVec.ofNat 32 seq).toNat % 2 ^ 18 ∈ script.chunks
  · rw [if_neg (not_not_intro hmem), if_pos hmem]
  · rw [if_pos hmem, if_neg hmem]

/-- **A chunk is received.** The numbers in the headers have 18 bits only, but the script waits for
chunks of its last request, and no later one has been asked for. -/
theorem Inv.receive (hasked : Asked files path length file) (h : Inv securityCode path length file s) {seq : ℕ}
    (hnext : seq < s.script.next) (hcount : seq < chunksCount length) {frame : List Byte}
    (hbrings : Brings file seq frame) :
    Inv securityCode path length file { s with script := s.script.receive (ReceivedFrame.parse frame) } := by
  have hin := hasked.inside hcount
  have htoNat : (BitVec.ofNat 32 seq).toNat = seq := (sender file).toNat_seq (by omega)
  rw [receive_of_brings _ hbrings, htoNat]
  split
  · rename_i hmem
    obtain ⟨hlast, -, -⟩ := h.chunks _ hmem
    have hseq : seq % 2 ^ 18 = seq := by
      unfold chunksPerIteration at hlast
      omega
    rw [hseq] at hmem ⊢
    have hsub : ∀ k ∈ s.script.chunks.erase seq, k ∈ s.script.chunks := fun k hk => List.mem_of_mem_erase hk
    refine ⟨fun k hk => h.chunks k (hsub k hk), h.nodup.erase seq, h.requests, h.air, ?_⟩
    have hchunk : (sender file).chunk seq =
        ((file.content.take (chunksCount length * chunkSize)).drop (seq * chunkSize)).take chunkSize := by
      rw [List.drop_take, List.take_take]
      have hle : chunkSize ≤ chunksCount length * chunkSize - seq * chunkSize := by
        have hmul := Nat.mul_le_mul_right chunkSize (Nat.succ_le_of_lt hcount)
        rw [Nat.succ_mul] at hmul
        omega
      rw [min_eq_left hle]
      rfl
    rw [hchunk]
    refine h.stored.put (by decide) ?_ ?_
    · have hoffset := ((sender file).inside_iff seq).2 hin
      have hmul := Nat.mul_le_mul_right chunkSize hcount.le
      rw [List.length_take]
      exact le_min hmul hoffset.le
    · rintro k ⟨hk, hnot⟩
      by_cases heq : k = seq
      · exact .inr heq
      · exact .inl ⟨hk, fun hmem' => hnot ((List.mem_erase_of_ne heq).2 hmem')⟩
  · exact h

/-- **Each event** keeps it. -/
theorem Inv.step (hasked : Asked files path length file) (h : Inv securityCode path length file s)
    {e : DownloadLinkEvent} (hsound : Sound s e) (hstep : step securityCode files path length s e = some t) :
    Inv securityCode path length file t := by
  cases e with
  | request =>
    unfold DownloadLink.step at hstep
    dsimp only at hstep
    split at hstep
    · rename_i hcan
      obtain rfl := Option.some.inj hstep
      exact h.request hcan.1
    · contradiction
  | handle request isDirectory parts =>
    unfold DownloadLink.step at hstep
    dsimp only at hstep
    split at hstep
    · rename_i hmem
      obtain ⟨chunks, rfl, hlength, hin⟩ := h.requests request (List.contains_iff_mem.1 hmem)
      obtain ⟨handle, huplinked, hanswer⟩ := hasked.answer securityCode hlength fun seq hseq =>
        (hin seq hseq).2
      rw [huplinked] at hstep
      obtain rfl := Option.some.inj hstep
      refine h.handle fun frame hframe => ((hanswer isDirectory parts hsound).1 frame hframe).imp_right ?_
      rintro ⟨seq, hseq, hbrings⟩
      exact ⟨seq, (hin seq hseq).1, (hin seq hseq).2, hbrings⟩
    · contradiction
  | frame bytes =>
    unfold DownloadLink.step at hstep
    dsimp only at hstep
    split at hstep
    · contradiction
    · obtain rfl := Option.some.inj hstep
      have hother : ∀ hnone : (∀ id response, FileSendSuccessFrame.decode (ReceivedFrame.parse bytes) =
          some (id, response) → id ≠ DownloadScript.correlationId),
          Inv securityCode path length file { s with script := s.script.receive (ReceivedFrame.parse bytes) } := by
        intro hnone
        rw [receive_of_other hnone]
        exact h
      rcases hsound with hair | hnone
      · rcases h.air bytes hair with hnone | ⟨seq, hnext, hcount, hbrings⟩
        · exact hother fun id response hsome => by
            rw [hnone] at hsome
            contradiction
        · exact h.receive hasked hnext hcount hbrings
      · exact hother hnone
  | timeout =>
    unfold DownloadLink.step at hstep
    dsimp only at hstep
    split at hstep
    · contradiction
    · obtain rfl := Option.some.inj hstep
      exact h

/-- **A file is downloaded as it is**: whatever is lost, late, repeated or sent by others, when the script
ends it has the first chunks of the file, and the whole file if it was told its length. -/
theorem downloaded {es : List DownloadLinkEvent} (hasked : Asked files path length file)
    (h : Run (step securityCode files path length) Sound init es s)
    (hfinished : s.script.Finished (chunksCount length)) :
    s.script.localFile = file.content.take (chunksCount length * chunkSize) ∧
      (length = file.content.length → s.script.localFile = file.content) := by
  have hinv : Inv securityCode path length file s :=
    h.inv (I := Inv securityCode path length file) inv_init fun _ _ _ hs hok hstep => hs.step hasked hok hstep
  have hfile : s.script.localFile = file.content.take (chunksCount length * chunkSize) := by
    refine hinv.stored.eq fun j hj => ?_
    rw [List.length_take] at hj
    have hcount : j / chunkSize < chunksCount length := by
      rw [Nat.div_lt_iff_lt_mul (by decide)]
      omega
    rw [hfinished.1]
    exact ⟨hcount.trans_le hfinished.2, List.not_mem_nil⟩
  refine ⟨hfile, ?_⟩
  rintro rfl
  rw [hfile]
  exact List.take_of_length_le (Chunks.le_count_mul _ (by decide))

theorem length_twelveChunks : (List.replicate 2531 (0x41 : Byte)).length < 2 ^ 31 := by
  rw [List.length_replicate]
  decide

/-- A file of twelve chunks, which takes two requests. -/
def twelveChunks : OpenedFile := ⟨List.replicate 2531 0x41, length_twelveChunks⟩

/-- It is at "/a". -/
def oneFile (path : List Byte) : Option OpenedFile := if path = [0x2F, 0x61] then some twelveChunks else none

theorem asked_oneFile : Asked oneFile [0x2F, 0x61] 2531 twelveChunks where
  found := rfl
  noNul := by decide
  room := by decide
  length := List.length_replicate.ge

/-! ## Downloads that can end -/

/-- The header has 18 bits for the number. -/
theorem seq_parse_lt (bytes : List Byte) : (ReceivedFrame.parse bytes).seq < 2 ^ 18 := by
  have h0 := (bytes.getD 0 0).isLt
  have h1 := (bytes.getD 1 0).isLt
  have h2 := (bytes.getD 2 0).isLt
  have hnum : (bytes.getD 0 0).toNat ||| (bytes.getD 1 0).toNat <<< 8 ||| (bytes.getD 2 0).toNat <<< 16 < 2 ^ 24 := by
    refine Nat.or_lt_two_pow (Nat.or_lt_two_pow (by omega) ?_) ?_ <;>
    · rw [Nat.shiftLeft_eq]
      omega
  unfold ReceivedFrame.parse
  dsimp only
  rw [Nat.shiftRight_eq_div_pow, Nat.div_lt_iff_lt_mul (by decide)]
  exact hnum

/-- Only the chunk with the number of the frame is not waited for any more. -/
theorem receive_chunks (script : DownloadScript) (part : ReceivedFrame) :
    (script.receive part).next = script.next ∧
      ∀ seq, seq ≠ part.seq → seq ∈ script.chunks → seq ∈ (script.receive part).chunks := by
  unfold DownloadScript.receive
  cases FileSendSuccessFrame.decode part with
  | none => exact ⟨rfl, fun _ _ hmem => hmem⟩
  | some r =>
    dsimp only
    split
    · exact ⟨rfl, fun _ _ hmem => hmem⟩
    · split
      · exact ⟨rfl, fun _ _ hmem => hmem⟩
      · exact ⟨rfl, fun seq hne hmem => (List.mem_erase_of_ne hne).2 hmem⟩

/-- Chunks whose numbers do not fit are waited for, always. -/
theorem waits_step {e : DownloadLinkEvent}
    (h : ∀ seq < s.script.next, seq < chunksCount length → 2 ^ 18 ≤ seq → seq ∈ s.script.chunks)
    (hstep : step securityCode files path length s e = some t) :
    ∀ seq < t.script.next, seq < chunksCount length → 2 ^ 18 ≤ seq → seq ∈ t.script.chunks := by
  intro seq hnext hcount hbig
  cases e with
  | request =>
    unfold DownloadLink.step at hstep
    dsimp only at hstep
    split at hstep
    · rename_i hcan
      obtain rfl := Option.some.inj hstep
      refine mem_range s.script _ _ |>.2 ⟨?_, hnext, hcount⟩
      by_contra hlt
      have hmem := h seq (not_le.1 hlt) hcount hbig
      rw [hcan.1] at hmem
      contradiction
    · contradiction
  | handle request isDirectory parts =>
    unfold DownloadLink.step at hstep
    dsimp only at hstep
    split at hstep
    · split at hstep <;>
      · obtain rfl := Option.some.inj hstep
        exact h seq hnext hcount hbig
    · contradiction
  | frame bytes =>
    unfold DownloadLink.step at hstep
    dsimp only at hstep
    split at hstep
    · contradiction
    · obtain rfl := Option.some.inj hstep
      have hne : seq ≠ (ReceivedFrame.parse bytes).seq := by
        have := seq_parse_lt bytes
        omega
      obtain ⟨hsame, hkept⟩ := receive_chunks s.script (ReceivedFrame.parse bytes)
      change seq < (s.script.receive (ReceivedFrame.parse bytes)).next at hnext
      rw [hsame] at hnext
      exact hkept seq hne (h seq hnext hcount hbig)
  | timeout =>
    unfold DownloadLink.step at hstep
    dsimp only at hstep
    split at hstep
    · contradiction
    · obtain rfl := Option.some.inj hstep
      exact h seq hnext hcount hbig

variable (securityCode files path length file) in
/-- The frames for the chunks have come: the script gets one after the other. -/
theorem exists_hear {chunks : List ℕ} (hchunks : s.script.chunks = chunks) (hnodup : chunks.Nodup)
    (hsmall : ∀ seq ∈ chunks, seq < 2 ^ 18) (hair : ∀ seq ∈ chunks, ∃ frame ∈ s.air, Brings file seq frame) :
    ∃ es t, Run (step securityCode files path length) Sound s es t ∧ t.script.chunks = [] ∧
      t.script.next = s.script.next := by
  induction chunks generalizing s with
  | nil => exact ⟨[], s, .nil, hchunks, rfl⟩
  | cons seq chunks ih =>
    obtain ⟨frame, hframe, hbrings⟩ := hair seq List.mem_cons_self
    have hseq := hsmall seq List.mem_cons_self
    have htoNat : (BitVec.ofNat 32 seq).toNat % 2 ^ 18 = seq := by
      rw [BitVec.toNat_ofNat]
      omega
    have hreceive := receive_of_brings s.script hbrings
    rw [htoNat, hchunks, if_pos List.mem_cons_self, List.erase_cons_head] at hreceive
    have hstep : step securityCode files path length s (.frame frame) =
        some { s with script := s.script.receive (ReceivedFrame.parse frame) } := by
      unfold step
      dsimp only
      rw [if_neg]
      rw [hchunks]
      exact List.cons_ne_nil _ _
    obtain ⟨es, t, hrun, hempty, hnext⟩ := ih (s := { s with script := s.script.receive (ReceivedFrame.parse frame) })
      (by rw [hreceive]) hnodup.of_cons (fun k hk => hsmall k (List.mem_cons_of_mem seq hk))
      (fun k hk => hair k (List.mem_cons_of_mem seq hk))
    refine ⟨.frame frame :: es, t, Run.cons (.inl hframe) hstep hrun, hempty, hnext.trans ?_⟩
    rw [hreceive]

variable (securityCode) in
/-- One turn of the outer loop, over a link that loses nothing. -/
theorem exists_turn (hasked : Asked files path length file) (hnone : s.script.chunks = [])
    (hnext : s.script.next < chunksCount length) (hsmall : chunksCount length ≤ 2 ^ 18) :
    ∃ es t, Run (step securityCode files path length) Sound s es t ∧ t.script.chunks = [] ∧
      t.script.next = s.script.next + chunksPerIteration := by
  have hrange := mem_range s.script (chunksCount length)
  obtain ⟨handle, huplinked, hanswer⟩ := hasked.answer securityCode
    (length_range_le s.script (chunksCount length)) fun seq hseq => ((hrange seq).1 hseq).2.2
  obtain ⟨-, hall⟩ := hanswer false (fun _ => FileSender.faultless) fun _ => le_rfl
  let s1 : DownloadLink := { s with
    script := s.script.request (chunksCount length)
    requests := s.requests ++ [requestFrame securityCode path (s.script.range (chunksCount length))] }
  let s2 : DownloadLink := { s1 with air := s1.air ++ (handle false fun _ => FileSender.faultless).frames }
  have h1 : step securityCode files path length s .request = some s1 := if_pos ⟨hnone, hnext⟩
  have h2 : step securityCode files path length s1 (.handle
      (requestFrame securityCode path (s.script.range (chunksCount length))) false fun _ => FileSender.faultless) =
        some s2 := by
    unfold step
    dsimp only
    rw [if_pos (List.contains_iff_mem.2 (List.mem_append_right _ (List.mem_singleton_self _))), huplinked]
  obtain ⟨es, t, hrun, hempty, hnext'⟩ := exists_hear securityCode files path length file (s := s2) rfl
    (nodup_range s.script _)
    (fun seq hseq => ((hrange seq).1 hseq).2.2.trans_le hsmall)
    (fun seq hseq => by
      obtain ⟨frame, hframe, hbrings⟩ := hall rfl (fun _ => rfl) seq hseq
      exact ⟨frame, List.mem_append_right _ hframe, hbrings⟩)
  have hok1 : Sound s .request := trivial
  have hok2 : Sound s1 (.handle (requestFrame securityCode path (s.script.range (chunksCount length))) false
      fun _ => FileSender.faultless) := fun _ => le_rfl
  exact ⟨_, t, Run.cons hok1 h1 (Run.cons hok2 h2 hrun), hempty, hnext'⟩

variable (securityCode) in
/-- Turn after turn, to the end. -/
theorem exists_finished (hasked : Asked files path length file) (hsmall : chunksCount length ≤ 2 ^ 18) (n : ℕ)
    (hnone : s.script.chunks = []) (hn : chunksCount length ≤ s.script.next + n) :
    ∃ es t, Run (step securityCode files path length) Sound s es t ∧ t.script.Finished (chunksCount length) := by
  induction n generalizing s with
  | zero => exact ⟨[], s, .nil, hnone, hn⟩
  | succ n ih =>
    by_cases hnext : s.script.next < chunksCount length
    · obtain ⟨es, t, hrun, hempty, hnext'⟩ := exists_turn securityCode hasked hnone hnext hsmall
      obtain ⟨es', u, hrun', hfinished⟩ := ih hempty (by
        unfold chunksPerIteration at hnext'
        omega)
      exact ⟨es ++ es', u, hrun.trans hrun', hfinished⟩
    · exact ⟨[], s, .nil, hnone, not_lt.1 hnext⟩

/-- **A download can end exactly when the numbers of its chunks fit into the headers**: with more than
2^18 it waits for one that is never taken for what it is. -/
theorem can_finish_iff (hasked : Asked files path length file) :
    (∃ es s, Run (step securityCode files path length) Sound init es s ∧
      s.script.Finished (chunksCount length)) ↔ chunksCount length ≤ 2 ^ 18 := by
  constructor
  · rintro ⟨es, s, hrun, hnone, hcount⟩
    by_contra hbig
    have hwaits := hrun.inv (I := fun s : DownloadLink =>
      ∀ seq < s.script.next, seq < chunksCount length → 2 ^ 18 ≤ seq → seq ∈ s.script.chunks)
      (fun seq hseq => absurd hseq (Nat.not_lt_zero seq)) fun s e t hs _ hstep => waits_step hs hstep
    have hmem := hwaits (2 ^ 18) (by omega) (by omega) le_rfl
    rw [hnone] at hmem
    contradiction
  · intro hsmall
    exact exists_finished securityCode hasked hsmall (chunksCount length) rfl (Nat.le_add_left _ _)

/-- The file of twelve chunks can be downloaded. -/
theorem can_finish_twelveChunks : ∃ es s, Run (step 0xBBCCDDEE oneFile [0x2F, 0x61] 2531) Sound init es s ∧
    s.script.Finished (chunksCount 2531) :=
  (can_finish_iff asked_oneFile).2 (by decide)

/-- And then it is there. -/
theorem downloaded_twelveChunks : ∃ es s, Run (step 0xBBCCDDEE oneFile [0x2F, 0x61] 2531) Sound init es s ∧
    s.script.localFile = List.replicate 2531 0x41 := by
  obtain ⟨es, s, hrun, hfinished⟩ := exists_finished 0xBBCCDDEE asked_oneFile (s := init)
    (by decide) 12 rfl (by decide)
  exact ⟨es, s, hrun, (downloaded asked_oneFile hrun hfinished).2 List.length_replicate.symm⟩

end DownloadLink

end PWSat2OBC
