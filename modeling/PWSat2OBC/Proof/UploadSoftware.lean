import PWSat2OBC.Proof.Reader
import PWSat2OBC.Proof.UploadRuns
import PWSat2OBC.Spec.UploadSoftware

/-!
# An upload that the ground takes for successful

* `calcCrc_eq_crcCalc`: the CRC from the table is the one of the flight software. Both are linear
  in exclusive or (`mix_xor`), so it is enough to look at the 256 words of the table.
* `upload_stored`: the slots are followed one by one. After the erase a slot is `Partly` the
  program, with no part done; each part that is acknowledged is done (`parts_run`), again or
  not; and a finalisation that is acknowledged has checked the content (`Partly.stored`). On a
  flash that works nothing is refused (`exists_run`).
-/

namespace PWSat2OBC.UploadSoftware

/-! ## CRC -/

/-- What `crcStep` does to the two bytes after the new one is mixed in. -/
def mix (x : BitVec 16) : BitVec 16 :=
  let x := x ^^^ ((x &&& 0xFF) >>> 4)
  let x := x ^^^ (x <<< 12)
  x ^^^ ((x &&& 0xFF) <<< 5)

theorem crcStep_eq (crc : BitVec 16) (data : Byte) :
    crcStep crc data = mix (((crc >>> 8) ||| (crc <<< 8)) ^^^ data.setWidth 16) := rfl

theorem xor_xor_xor_comm (a b c d : BitVec 16) : a ^^^ b ^^^ (c ^^^ d) = a ^^^ c ^^^ (b ^^^ d) := by
  rw [BitVec.xor_assoc, BitVec.xor_assoc, ← BitVec.xor_assoc b c d, BitVec.xor_comm b c, BitVec.xor_assoc]

theorem xor_and (a b m : BitVec 16) : (a ^^^ b) &&& m = (a &&& m) ^^^ (b &&& m) := by
  apply BitVec.eq_of_getLsbD_eq
  intro i _
  simp only [BitVec.getLsbD_and, BitVec.getLsbD_xor]
  cases a.getLsbD i <;> cases b.getLsbD i <;> simp

/-- **Linear**: each step is a shift of some of the bits, put on top of all of them. -/
theorem mix_xor (x y : BitVec 16) : mix (x ^^^ y) = mix x ^^^ mix y := by
  have h1 : ∀ x y : BitVec 16, x ^^^ y ^^^ (((x ^^^ y) &&& 0xFF) >>> 4) =
      x ^^^ ((x &&& 0xFF) >>> 4) ^^^ (y ^^^ ((y &&& 0xFF) >>> 4)) := by
    intro x y
    rw [xor_and, BitVec.ushiftRight_xor_distrib, xor_xor_xor_comm]
  have h2 : ∀ x y : BitVec 16, x ^^^ y ^^^ ((x ^^^ y) <<< 12) = x ^^^ (x <<< 12) ^^^ (y ^^^ (y <<< 12)) := by
    intro x y
    rw [BitVec.shiftLeft_xor_distrib, xor_xor_xor_comm]
  have h3 : ∀ x y : BitVec 16, x ^^^ y ^^^ (((x ^^^ y) &&& 0xFF) <<< 5) =
      x ^^^ ((x &&& 0xFF) <<< 5) ^^^ (y ^^^ ((y &&& 0xFF) <<< 5)) := by
    intro x y
    rw [xor_and, BitVec.shiftLeft_xor_distrib, xor_xor_xor_comm]
  unfold mix
  dsimp only
  rw [h1, h2, h3]

/-- A high byte only moves up. -/
theorem mix_shiftLeft (crc : BitVec 16) : mix (crc <<< 8) = crc <<< 8 := by
  have hlow : (crc <<< 8) &&& 0xFF = 0 := by
    apply BitVec.eq_of_getLsbD_eq
    intro i hi
    have hmask : ∀ i : Fin 16, (0xFF : BitVec 16).getLsbD i = decide (i.val < 8) := by decide
    rw [BitVec.getLsbD_and, BitVec.getLsbD_shiftLeft, hmask ⟨i, hi⟩]
    by_cases h : i < 8
    · simp [h]
    · simp [h]
  have hgone : (crc <<< 8) <<< 12 = 0 := by
    rw [← BitVec.shiftLeft_add]
    exact BitVec.shiftLeft_eq_zero (by decide)
  have h0 : (crc <<< 8) ^^^ ((0 : BitVec 16) >>> 4) = crc <<< 8 := by
    rw [show (0 : BitVec 16) >>> 4 = 0#16 from rfl, BitVec.xor_zero]
  have h1 : (crc <<< 8) ^^^ (0 : BitVec 16) = crc <<< 8 := BitVec.xor_zero
  have h2 : (crc <<< 8) ^^^ ((0 : BitVec 16) <<< 5) = crc <<< 8 := by
    rw [show (0 : BitVec 16) <<< 5 = 0#16 from rfl, BitVec.xor_zero]
  simp only [mix, hlow, h0, hgone, h1, h2]

/-- The words of the table. -/
theorem mix_low : ∀ i < 256, mix (BitVec.ofNat 16 i) = crctable.getD i 0 := by decide +kernel

/-- The index into the table. -/
theorem index_lt (crc : BitVec 16) (char : Byte) : ((crc >>> 8) ^^^ char.setWidth 16).toNat < 256 := by
  rw [BitVec.toNat_xor]
  apply Nat.xor_lt_two_pow (n := 8)
  · rw [BitVec.toNat_ushiftRight, Nat.shiftRight_eq_div_pow]
    have := crc.isLt
    omega
  · rw [BitVec.toNat_setWidth]
    have := char.isLt
    omega

theorem crcTurn_eq (crc : BitVec 16) (char : Byte) : crcTurn crc char = crcStep crc char := by
  have hlt := index_lt crc char
  have hindex : (((crc >>> 8) ^^^ char.setWidth 16) &&& 0xFF).toNat = ((crc >>> 8) ^^^ char.setWidth 16).toNat := by
    rw [BitVec.toNat_and, show (0xFF : BitVec 16).toNat = 2 ^ 8 - 1 from rfl, Nat.and_two_pow_sub_one_eq_mod]
    exact Nat.mod_eq_of_lt hlt
  -- the two bytes do not overlap
  have hor : (crc >>> 8) ||| (crc <<< 8) = (crc <<< 8) ^^^ (crc >>> 8) := by
    apply BitVec.eq_of_getLsbD_eq
    intro i hi
    simp only [BitVec.getLsbD_or, BitVec.getLsbD_xor, BitVec.getLsbD_ushiftRight, BitVec.getLsbD_shiftLeft]
    by_cases h : i < 8
    · simp [h]
    · rw [BitVec.getLsbD_of_ge crc (8 + i) (by omega)]
      simp
  rw [crcStep_eq, hor, BitVec.xor_assoc, mix_xor, mix_shiftLeft, crcTurn, hindex, ← mix_low _ hlt,
    BitVec.ofNat_toNat, BitVec.setWidth_eq]

theorem crcTurn_eq_crcStep : crcTurn = crcStep :=
  funext fun crc => funext fun char => crcTurn_eq crc char

/-- **The CRC of the ground** is the one of the flight software. -/
theorem calcCrc_eq_crcCalc (data : List Byte) : calcCrc data = crcCalc data := by
  unfold calcCrc crcCalc
  rw [crcTurn_eq_crcStep]

/-! ## Telecommands -/

/-- The bits of the mask. -/
theorem getLsbD_mask (entries : List ℕ) {i : ℕ} (hi : i < 8) :
    (BitVec.ofNat 8 (mask entries)).getLsbD i = decide (i ∈ entries) := by
  have hloop : ∀ (es : List ℕ) (m : ℕ),
      (es.foldl (fun mask e => mask ||| 1 <<< e) m).testBit i = (m.testBit i || decide (i ∈ es)) := by
    intro es
    induction es with
    | nil => intro m; simp
    | cons e es ih =>
      intro m
      rw [List.foldl_cons, ih, Nat.testBit_or, Nat.one_shiftLeft, Nat.testBit_two_pow, Bool.or_assoc,
        ← Bool.decide_or]
      congr 1
      exact decide_eq_decide.2 (by rw [List.mem_cons, eq_comm])
  rw [BitVec.getLsbD_ofNat, decide_eq_true hi, Bool.true_and, mask, hloop, Nat.zero_testBit, Bool.false_or]

open BootTable ProgramEntry

variable {d : FlashDriver} {answers : FlashAnswers}

/-- **A loop that goes through** has gone through each selected entry, and has left the others
alone. -/
theorem forSelected_through {mask : Byte} {body : FlashDriver → Byte → Option UploadEnding × FlashDriver}
    (hbody : ∀ j d, Confined (slot j) d (body d j).2) {d : FlashDriver}
    (hnone : (forSelected mask body d).1 = none) {i : Byte} (hi : i ∈ entries) :
    (mask.getLsbD i.toNat = true → ∃ t, Before i d t ∧ (body t i).1 = none ∧
      Same i (body t i).2 (forSelected mask body d).2) ∧
    (mask.getLsbD i.toNat = false → Same i d (forSelected mask body d).2) := by
  obtain ⟨pre, post, hsplit⟩ := List.append_of_mem hi
  have hpairwise := entries_pairwise
  rw [hsplit, List.pairwise_append, List.pairwise_cons] at hpairwise
  obtain ⟨-, ⟨hpost, -⟩, hbefore⟩ := hpairwise
  have hpre' : ∀ j ∈ pre, j.toNat < i.toNat := fun j hj => hbefore j hj i List.mem_cons_self
  have hpostne : ∀ j ∈ post, j ≠ i := fun j hj heq => absurd (hpost j hj) (by rw [heq]; omega)
  have hpresame := @firstSome_before i mask body pre hbody hpre' d
  set turn := fun (d : FlashDriver) (j : Byte) => if mask.getLsbD j.toNat then body d j else (none, d)
  have heq : forSelected mask body d = Loops.firstSome turn (pre ++ i :: post) d := by
    rw [forSelected, hsplit]
  rw [heq] at hnone ⊢
  rcases @Loops.firstSome_at _ _ _ turn pre i post d with ⟨r, t, -, hout⟩ | ⟨t, hloop, ⟨r, u, -, hout⟩ | ⟨u, hu, hout⟩⟩
  · rw [hout] at hnone
    exact absurd hnone (by simp)
  · rw [hout] at hnone
    exact absurd hnone (by simp)
  rw [hloop] at hpresame
  rw [hout]
  have hpostsame := @firstSome_same i mask body post hbody hpostne u
  constructor
  · intro hsel
    have hturn : turn t i = body t i := if_pos hsel
    rw [hturn] at hu
    refine ⟨t, hpresame, by rw [hu], ?_⟩
    rw [hu]
    exact hpostsame
  · intro hsel
    have hturn : turn t i = (none, t) := if_neg (by rw [hsel]; exact Bool.false_ne_true)
    rw [hturn, Prod.mk.injEq] at hu
    obtain ⟨-, rfl⟩ := hu
    exact hpresame.same.trans hpostsame

/-! ## The three telecommands at one entry -/

/-- A successful erase sets all bits of the selected slots. -/
theorem eraseBootTableEntry_through {entries' : List ℕ} {response : UploadResponse}
    (h : (EraseBootTableEntry.handle (eraseBootTableEntry entries') answers d).1 = .responded response)
    (hexpected : isExpected (.eraseBootTableEntry (eraseBootTableEntry entries')) response = true)
    {i : Byte} (hi : i ∈ entries) :
    let d' := (EraseBootTableEntry.handle (eraseBootTableEntry entries') answers d).2
    (i.toNat ∈ entries' → ∀ a ∈ slot i, d'.flash a = 0xFF) ∧ (i.toNat ∉ entries' → Same i d d') := by
  have hlt := entries_lt hi
  have hbit := @getLsbD_mask entries' i.toNat (by omega)
  have hhandle : EraseBootTableEntry.handle (eraseBootTableEntry entries') answers d =
      ((forSelected (BitVec.ofNat 8 (mask entries')) (EraseBootTableEntry.eraseEntry answers) d).1.getD
          (.responded (.eraseEntrySuccess (BitVec.ofNat 8 (mask entries')))),
        (forSelected (BitVec.ofNat 8 (mask entries')) (EraseBootTableEntry.eraseEntry answers) d).2) := rfl
  rw [hhandle] at h ⊢
  have hnone : (forSelected (BitVec.ofNat 8 (mask entries')) (EraseBootTableEntry.eraseEntry answers) d).1 =
      none := by
    rcases hloop : (forSelected (BitVec.ofNat 8 (mask entries'))
      (EraseBootTableEntry.eraseEntry answers) d).1 with _ | e
    · rfl
    · -- the loop ends with an error
      obtain ⟨j, -, t, ht⟩ := Loops.firstSome_returns hloop
      rw [hloop] at h
      obtain rfl : e = .responded response := h
      split at ht
      · unfold EraseBootTableEntry.eraseEntry at ht
        split at ht
        · obtain rfl := UploadEnding.responded.inj (Option.some.inj ht)
          exact absurd hexpected (by simp [isExpected])
        · exact absurd ht (by simp)
      · exact absurd ht (by simp)
  obtain ⟨hsel, hnot⟩ := forSelected_through (fun j d => EraseBootTableEntry.eraseEntry_driver d j ▸
    erase_confined j d) hnone hi
  constructor
  · intro hmem
    obtain ⟨t, -, hbody, hsame⟩ := hsel (by rw [hbit, decide_eq_true hmem])
    have hcalls := EraseBootTableEntry.eraseEntry_none hbody
    intro a ha
    rw [hsame.flash a ha, EraseBootTableEntry.eraseEntry_driver]
    rcases @erase_cases answers i t with ⟨-, -, herased⟩ | ⟨-, k, hk, hfail⟩
    · exact herased a ha
    · have hok := hcalls k hk
      have hle := Nat.mul_le_mul_right Flash.largeSectorSize hk.le
      rw [erase_eq i (hle.trans (by decide))] at hok
      exact absurd hok hfail
  · intro hmem
    exact hnot (by rw [hbit, decide_eq_false hmem])

/-- What the flight software reads from the telecommand for a part. -/
theorem read_writeProgramPart (entries' : List ℕ) {offset : ℕ} {content : List Byte}
    (hsmall : content.length < 60000) :
    WriteProgramPart.read (writeProgramPart entries' offset content) =
      some ⟨BitVec.ofNat 8 (mask entries'), BitVec.ofNat 32 offset, content, true⟩ := by
  have h0 : (Reader.init (writeProgramPart entries' offset content)).At
      ([BitVec.ofNat 8 (mask entries')] ++ (Redundancy.storeWord (BitVec.ofNat 32 offset) ++ content)) := by
    have hat := @Reader.at_init (writeProgramPart entries' offset content) (by simp [writeProgramPart])
      (by simp only [writeProgramPart, Redundancy.storeWord, List.length_append, List.length_cons,
        List.length_nil]; omega)
    rwa [writeProgramPart, List.append_assoc] at hat ⊢
  obtain ⟨hmask, h1⟩ := h0.readByte
  obtain ⟨hoffset, h2⟩ := h1.readDoubleWordLE
  obtain ⟨r, hend, h3⟩ := h2.readToEnd
  unfold WriteProgramPart.read
  dsimp only
  rw [hend, hmask, hoffset, Option.map_some]
  exact congrArg (fun status => some (WriteProgramPart.Parameters.mk _ _ _ status)) h3.isValid

/-- A successful write programs the part into the selected slots. -/
theorem writeProgramPart_through {entries' : List ℕ} {offset : ℕ} {content : List Byte}
    (hsmall : content.length < 60000) (hfits : offset + content.length ≤ size - 1024)
    {response : UploadResponse}
    (h : (WriteProgramPart.handle (writeProgramPart entries' offset content) answers d).1 = .responded response)
    (hexpected : isExpected (.writeProgramPart (writeProgramPart entries' offset content)) response = true)
    {i : Byte} (hi : i ∈ entries) :
    let d' := (WriteProgramPart.handle (writeProgramPart entries' offset content) answers d).2
    (i.toNat ∈ entries' → ∀ k < size,
      d'.flash (inFlashOffset i + k) = d.flash (inFlashOffset i + k) &&&
        if 1024 + offset ≤ k ∧ k < 1024 + offset + content.length then content.getD (k - (1024 + offset)) 0
        else 0xFF) ∧
    (i.toNat ∉ entries' → Same i d d') := by
  have hlt := entries_lt hi
  have hbit := @getLsbD_mask entries' i.toNat (by omega)
  have hoffset : (BitVec.ofNat 32 offset).toNat = offset := by
    rw [BitVec.toNat_ofNat]
    exact Nat.mod_eq_of_lt (by rw [size] at hfits; omega)
  set p : WriteProgramPart.Parameters := ⟨BitVec.ofNat 8 (mask entries'), BitVec.ofNat 32 offset, content, true⟩
  have hhandle : WriteProgramPart.handle (writeProgramPart entries' offset content) answers d =
      ((forSelected p.selectedEntries (WriteProgramPart.writeEntry p answers) d).1.getD
        (.responded (.writeProgramSuccess ((writeProgramPart entries' offset content).getD 0 0) p.offset
          (BitVec.ofNat 8 p.content.length))),
        (forSelected p.selectedEntries (WriteProgramPart.writeEntry p answers) d).2) := by
    rw [WriteProgramPart.handle, read_writeProgramPart entries' hsmall]
    rfl
  rw [hhandle] at h ⊢
  have hnone : (forSelected p.selectedEntries (WriteProgramPart.writeEntry p answers) d).1 = none := by
    rcases hloop : (forSelected p.selectedEntries (WriteProgramPart.writeEntry p answers) d).1 with _ | e
    · rfl
    · obtain ⟨j, -, t, ht⟩ := Loops.firstSome_returns hloop
      rw [hloop] at h
      obtain rfl : e = .responded response := h
      split at ht
      · unfold WriteProgramPart.writeEntry at ht
        dsimp only at ht
        split at ht
        · obtain rfl := UploadEnding.responded.inj (Option.some.inj ht)
          exact absurd hexpected (by simp [isExpected])
        · exact absurd ht (by simp)
      · exact absurd ht (by simp)
  have hconfined : ∀ j d, Confined (slot j) d (WriteProgramPart.writeEntry p answers d j).2 := fun j d =>
    (WriteProgramPart.writeEntry_confined j (Or.inr (by rw [hoffset]; exact hfits)) d).mono
      contentPart_subset_slot
  obtain ⟨hsel, hnot⟩ := forSelected_through hconfined hnone hi
  constructor
  · intro hmem
    obtain ⟨t, hbefore, hbody, hsame⟩ := hsel (by rw [hbit, decide_eq_true hmem])
    -- the call for this slot has succeeded
    have hcall : contentCall i p.offset.toNat p.content =
        .program (inFlashOffset i + 1024 + offset) content := by
      rw [contentCall, programSpan, program_spanAt i le_rfl (by rw [hoffset]; omega), hoffset]
    have hstatus : (answers (.program (inFlashOffset i + 1024 + offset) content)).status = .notBusy := by
      by_contra hne
      unfold WriteProgramPart.writeEntry writeContent at hbody
      dsimp only at hbody
      rw [hcall, FlashDriver.perform_status, if_pos hne] at hbody
      exact absurd hbody (by simp)
    have hwrap := @fits i (1024 + offset) content.length (by rw [size] at hfits ⊢; omega)
    intro k hk
    rw [hsame.flash _ (mem_slot hk), WriteProgramPart.writeEntry_driver, hcall]
    show (FlashCall.program (inFlashOffset i + 1024 + offset) content).effect _ t.flash _ = _
    rw [FlashCall.effect_program hstatus (by omega), Flash.program, hbefore.flash _ (Nat.le_add_right _ _)]
    by_cases hin : 1024 + offset ≤ k ∧ k < 1024 + offset + content.length
    · rw [if_pos (by omega), if_pos hin]
      congr 2
      omega
    · rw [if_neg (by omega), if_neg hin]
      exact (BitVec.and_allOnes (x := d.flash (inFlashOffset i + k))).symm
  · intro hmem
    exact hnot (by rw [hbit, decide_eq_false hmem])

section

variable {entries' : List ℕ} {length : ℕ} {crc : BitVec 16} {name : List Byte}

/-- What the flight software reads from the telecommand that finalises. -/
theorem read_finalizeProgramEntry (hname : name.length ≤ 29) :
    FinalizeProgramEntry.read (finalizeProgramEntry entries' length crc name) =
      some ⟨BitVec.ofNat 8 (mask entries'), BitVec.ofNat 32 length, crc, name, true⟩ := by
  have h0 : (Reader.init (finalizeProgramEntry entries' length crc name)).At
      ([BitVec.ofNat 8 (mask entries')] ++ (Redundancy.storeWord (BitVec.ofNat 32 length) ++
        ([crc.extractLsb' 0 8, crc.extractLsb' 8 8] ++ name))) := by
    have hat := @Reader.at_init (finalizeProgramEntry entries' length crc name)
      (by simp [finalizeProgramEntry])
      (by simp only [finalizeProgramEntry, Redundancy.storeWord, List.length_append, List.length_cons,
        List.length_nil]; omega)
    rwa [finalizeProgramEntry, List.append_assoc, List.append_assoc] at hat ⊢
  obtain ⟨hmask, h1⟩ := h0.readByte
  obtain ⟨hlength, h2⟩ := h1.readDoubleWordLE
  obtain ⟨hcrc, h3⟩ := h2.readWordLE
  obtain ⟨r, hend, h4⟩ := h3.readToEnd
  unfold FinalizeProgramEntry.read
  dsimp only
  rw [hend, hmask, hlength, hcrc, Option.map_some]
  exact congrArg (fun status => some (FinalizeProgramEntry.Parameters.mk _ _ _ _ status)) h4.isValid

/-- The parameters and the description that the entries get. -/
def finalParameters (entries' : List ℕ) (length : ℕ) (crc : BitVec 16) (name : List Byte) :
    FinalizeProgramEntry.Parameters :=
  ⟨BitVec.ofNat 8 (mask entries'), BitVec.ofNat 32 length, crc, name, true⟩

def paddedName (name : List Byte) : List Byte := name ++ List.replicate (30 - name.length) 0

theorem length_paddedName (hname : name.length ≤ 29) : (paddedName name).length = 30 := by
  rw [paddedName, List.length_append, List.length_replicate]
  omega

theorem takeWhile_paddedName (name : List Byte) :
    (paddedName name).takeWhile (· ≠ 0) = name.takeWhile (· ≠ 0) := by
  have hzeros : ∀ n, (List.replicate n (0 : Byte)).takeWhile (· ≠ 0) = [] := by
    intro n
    cases n with
    | zero => rfl
    | succ n => rfl
  rw [paddedName]
  generalize 30 - name.length = n
  induction name with
  | nil => rw [List.nil_append, hzeros, List.takeWhile_nil]
  | cons c name ih =>
    rw [List.cons_append, List.takeWhile_cons, List.takeWhile_cons, ih]

theorem zero_mem_paddedName (hname : name.length ≤ 29) : 0 ∈ paddedName name :=
  List.mem_append_right _ (List.mem_replicate.2 ⟨by omega, rfl⟩)

theorem handle_finalizeProgramEntry (hname : name.length ≤ 29) :
    FinalizeProgramEntry.handle (finalizeProgramEntry entries' length crc name) answers d =
      ((forSelected (BitVec.ofNat 8 (mask entries')) (FinalizeProgramEntry.finalizeEntry
          (finalParameters entries' length crc name) (paddedName name) answers) d).1.getD
        (.responded (.finalizeEntrySuccess
          ((finalizeProgramEntry entries' length crc name).getD 0 0) crc)),
        (forSelected (BitVec.ofNat 8 (mask entries')) (FinalizeProgramEntry.finalizeEntry
          (finalParameters entries' length crc name) (paddedName name) answers) d).2) := by
  have hcopy : FinalizeProgramEntry.copyDescription name = some (paddedName name) := if_pos (by omega)
  rw [FinalizeProgramEntry.handle, read_finalizeProgramEntry hname]
  dsimp only
  rw [hcopy]
  rfl

theorem finalizeEntry_slot (hname : name.length ≤ 29) (j : Byte) (d : FlashDriver) :
    Confined (slot j) d (FinalizeProgramEntry.finalizeEntry (finalParameters entries' length crc name)
      (paddedName name) answers d j).2 :=
  (FinalizeProgramEntry.finalizeEntry_confined (length_paddedName hname) j d).mono
    FinalizeProgramEntry.header_subset_slot

/-- A successful finalisation has programmed the header of the selected slots. -/
theorem finalizeProgramEntry_through (hname : name.length ≤ 29) {response : UploadResponse}
    (h : (FinalizeProgramEntry.handle (finalizeProgramEntry entries' length crc name) answers d).1 =
      .responded response)
    (hexpected : isExpected (.finalizeProgramEntry (finalizeProgramEntry entries' length crc name)) response = true)
    {i : Byte} (hi : i ∈ entries) :
    let d' := (FinalizeProgramEntry.handle (finalizeProgramEntry entries' length crc name) answers d).2
    let p := finalParameters entries' length crc name
    (i.toNat ∈ entries' → FinalizeProgramEntry.Succeeds d.flash answers p (paddedName name) i ∧
      ∃ t, Before i d t ∧ Same i (FinalizeProgramEntry.headed p (paddedName name) answers t i) d') ∧
    (i.toNat ∉ entries' → Same i d d') := by
  have hlt := entries_lt hi
  have hbit := @getLsbD_mask entries' i.toNat (by omega)
  rw [handle_finalizeProgramEntry hname] at h ⊢
  have h0 := zero_mem_paddedName hname
  have hlen := length_paddedName hname
  set p := finalParameters entries' length crc name
  have hnone : (forSelected (BitVec.ofNat 8 (mask entries'))
      (FinalizeProgramEntry.finalizeEntry p (paddedName name) answers) d).1 = none := by
    rcases hloop : (forSelected (BitVec.ofNat 8 (mask entries'))
      (FinalizeProgramEntry.finalizeEntry p (paddedName name) answers) d).1 with _ | e
    · rfl
    · obtain ⟨j, -, t, ht⟩ := Loops.firstSome_returns hloop
      rw [hloop] at h
      obtain rfl : e = .responded response := h
      split at ht
      · -- the ends of a turn are errors
        unfold FinalizeProgramEntry.finalizeEntry at ht
        dsimp only at ht
        split at ht
        · exact absurd ht (by simp)
        · split_ifs at ht
          · obtain rfl := UploadEnding.responded.inj (Option.some.inj ht)
            exact absurd hexpected (by simp [isExpected])
          · split at ht
            · exact absurd ht (by simp)
            · split_ifs at ht
              obtain rfl := UploadEnding.responded.inj (Option.some.inj ht)
              exact absurd hexpected (by simp [isExpected])
      · exact absurd ht (by simp)
  obtain ⟨hsel, hnot⟩ := forSelected_through
    (fun j d => @finalizeEntry_slot answers entries' length crc name hname j d) hnone hi
  constructor
  · intro hmem
    obtain ⟨t, hbefore, hbody, hsame⟩ := hsel (by rw [hbit, decide_eq_true hmem])
    rw [FinalizeProgramEntry.finalizeEntry_driver h0] at hsame
    rw [FinalizeProgramEntry.finalizeEntry_none hlen h0, FinalizeProgramEntry.succeeds_before hbefore] at hbody
    exact ⟨hbody, t, hbefore, hsame⟩
  · intro hmem
    exact hnot (by rw [hbit, decide_eq_false hmem])

end

/-! ## The script -/

/-- The telecommand comes to its end with the response that the script waits for. -/
def Acknowledged (s : UploadState) (e : UploadEvent) : Prop :=
  ∃ response, (e.telecommand.handle e.answers s.driver).1 = .responded response ∧
    isExpected e.telecommand response = true

theorem driver_of_step {s t : UploadState} {e : UploadEvent} (h : s.step e = some t) :
    t.driver = (e.telecommand.handle e.answers s.driver).2 := by
  unfold UploadState.step at h
  split at h
  · rename_i response driver heq
    obtain rfl := Option.some.inj h
    rw [heq]
  · exact absurd h (by simp)

namespace Upload

variable (u : Upload)

/-- The offset of a part at which a byte is. -/
theorem part_of_lt {k : ℕ} (hk : k < u.programData.length) : k / maxPartSize * maxPartSize ∈ u.offsets := by
  refine List.mem_map.2 ⟨k / maxPartSize, List.mem_range.2 ?_, rfl⟩
  simp only [maxPartSize, maxPayloadSize]
  omega

theorem lt_of_mem_offsets {o : ℕ} (ho : o ∈ u.offsets) : o < u.programData.length := by
  obtain ⟨n, hn, rfl⟩ := List.mem_map.1 ho
  rw [List.mem_range] at hn
  simp only [maxPartSize, maxPayloadSize] at hn ⊢
  omega

/-- A slot that is erased but for some parts of the program. -/
structure Partly (done : List ℕ) (i : Byte) (flash : Flash) : Prop where
  header : ∀ k < 1024, flash (inFlashOffset i + k) = 0xFF
  content : ∀ k, 1024 + k < size → flash (inFlashOffset i + (1024 + k)) =
    if k < u.programData.length ∧ ∃ o ∈ done, o ≤ k ∧ k < o + maxPartSize then u.programData.getD k 0
    else 0xFF

variable {u}

theorem Partly.write {done : List ℕ} {i : Byte} {flash flash' : Flash} (h : u.Partly done i flash) {o : ℕ}
    (hflash : ∀ k < size, flash' (inFlashOffset i + k) = flash (inFlashOffset i + k) &&&
      if 1024 + o ≤ k ∧ k < 1024 + o + ((u.programData.drop o).take maxPartSize).length then
        ((u.programData.drop o).take maxPartSize).getD (k - (1024 + o)) 0
      else 0xFF) : u.Partly (done ++ [o]) i flash' := by
  have hlength : ((u.programData.drop o).take maxPartSize).length =
      min maxPartSize (u.programData.length - o) := by
    rw [List.length_take, List.length_drop]
  rw [hlength] at hflash
  constructor
  · intro k hk
    rw [hflash k (by rw [size]; omega), h.header k hk, if_neg (by omega)]
    decide
  · intro k hk
    rw [hflash (1024 + k) hk, h.content k hk]
    by_cases hnew : k < u.programData.length ∧ o ≤ k ∧ k < o + maxPartSize
    · have hget : ((u.programData.drop o).take maxPartSize).getD (1024 + k - (1024 + o)) 0 =
          u.programData.getD k 0 := by
        rw [List.getD_eq_getElem?_getD, List.getD_eq_getElem?_getD, List.getElem?_take_of_lt (by omega),
          List.getElem?_drop]
        congr 2
        omega
      have hin : 1024 + o ≤ 1024 + k ∧ 1024 + k < 1024 + o + min maxPartSize (u.programData.length - o) := by
        omega
      have hdone : k < u.programData.length ∧ ∃ o' ∈ done ++ [o], o' ≤ k ∧ k < o' + maxPartSize :=
        ⟨hnew.1, o, List.mem_append_right _ (List.mem_singleton_self o), hnew.2⟩
      rw [if_pos hin, hget, if_pos hdone]
      -- a part that is written again changes nothing
      split
      · exact BitVec.and_self
      · exact BitVec.allOnes_and
    · have hiff : (k < u.programData.length ∧ ∃ o' ∈ done ++ [o], o' ≤ k ∧ k < o' + maxPartSize) ↔
          k < u.programData.length ∧ ∃ o' ∈ done, o' ≤ k ∧ k < o' + maxPartSize := by
        constructor
        · rintro ⟨hlt, o', ho', hk'⟩
          rcases List.mem_append.1 ho' with ho' | ho'
          · exact ⟨hlt, o', ho', hk'⟩
          · rw [List.mem_singleton.1 ho'] at hk'
            exact absurd ⟨hlt, hk'⟩ hnew
        · rintro ⟨hlt, o', ho', hk'⟩
          exact ⟨hlt, o', List.mem_append_left _ ho', hk'⟩
      have hout : ¬ (1024 + o ≤ 1024 + k ∧ 1024 + k < 1024 + o + min maxPartSize (u.programData.length - o)) := by
        omega
      rw [if_neg hout]
      simp only [hiff]
      exact BitVec.and_allOnes

theorem Partly.congr {done : List ℕ} {i : Byte} {flash flash' : Flash} (h : u.Partly done i flash)
    (hsame : ∀ a ∈ slot i, flash' a = flash a) : u.Partly done i flash' where
  header := fun k hk => (hsame _ (mem_slot (by rw [size]; omega))).trans (h.header k hk)
  content := fun k hk => (hsame _ (mem_slot hk)).trans (h.content k hk)

/-- The parts, in any order and any of them again. -/
theorem parts_run (hfits : u.programData.length ≤ size - 1024) {s t : UploadState} {es : List UploadEvent}
    (h : Runs.Run UploadState.step Acknowledged s es t) {order : List ℕ}
    (hes : es.map (·.telecommand) = order.map u.part) (horder : ∀ o ∈ order, o ∈ u.offsets) {i : Byte}
    (hi : i ∈ entries) :
    (i.toNat ∈ u.slots → ∀ done, u.Partly done i s.driver.flash → u.Partly (done ++ order) i t.driver.flash) ∧
    (i.toNat ∉ u.slots → ∀ a ∈ slot i, t.driver.flash a = s.driver.flash a) := by
  induction h generalizing order with
  | nil =>
    obtain rfl : order = [] := by
      cases order with
      | nil => rfl
      | cons o order => exact absurd hes (by simp)
    refine ⟨?_, fun _ _ _ => rfl⟩
    intro _ done hdone
    rwa [List.append_nil]
  | @snoc es s' t e hrun hack hstep ih =>
    rw [List.map_append] at hes
    obtain ⟨order', last, rfl, hes', hlast⟩ := List.map_eq_append_iff.1 hes.symm
    obtain ⟨o, rfl, ho⟩ := List.map_eq_singleton_iff.1 hlast
    obtain ⟨ihsel, ihnot⟩ := ih hes'.symm fun o ho => horder o (List.mem_append_left _ ho)
    have hdriver := driver_of_step hstep
    obtain ⟨response, hresponse, hexpected⟩ := hack
    have htelecommand : e.telecommand = u.part o := ho.symm
    rw [htelecommand] at hdriver hresponse hexpected
    have hlt := u.lt_of_mem_offsets (horder o (List.mem_append_right _ (List.mem_singleton_self o)))
    have hlength : ((u.programData.drop o).take maxPartSize).length ≤ u.programData.length - o := by
      rw [List.length_take, List.length_drop]
      exact min_le_right _ _
    have hsmall : ((u.programData.drop o).take maxPartSize).length < 60000 := by
      rw [List.length_take]
      exact lt_of_le_of_lt (min_le_left _ _) (by decide)
    obtain ⟨hsel, hnot⟩ := writeProgramPart_through hsmall (by omega) hresponse hexpected hi
    constructor
    · intro hmem done hdone
      rw [← List.append_assoc, hdriver]
      exact (ihsel hmem done hdone).write (hsel hmem)
    · intro hmem a ha
      rw [hdriver]
      exact ((hnot hmem).flash a ha).trans (ihnot hmem a ha)

/-- The description as the flight software reads it, up to its first NUL character. -/
def name : List Byte := u.description.takeWhile (· ≠ 0)

/-- A slot that holds the program, ready to be booted. -/
structure Stored (u : Upload) (i : Byte) (flash : Flash) : Prop where
  valid : isValid flash i = true
  length : ProgramEntry.length flash i = BitVec.ofNat 32 u.programData.length
  crc : ProgramEntry.crc flash i = calcCrc u.programData
  /-- The characters, and a NUL character behind them. -/
  description : ∀ k ≤ u.name.length, flash (inFlashOffset i + 128 + k) = u.name.getD k 0
  content : ∀ k < u.programData.length, flash (inFlashOffset i + (1024 + k)) = u.programData.getD k 0
  checks : calculateCrc flash i = some (calcCrc u.programData)

theorem partly_of_erased {i : Byte} {flash : Flash} (h : ∀ a ∈ slot i, flash a = 0xFF) :
    u.Partly [] i flash where
  header := fun k hk => h _ (mem_slot (by rw [size]; omega))
  content := by
    intro k hk
    rw [h _ (mem_slot hk), if_neg]
    rintro ⟨-, o, ho, -⟩
    exact absurd ho List.not_mem_nil

/-- An erased header takes what is programmed. -/
theorem header_erased {i : Byte} {flash : Flash} (h : ∀ k < 1024, flash (inFlashOffset i + k) = 0xFF) :
    ProgramEntry.length flash i = BitVec.allOnes 32 ∧ ProgramEntry.crc flash i = BitVec.allOnes 16 := by
  have h0 := h 0 (by decide)
  rw [Nat.add_zero] at h0
  rw [length_eq, crc_eq, h0, h 1 (by decide), h 2 (by decide), h 3 (by decide), h 32 (by decide),
    h 33 (by decide)]
  exact ⟨by decide, by decide⟩

/-- The finalisation of a slot with all parts. -/
theorem Partly.stored {done : List ℕ} {i : Byte} {d t d' : FlashDriver} (h : u.Partly done i d.flash)
    (hfits : u.programData.length ≤ size - 1024) (hall : ∀ o ∈ u.offsets, o ∈ done)
    (hdescription : u.description.length ≤ 29)
    (hsucceeds : FinalizeProgramEntry.Succeeds d.flash answers
      (finalParameters u.slots u.programData.length (calcCrc u.programData) u.description)
      (paddedName u.description) i)
    (hbefore : Before i d t)
    (hsame : Same i (FinalizeProgramEntry.headed
      (finalParameters u.slots u.programData.length (calcCrc u.programData) u.description)
      (paddedName u.description) answers t i) d') : Stored u i d'.flash := by
  have hlen := length_paddedName hdescription
  obtain ⟨hcalls, hcheck⟩ := hsucceeds
  set p := finalParameters u.slots u.programData.length (calcCrc u.programData) u.description
  have ht : u.Partly done i t.flash := h.congr fun a ha => hbefore.flash a ha.1
  obtain ⟨hlength, hcrc⟩ := header_erased ht.header
  obtain ⟨hlength', -⟩ := header_erased h.header
  have hpcrc : p.expectedCrc = calcCrc u.programData := rfl
  have hplength : p.length = BitVec.ofNat 32 u.programData.length := rfl
  have hcrcCall := hcalls (crcCall i p.expectedCrc) (by simp [FinalizeProgramEntry.headerCalls])
  have hlengthCall := hcalls (lengthCall i p.length) (by simp [FinalizeProgramEntry.headerCalls])
  have hmarkCall := hcalls (markCall i) (by simp [FinalizeProgramEntry.headerCalls])
  have hcontent : ∀ k, 1024 + k < size → d'.flash (inFlashOffset i + (1024 + k)) =
      t.flash (inFlashOffset i + (1024 + k)) := by
    intro k hk
    rw [hsame.flash _ (mem_slot hk)]
    exact (FinalizeProgramEntry.headed_confined hlen t i).flash _ fun hmem => by
      have := hmem.2
      omega
  have hfield : ∀ a ∈ Set.Ico (inFlashOffset i) (inFlashOffset i + 1024), d'.flash a =
      (FinalizeProgramEntry.headed p (paddedName u.description) answers t i).flash a := by
    intro a ha
    exact hsame.flash a (Set.Ico_subset_Ico_right (by rw [size]; omega) ha)
  have hlength'' : ProgramEntry.length d'.flash i = BitVec.ofNat 32 u.programData.length := by
    rw [length_congr fun a ha => hfield a (Set.Ico_subset_Ico_right (by omega) ha),
      FinalizeProgramEntry.headed_length hlen hlengthCall, hlength, BitVec.allOnes_and, hplength]
  constructor
  · -- the marker
    rw [isValid, hfield _ ⟨by omega, by omega⟩, FinalizeProgramEntry.headed_marker hlen]
    have hcall := markCall_eq i
    rw [hcall] at hmarkCall ⊢
    have hwrap := @fits i 64 1 (by decide)
    rw [FlashCall.effect_program hmarkCall hwrap, Flash.program, if_pos ⟨le_rfl, Nat.lt_succ_self _⟩,
      ht.header 64 (by decide), Nat.sub_self]
    decide
  · exact hlength''
  · rw [crc_congr fun a ha => hfield a (Set.Ico_subset_Ico (by omega) (by omega) ha),
      FinalizeProgramEntry.headed_crc hlen hcrcCall, hcrc, BitVec.allOnes_and, hpcrc]
  · intro k hk
    have hcalls' : ∀ call ∈ descriptionCalls i (paddedName u.description) 0, (answers call).status = .notBusy :=
      fun call hcall => hcalls call (by simp [FinalizeProgramEntry.headerCalls, hcall])
    have hname : u.name.length ≤ 29 :=
      (List.takeWhile_sublist _).length_le.trans hdescription
    have hprogrammed := FinalizeProgramEntry.headed_description (p := p) hlen (zero_mem_paddedName hdescription)
      hcalls' (d := t) fun j hj => by
        rw [Nat.add_assoc]
        exact ht.header (128 + j) (by omega)
    rw [takeWhile_paddedName] at hprogrammed
    rw [hfield _ ⟨by omega, by omega⟩]
    exact hprogrammed k hk
  · intro k hk
    rw [hcontent k (by omega), ht.content k (by omega), if_pos]
    refine ⟨hk, k / maxPartSize * maxPartSize, hall _ (u.part_of_lt hk), ?_, ?_⟩
    · exact Nat.div_mul_le_self _ _
    · simp only [maxPartSize, maxPayloadSize]
      omega
  · rw [hlength', BitVec.allOnes_and, hplength, hpcrc] at hcheck
    rw [calculateCrc, hlength'', ← hcheck]
    apply contentCrc_congr
    intro a hlow hhigh
    rw [BitVec.toNat_ofNat, Nat.mod_eq_of_lt (by rw [size] at hfits; omega)] at hhigh
    obtain ⟨k, rfl⟩ : ∃ k, a = inFlashOffset i + (1024 + k) := ⟨a - (inFlashOffset i + 1024), by omega⟩
    rw [hcontent k (by omega)]
    exact hbefore.flash _ (Nat.le_add_right _ _)

theorem stored_of_run (hfits : u.programData.length ≤ size - 1024) (hdescription : u.description.length ≤ 29)
    {order : List ℕ} (horder : ∀ o ∈ order, o ∈ u.offsets) (hall : ∀ o ∈ u.offsets, o ∈ order)
    {s₀ s : UploadState} {es : List UploadEvent} (hes : es.map (·.telecommand) = u.telecommands order)
    (h : Runs.Run UploadState.step Acknowledged s₀ es s) {i : Byte} (hi : i ∈ entries) :
    (i.toNat ∈ u.slots → Stored u i s.driver.flash) ∧
      (i.toNat ∉ u.slots → ∀ a ∈ slot i, s.driver.flash a = s₀.driver.flash a) := by
  unfold telecommands at hes
  obtain ⟨es', efinal, rfl, hes', hfinal⟩ := List.map_eq_append_iff.1 hes
  obtain ⟨ef, rfl, hef⟩ := List.map_eq_singleton_iff.1 hfinal
  obtain ⟨eerase, eparts, rfl, herase, hparts⟩ := List.map_eq_cons_iff.1 hes'
  obtain ⟨s₁, hack₁, hstep₁, hrest⟩ := h.uncons
  obtain ⟨s₂, hrun, hack₂, hstep₂⟩ := hrest.unsnoc
  -- the erase
  have hdriver₁ := driver_of_step hstep₁
  obtain ⟨response₁, hresponse₁, hexpected₁⟩ := hack₁
  rw [herase] at hdriver₁ hresponse₁ hexpected₁
  obtain ⟨hsel₁, hnot₁⟩ := eraseBootTableEntry_through hresponse₁ hexpected₁ hi
  have herased : s₁.driver =
      (EraseBootTableEntry.handle (eraseBootTableEntry u.slots) eerase.answers s₀.driver).2 := hdriver₁
  rw [← herased] at hsel₁ hnot₁
  -- the parts
  obtain ⟨hsel₂, hnot₂⟩ := parts_run hfits hrun hparts horder hi
  -- the end
  have hdriver₃ := driver_of_step hstep₂
  obtain ⟨response₃, hresponse₃, hexpected₃⟩ := hack₂
  rw [hef] at hdriver₃ hresponse₃ hexpected₃
  obtain ⟨hsel₃, hnot₃⟩ := finalizeProgramEntry_through hdescription hresponse₃ hexpected₃ hi
  have hfinalised : s.driver = (FinalizeProgramEntry.handle (finalizeProgramEntry u.slots
      u.programData.length (calcCrc u.programData) u.description) ef.answers s₂.driver).2 := hdriver₃
  rw [← hfinalised] at hsel₃ hnot₃
  constructor
  · intro hmem
    have hpartly := hsel₂ hmem [] (partly_of_erased (hsel₁ hmem))
    rw [List.nil_append] at hpartly
    obtain ⟨hsucceeds, t, hbefore, hsame⟩ := hsel₃ hmem
    exact hpartly.stored hfits hall hdescription hsucceeds hbefore hsame
  · intro hmem a ha
    rw [(hnot₃ hmem).flash a ha, hnot₂ hmem a ha, (hnot₁ hmem).flash a ha]

end Upload

/-! ## A flash that works -/

/-- The device answers all calls with success. -/
def Works (answers : FlashAnswers) : Prop := ∀ call, (answers call).status = .notBusy

/-- The loop goes through if each selected entry does in the state in which the loop comes to it. -/
theorem forSelected_eq_none {mask : Byte} {body : FlashDriver → Byte → Option UploadEnding × FlashDriver}
    (hbody : ∀ j d, Confined (slot j) d (body d j).2) {d : FlashDriver}
    (h : ∀ j ∈ entries, mask.getLsbD j.toNat = true → ∀ t, Before j d t → (body t j).1 = none) :
    (forSelected mask body d).1 = none := by
  have hloop : ∀ pre is, pre ++ is = entries → ∀ t, (∀ j ∈ is, Before j d t) →
      (Loops.firstSome (fun d j => if mask.getLsbD j.toNat then body d j else (none, d)) is t).1 = none := by
    intro pre is
    induction is generalizing pre with
    | nil => intro _ t _; rfl
    | cons j is ih =>
      intro hsplit t hbefore
      have hmem : j ∈ entries := by rw [← hsplit]; simp
      have hpairwise := entries_pairwise
      rw [← hsplit, List.pairwise_append, List.pairwise_cons] at hpairwise
      have hnext : ∀ v, Confined (slot j) t v → ∀ k ∈ is, Before k d v := by
        intro v hconf k hk
        have hlt := hpairwise.2.1.1 k hk
        have hk' := hbefore k (List.mem_cons_of_mem j hk)
        have hdisj : ∀ a ∈ slot j, a < inFlashOffset k := by
          intro a ha
          simp only [slot, inFlashOffset, size, Set.mem_Ico] at ha ⊢
          omega
        refine ⟨?_, ?_⟩
        · intro a ha
          rw [hconf.flash a fun hmem => absurd (hdisj a hmem) (Nat.not_lt.2 ha)]
          exact hk'.flash a ha
        · rw [(same_of_confined hconf fun a ha hslot =>
            absurd (hdisj a ha) (Nat.not_lt.2 hslot.1)).written]
          exact hk'.written
      rcases hsel : mask.getLsbD j.toNat with _ | _
      · have hturn : (if mask.getLsbD j.toNat then body t j else (none, t)) = (none, t) :=
          if_neg (by rw [hsel]; exact Bool.false_ne_true)
        rw [Loops.firstSome_cons_none hturn]
        exact ih (pre ++ [j]) (by rw [← hsplit]; simp) t (hnext t (Confined.refl t))
      · have hnone := h j hmem hsel t (hbefore j List.mem_cons_self)
        have hturn : (if mask.getLsbD j.toNat then body t j else (none, t)) = (none, (body t j).2) := by
          rw [if_pos hsel, ← hnone]
        rw [Loops.firstSome_cons_none hturn]
        exact ih (pre ++ [j]) (by rw [← hsplit]; simp) _ (hnext _ (hbody j t))
  exact hloop [] entries rfl d fun _ _ => ⟨fun _ _ => rfl, rfl⟩

theorem eraseBootTableEntry_works (hworks : Works answers) (entries' : List ℕ) (d : FlashDriver) :
    (EraseBootTableEntry.handle (eraseBootTableEntry entries') answers d).1 =
      .responded (.eraseEntrySuccess (BitVec.ofNat 8 (mask entries'))) := by
  have hnone : (forSelected (BitVec.ofNat 8 (mask entries')) (EraseBootTableEntry.eraseEntry answers) d).1 =
      none := by
    apply forSelected_eq_none fun j d => EraseBootTableEntry.eraseEntry_driver d j ▸ erase_confined j d
    intro j _ _ t _
    rcases @erase_cases answers j t with ⟨hnone, -, -⟩ | ⟨-, k, -, hfail⟩
    · unfold EraseBootTableEntry.eraseEntry
      rcases herase : ProgramEntry.erase j answers t with ⟨_ | failure, u⟩
      · rfl
      · rw [herase] at hnone
        exact absurd hnone (by simp)
    · exact absurd (hworks _) hfail
  show (forSelected (BitVec.ofNat 8 (mask entries')) (EraseBootTableEntry.eraseEntry answers) d).1.getD _ = _
  rw [hnone]
  rfl

theorem writeProgramPart_works (hworks : Works answers) (entries' : List ℕ) {offset : ℕ}
    {content : List Byte} (hsmall : content.length < 60000) (hfits : offset + content.length ≤ size - 1024)
    (d : FlashDriver) :
    ∃ selected offset' length, (WriteProgramPart.handle (writeProgramPart entries' offset content) answers d).1 =
      .responded (.writeProgramSuccess selected offset' length) := by
  have hoffset : (BitVec.ofNat 32 offset).toNat = offset := by
    rw [BitVec.toNat_ofNat]
    exact Nat.mod_eq_of_lt (by rw [size] at hfits; omega)
  have hnone : (forSelected (BitVec.ofNat 8 (mask entries')) (WriteProgramPart.writeEntry
      ⟨BitVec.ofNat 8 (mask entries'), BitVec.ofNat 32 offset, content, true⟩ answers) d).1 = none := by
    apply forSelected_eq_none fun j d => (WriteProgramPart.writeEntry_confined j
      (Or.inr (by rw [hoffset]; exact hfits)) d).mono contentPart_subset_slot
    intro j _ _ t _
    unfold WriteProgramPart.writeEntry writeContent
    exact congrArg Prod.fst (if_neg (not_not.2 (hworks _)))
  refine ⟨(writeProgramPart entries' offset content).getD 0 0, BitVec.ofNat 32 offset,
    BitVec.ofNat 8 content.length, ?_⟩
  rw [WriteProgramPart.handle, read_writeProgramPart entries' hsmall]
  show (forSelected (BitVec.ofNat 8 (mask entries')) _ d).1.getD _ = _
  rw [hnone]
  rfl

namespace Upload

variable {u : Upload}

/-- The slots with all parts of the program pass the check of the content. -/
theorem Partly.succeeds (hworks : Works answers) {done : List ℕ} {i : Byte} {flash : Flash}
    (h : u.Partly done i flash) (hfits : u.programData.length ≤ size - 1024)
    (hall : ∀ o ∈ u.offsets, o ∈ done) :
    FinalizeProgramEntry.Succeeds flash answers
      (finalParameters u.slots u.programData.length (calcCrc u.programData) u.description)
      (paddedName u.description) i := by
  refine ⟨fun call _ => hworks call, ?_⟩
  obtain ⟨hlength, -⟩ := header_erased h.header
  have hplength : (finalParameters u.slots u.programData.length (calcCrc u.programData) u.description).length =
      BitVec.ofNat 32 u.programData.length := rfl
  have htoNat : (BitVec.ofNat 32 u.programData.length).toNat = u.programData.length := by
    rw [BitVec.toNat_ofNat]
    exact Nat.mod_eq_of_lt (by rw [size] at hfits; omega)
  rw [hlength, BitVec.allOnes_and, hplength, contentCrc, htoNat,
    if_pos (by rw [size] at hfits; omega), programSpan, baseOffset_spanAt i le_rfl]
  have hbytes : (flash.span (inFlashOffset i + 1024) u.programData.length).bytes = u.programData := by
    apply List.ext_getElem
    · simp [Flash.span]
    · intro k h1 h2
      have hcell := h.content k (by omega)
      rw [if_pos ⟨h2, k / maxPartSize * maxPartSize, hall _ (u.part_of_lt h2),
        Nat.div_mul_le_self _ _, by simp only [maxPartSize, maxPayloadSize]; omega⟩,
        List.getD_eq_getElem?_getD, List.getElem?_eq_getElem h2, Option.getD_some] at hcell
      simp only [Flash.span, List.getElem_map, List.getElem_range]
      rw [← hcell, Nat.add_assoc]
  rw [hbytes]
  unfold finalParameters calcCrc crcCalc
  rw [crcTurn_eq_crcStep]

theorem step_of_acknowledged {s : UploadState} {e : UploadEvent} {response : UploadResponse}
    (h : (e.telecommand.handle e.answers s.driver).1 = .responded response)
    (hexpected : isExpected e.telecommand response = true) :
    Acknowledged s e ∧ ∃ t, s.step e = some t ∧ t.response = some response := by
  refine ⟨⟨response, h, hexpected⟩, ?_⟩
  rcases hhandle : e.telecommand.handle e.answers s.driver with ⟨ending, driver⟩
  rw [hhandle] at h
  obtain rfl : ending = .responded response := h
  exact ⟨⟨driver, some response⟩, by rw [UploadState.step, hhandle], rfl⟩

/-- The parts go through. -/
theorem parts_work (hfits : u.programData.length ≤ size - 1024) {order : List ℕ}
    (horder : ∀ o ∈ order, o ∈ u.offsets) {es : List UploadEvent}
    (hes : es.map (·.telecommand) = order.map u.part) (hworks : ∀ e ∈ es, Works e.answers)
    (s₀ : UploadState) : ∃ s, Runs.Run UploadState.step Acknowledged s₀ es s := by
  induction es generalizing order s₀ with
  | nil => exact ⟨s₀, .nil⟩
  | cons e es ih =>
    obtain ⟨o, order', rfl, ho, hes'⟩ := List.map_eq_cons_iff.1 hes.symm
    have hlt := u.lt_of_mem_offsets (horder o List.mem_cons_self)
    have hlength : ((u.programData.drop o).take maxPartSize).length ≤ u.programData.length - o := by
      rw [List.length_take, List.length_drop]
      exact min_le_right _ _
    have hsmall : ((u.programData.drop o).take maxPartSize).length < 60000 := by
      rw [List.length_take]
      exact lt_of_le_of_lt (min_le_left _ _) (by decide)
    obtain ⟨selected, offset, length, hresponse⟩ := writeProgramPart_works (hworks e List.mem_cons_self)
      u.slots hsmall (show o + _ ≤ size - 1024 by omega) s₀.driver
    have htelecommand : e.telecommand = u.part o := ho.symm
    obtain ⟨hack, t, ht, -⟩ := @step_of_acknowledged s₀ e (.writeProgramSuccess selected offset length)
      (by rw [htelecommand]; exact hresponse) (by rw [htelecommand]; rfl)
    obtain ⟨s, hrun⟩ := ih (fun o' ho' => horder o' (List.mem_cons_of_mem o ho')) hes'.symm
      (fun e' he' => hworks e' (List.mem_cons_of_mem e he')) t
    exact ⟨s, hrun.cons hack ht⟩

theorem exists_run (hfits : u.programData.length ≤ size - 1024) (hdescription : u.description.length ≤ 29)
    {order : List ℕ} (horder : ∀ o ∈ order, o ∈ u.offsets) (hall : ∀ o ∈ u.offsets, o ∈ order)
    {es : List UploadEvent} (hes : es.map (·.telecommand) = u.telecommands order)
    (hworks : ∀ e ∈ es, Works e.answers) (s₀ : UploadState) :
    ∃ s, Runs.Run UploadState.step Acknowledged s₀ es s ∧
      ∃ mask, s.response = some (.finalizeEntrySuccess mask (calcCrc u.programData)) := by
  unfold telecommands at hes
  obtain ⟨es', efinal, rfl, hes', hfinal⟩ := List.map_eq_append_iff.1 hes
  obtain ⟨ef, rfl, hef⟩ := List.map_eq_singleton_iff.1 hfinal
  obtain ⟨eerase, eparts, rfl, herase, hparts⟩ := List.map_eq_cons_iff.1 hes'
  -- the erase
  have hresponse₁ := eraseBootTableEntry_works (hworks eerase (by simp)) u.slots s₀.driver
  have htelecommand₁ : eerase.telecommand = .eraseBootTableEntry (eraseBootTableEntry u.slots) := herase
  obtain ⟨hack₁, s₁, hstep₁, -⟩ := @step_of_acknowledged s₀ eerase _
    (by rw [htelecommand₁]; exact hresponse₁) (by rw [htelecommand₁]; rfl)
  have hdriver₁ := driver_of_step hstep₁
  rw [htelecommand₁] at hdriver₁
  -- the parts
  obtain ⟨s₂, hrun⟩ := parts_work hfits horder hparts (fun e he => hworks e (by simp [he])) s₁
  -- the end, for which the slots have been erased and hold all parts
  have hworks₃ := hworks ef (by simp)
  have hnone : (forSelected (BitVec.ofNat 8 (mask u.slots)) (FinalizeProgramEntry.finalizeEntry
      (finalParameters u.slots u.programData.length (calcCrc u.programData) u.description)
      (paddedName u.description) ef.answers) s₂.driver).1 = none := by
    apply forSelected_eq_none fun j d => finalizeEntry_slot hdescription j d
    intro j hj hsel t hbefore
    have hlt := entries_lt hj
    rw [getLsbD_mask _ (by omega), decide_eq_true_eq] at hsel
    have herased := (@eraseBootTableEntry_through s₀.driver eerase.answers u.slots _ hresponse₁ rfl j hj).1 hsel
    have hdriver : s₁.driver = (EraseBootTableEntry.handle (eraseBootTableEntry u.slots) eerase.answers
      s₀.driver).2 := hdriver₁
    rw [← hdriver] at herased
    have hpartly := (parts_run hfits hrun hparts horder hj).1 hsel [] (partly_of_erased herased)
    rw [List.nil_append] at hpartly
    rw [FinalizeProgramEntry.finalizeEntry_none (length_paddedName hdescription)
      (zero_mem_paddedName hdescription), FinalizeProgramEntry.succeeds_before hbefore]
    exact hpartly.succeeds hworks₃ hfits hall
  have hresponse₃ := @handle_finalizeProgramEntry s₂.driver ef.answers u.slots u.programData.length
    (calcCrc u.programData) u.description hdescription
  rw [hnone, Option.getD_none] at hresponse₃
  obtain ⟨hack₃, s, hstep₃, hresponse⟩ := @step_of_acknowledged s₂ ef _
    (by rw [hef]; exact congrArg Prod.fst hresponse₃) (by rw [hef]; rfl)
  exact ⟨s, (hrun.snoc hack₃ hstep₃).cons hack₁ hstep₁, _, hresponse⟩

/-- **Uploads.** One that the ground takes for successful has stored the program in all slots it was
for, ready to be booted, and has left the other slots alone: whatever was in the flash before,
whatever its device answers, and in whatever order the parts arrive and how often. And on a
flash that works each one is taken for successful. -/
theorem upload_stored (hfits : u.programData.length ≤ size - 1024) (hdescription : u.description.length ≤ 29)
    {order : List ℕ} (horder : ∀ o ∈ order, o ∈ u.offsets) (hall : ∀ o ∈ u.offsets, o ∈ order)
    {es : List UploadEvent} (hes : es.map (·.telecommand) = u.telecommands order) (s₀ : UploadState) :
    (∀ s, Runs.Run UploadState.step Acknowledged s₀ es s → ∀ i ∈ entries,
      (i.toNat ∈ u.slots → Stored u i s.driver.flash) ∧
        (i.toNat ∉ u.slots → ∀ a ∈ slot i, s.driver.flash a = s₀.driver.flash a)) ∧
    ((∀ e ∈ es, Works e.answers) → ∃ s, Runs.Run UploadState.step Acknowledged s₀ es s ∧
      ∃ mask, s.response = some (.finalizeEntrySuccess mask (calcCrc u.programData))) := by
  refine ⟨?_, fun hworks => exists_run hfits hdescription horder hall hes hworks s₀⟩
  intro s hrun i hi
  exact stored_of_run hfits hdescription horder hall hes hrun hi

/-- A file of one byte, with its only part sent twice, into two slots. -/
theorem upload_stored_example :
    let u : Upload := ⟨[1, 4], [0x42], [0x41, 0x42]⟩
    ∃ s : UploadState, Stored u 1 s.driver.flash ∧ Stored u 4 s.driver.flash ∧
      s.driver.flash (inFlashOffset 2) = 0x5A := by
  intro u
  have hlength : u.programData.length = 128 := by simp [u, programData, pad]
  have hoffsets : u.offsets = [0] := by
    rw [offsets, hlength]
    rfl
  have hmem : ∀ o ∈ [0, 0], o ∈ u.offsets := by rw [hoffsets]; simp
  have hall : ∀ o ∈ u.offsets, o ∈ [0, 0] := by rw [hoffsets]; simp
  have hfits : u.programData.length ≤ size - 1024 := by rw [hlength, size]; norm_num
  let answers : FlashAnswers := fun _ => ⟨.notBusy, fun _ => 0xFF⟩
  have hes : ((u.telecommands [0, 0]).map fun telecommand => UploadEvent.mk telecommand answers).map
      (·.telecommand) = u.telecommands [0, 0] := by
    rw [List.map_map]
    exact List.map_id' _
  have hworks : ∀ e ∈ (u.telecommands [0, 0]).map fun telecommand => UploadEvent.mk telecommand answers,
      Works e.answers := by
    intro e he
    obtain ⟨telecommand, -, rfl⟩ := List.mem_map.1 he
    exact fun _ => rfl
  obtain ⟨hstored, hworks'⟩ := @upload_stored u hfits (by decide) [0, 0] hmem hall _ hes
    ⟨⟨fun _ => 0x5A, []⟩, none⟩
  obtain ⟨s, hrun, -⟩ := hworks' hworks
  have hslot : inFlashOffset 2 ∈ slot 2 := by
    simpa using @mem_slot 2 0 (by rw [size]; norm_num)
  refine ⟨s, (hstored s hrun 1 (by decide)).1 (by decide), (hstored s hrun 4 (by decide)).1 (by decide), ?_⟩
  exact (hstored s hrun 2 (by decide)).2 (by decide) _ hslot

end Upload

end PWSat2OBC.UploadSoftware
