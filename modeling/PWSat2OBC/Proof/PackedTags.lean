import PWSat2OBC.Proof.N25QYaffs
import PWSat2OBC.Spec.PackedTags

/-!
# Tagged chunks are read back

* `tags_kept_iff`: packing and unpacking keeps the tags exactly if the numbers leave the bits free
  that the packed form uses for itself.
* `reads_tagged_chunk`: data and tags that were written once since the block was erased are read
  back after every run. The write is `tagsMarshallWrite` (`step_tagsMarshallWrite`).
-/

namespace PWSat2OBC.PackedTags

open Redundancy

/-! ## Packing -/

/-- The tags that are kept: those of a header with its object, those of a data chunk without. -/
def Keeps (t t' : YaffsExtTags) : Prop :=
  t'.chunkUsed = 1 ∧ t'.seqNumber = t.seqNumber ∧ t'.objId = t.objId ∧ t'.chunkId = t.chunkId ∧
    if checkTagsExtraPackable t then
      t'.extraAvailable = 1 ∧ t'.extraParentId = t.extraParentId ∧
        (t'.extraIsShrink ≠ 0 ↔ t.extraIsShrink ≠ 0) ∧ (t'.extraShadows ≠ 0 ↔ t.extraShadows ≠ 0) ∧
        t'.extraObjType = t.extraObjType ∧
        (t.extraObjType = objectTypeHardlink → t'.extraEquivId = t.extraEquivId) ∧
        (t.extraObjType = objectTypeFile → t'.extraFileSize = t.extraFileSize)
    else t'.extraAvailable = 0 ∧ t'.nBytes = t.nBytes

/-- The numbers fit next to the flags. -/
def Fits (t : YaffsExtTags) : Prop :=
  t.seqNumber ≠ 0xffffffff#32 ∧
    if checkTagsExtraPackable t then
      t.objId.toNat < 2 ^ 28 ∧ t.extraParentId.toNat < 2 ^ 28 ∧ t.extraObjType.toNat < 2 ^ 4
    else t.chunkId.toNat < 2 ^ 31

instance (t : YaffsExtTags) : Decidable (Fits t) := by unfold Fits; infer_instance

theorem getLsbD_mask (x : BitVec 32) {i : ℕ} (hi : i < 32) :
    (x &&& ~~~allExtraFlags).getLsbD i = (x.getLsbD i && decide (i < 28)) := by
  have h : ∀ i : Fin 32, (~~~allExtraFlags).getLsbD i = decide (i.val < 28) := by decide
  rw [BitVec.getLsbD_and, h ⟨i, hi⟩]

theorem mask_eq_iff (x : BitVec 32) : x &&& ~~~allExtraFlags = x ↔ x.toNat < 2 ^ 28 := by
  have hmask : (~~~allExtraFlags).toNat = 2 ^ 28 - 1 := by decide
  rw [← BitVec.toNat_inj, BitVec.toNat_and, hmask, Nat.and_two_pow_sub_one_eq_mod]
  constructor
  · intro h
    rw [← h]
    exact Nat.mod_lt _ (by decide)
  · exact Nat.mod_eq_of_lt

theorem and_flag_ne_zero (x : BitVec 32) (k : ℕ) (hk : k < 32) :
    x &&& BitVec.twoPow 32 k ≠ 0 ↔ x.getLsbD k = true := by
  constructor
  · intro h
    by_contra hbit
    rw [Bool.not_eq_true] at hbit
    apply h
    apply BitVec.eq_of_getLsbD_eq
    intro i hi
    rw [BitVec.getLsbD_and, BitVec.getLsbD_twoPow]
    by_cases hik : k = i
    · rw [← hik, hbit, Bool.false_and]
      exact BitVec.getLsbD_zero.symm
    · rw [decide_eq_false hik, Bool.and_false, Bool.and_false]
      exact BitVec.getLsbD_zero.symm
  · intro h hzero
    have hbit := congrArg (fun y => BitVec.getLsbD y k) hzero
    simp only [BitVec.getLsbD_and, BitVec.getLsbD_twoPow, h, decide_eq_true hk, Bool.and_self,
      decide_true] at hbit
    exact Bool.noConfusion (hbit.trans BitVec.getLsbD_zero)

/-! ## The fields of a packed header -/

section

variable (t : YaffsExtTags)

/-- The chunk number of a packed header. -/
def packedChunkId : BitVec 32 :=
  extraHeaderInfoFlag ||| t.extraParentId ||| (if t.extraIsShrink ≠ 0 then extraShrinkFlag else 0)
    ||| (if t.extraShadows ≠ 0 then extraShadowsFlag else 0)

/-- The object number of a packed header. -/
def packedObjId : BitVec 32 :=
  t.objId &&& ~~~allExtraFlags ||| t.extraObjType <<< extraObjectTypeShift

/-- A flag that is put in under a condition. -/
theorem getLsbD_if {flag : BitVec 32} {i k : ℕ} (p : Prop) [Decidable p]
    (hflag : flag.getLsbD i = decide (i = k)) :
    (if p then flag else 0).getLsbD i = decide (i = k ∧ p) := by
  by_cases hp : p
  · rw [if_pos hp, hflag]
    exact decide_eq_decide.2 (and_iff_left hp).symm
  · rw [if_neg hp, decide_eq_false fun h => hp h.2]
    exact BitVec.getLsbD_zero

/-- The bits of the chunk number: the flags are above those of the parent. -/
theorem getLsbD_packedChunkId {i : ℕ} (hi : i < 32) :
    (packedChunkId t).getLsbD i = (decide (i = 31) || t.extraParentId.getLsbD i ||
      decide (i = 30 ∧ t.extraIsShrink ≠ 0) || decide (i = 29 ∧ t.extraShadows ≠ 0)) := by
  have hheader : ∀ i : Fin 32, extraHeaderInfoFlag.getLsbD i = decide (i.val = 31) := by decide
  have hshrink : ∀ i : Fin 32, extraShrinkFlag.getLsbD i = decide (i.val = 30) := by decide
  have hshadows : ∀ i : Fin 32, extraShadowsFlag.getLsbD i = decide (i.val = 29) := by decide
  rw [packedChunkId, BitVec.getLsbD_or, BitVec.getLsbD_or, BitVec.getLsbD_or, hheader ⟨i, hi⟩,
    getLsbD_if _ (hshrink ⟨i, hi⟩), getLsbD_if _ (hshadows ⟨i, hi⟩)]

theorem packedChunkId_masked : packedChunkId t &&& ~~~allExtraFlags = t.extraParentId &&& ~~~allExtraFlags := by
  apply BitVec.eq_of_getLsbD_eq
  intro i hi
  rw [getLsbD_mask _ hi, getLsbD_mask _ hi, getLsbD_packedChunkId t hi]
  by_cases hlow : i < 28
  · rw [decide_eq_false (show ¬ i = 31 by omega), decide_eq_false (show ¬ (i = 30 ∧ _) by omega),
      decide_eq_false (show ¬ (i = 29 ∧ _) by omega), Bool.false_or, Bool.or_false, Bool.or_false]
  · rw [decide_eq_false hlow, Bool.and_false, Bool.and_false]

theorem packedObjId_masked : packedObjId t &&& ~~~allExtraFlags = t.objId &&& ~~~allExtraFlags := by
  apply BitVec.eq_of_getLsbD_eq
  intro i hi
  rw [getLsbD_mask _ hi, getLsbD_mask _ hi, packedObjId, BitVec.getLsbD_or, getLsbD_mask _ hi,
    BitVec.getLsbD_shiftLeft]
  by_cases hlow : i < 28
  · rw [decide_eq_true (show i < extraObjectTypeShift from hlow)]
    simp
  · rw [decide_eq_false hlow, Bool.and_false, Bool.and_false]

/-- Four bits of the type are kept. -/
theorem packedObjId_shifted :
    packedObjId t >>> extraObjectTypeShift = t.extraObjType ↔ t.extraObjType.toNat < 2 ^ 4 := by
  have hbits : ∀ i < 32, (packedObjId t >>> extraObjectTypeShift).getLsbD i =
      (decide (i < 4) && t.extraObjType.getLsbD i) := by
    intro i hi
    rw [BitVec.getLsbD_ushiftRight]
    by_cases hlow : i < 4
    · have hlt : extraObjectTypeShift + i < 32 := by unfold extraObjectTypeShift; omega
      have hmask : ¬ extraObjectTypeShift + i < 28 := by unfold extraObjectTypeShift; omega
      rw [packedObjId, BitVec.getLsbD_or, getLsbD_mask _ hlt, BitVec.getLsbD_shiftLeft,
        decide_eq_false hmask, decide_eq_true hlt, decide_eq_true hlow,
        decide_eq_false (show ¬ extraObjectTypeShift + i < extraObjectTypeShift by omega),
        Nat.add_sub_cancel_left, Bool.and_false, Bool.false_or]
      rfl
    · rw [decide_eq_false hlow, Bool.false_and]
      exact BitVec.getLsbD_of_ge _ _ (by unfold extraObjectTypeShift; omega)
  constructor
  · intro h
    apply Nat.lt_pow_two_of_testBit
    intro i hi
    by_cases hlt : i < 32
    · have hbit := hbits i hlt
      rw [h, decide_eq_false (by omega), Bool.false_and] at hbit
      exact hbit
    · exact BitVec.getLsbD_of_ge _ _ (by omega)
  · intro h
    apply BitVec.eq_of_getLsbD_eq
    intro i hi
    rw [hbits i hi]
    by_cases hlow : i < 4
    · rw [decide_eq_true hlow, Bool.true_and]
    · rw [decide_eq_false hlow, Bool.false_and]
      have hpow : 2 ^ 4 ≤ 2 ^ i := Nat.pow_le_pow_right (by decide) (by omega)
      exact (Nat.testBit_lt_two_pow (lt_of_lt_of_le h hpow)).symm

/-- The length of a packable file is not negative and fits 31 bits. -/
theorem extraFileSize_kept (hpackable : checkTagsExtraPackable t = true)
    (hfile : t.extraObjType = objectTypeFile) :
    (t.extraFileSize.setWidth 32).setWidth 64 = t.extraFileSize := by
  unfold checkTagsExtraPackable at hpackable
  have hshift : t.extraFileSize.sshiftRight 31 = 0 := by
    by_contra hne
    rw [if_pos (show t.extraObjType = objectTypeFile ∧ _ from ⟨hfile, hne⟩)] at hpackable
    split at hpackable <;> exact Bool.noConfusion hpackable
  apply BitVec.eq_of_getLsbD_eq
  intro i hi
  rw [BitVec.getLsbD_setWidth, BitVec.getLsbD_setWidth, decide_eq_true hi, Bool.true_and]
  by_cases hlow : i < 32
  · rw [decide_eq_true hlow, Bool.true_and]
  · -- the upper bits are those that are shifted down
    have hbit := congrArg (fun y => BitVec.getLsbD y (i - 31)) hshift
    simp only [BitVec.getLsbD_sshiftRight] at hbit
    rw [decide_eq_false hlow, Bool.false_and]
    rw [show 31 + (i - 31) = i by omega, if_pos hi, decide_eq_false (show ¬ 64 ≤ i - 31 by omega)] at hbit
    simpa using hbit.symm

theorem chunkId_of_packable (h : checkTagsExtraPackable t = true) : t.chunkId = 0 := by
  unfold checkTagsExtraPackable at h
  by_contra hne
  rw [if_pos (Or.inl hne)] at h
  exact Bool.noConfusion h

/-- The flags that are read from a packed header. -/
theorem packedChunkId_flag {flag : BitVec 32} {k : ℕ} (hflag : flag = BitVec.twoPow 32 k) (hk : k < 32) :
    packedChunkId t &&& flag ≠ 0 ↔ k = 31 ∨ t.extraParentId.getLsbD k = true ∨
      (k = 30 ∧ t.extraIsShrink ≠ 0) ∨ (k = 29 ∧ t.extraShadows ≠ 0) := by
  rw [hflag, and_flag_ne_zero _ k hk, getLsbD_packedChunkId t hk]
  simp only [Bool.or_eq_true, decide_eq_true_eq, or_assoc]

theorem if_one_ne_zero (p : Prop) [Decidable p] : (if p then (1 : BitVec 32) else 0) ≠ 0 ↔ p := by
  by_cases hp : p
  · rw [if_pos hp]
    exact iff_of_true (by decide) hp
  · rw [if_neg hp]
    exact iff_of_false (fun h => h rfl) hp

/-! ## The round trip -/

theorem keeps_header_iff (h : checkTagsExtraPackable t = true) : Keeps t (unpack (pack t)) ↔ Fits t := by
  have hchunk := chunkId_of_packable t h
  by_cases hseq : t.seqNumber = 0xffffffff#32
  · -- the tags of an erased chunk
    refine ⟨?_, fun hfits => absurd hseq hfits.1⟩
    intro hkeeps
    have hused := hkeeps.1
    rw [pack, if_pos h, unpack, if_pos hseq] at hused
    exact absurd hused (by decide)
  have hheader : packedChunkId t &&& extraHeaderInfoFlag ≠ 0 :=
    (@packedChunkId_flag t extraHeaderInfoFlag 31 (by decide) (by decide)).2 (Or.inl rfl)
  have hunpack : unpack (pack t) = { YaffsExtTags.zero with
      chunkUsed := 1, seqNumber := t.seqNumber, extraAvailable := 1
      objId := packedObjId t &&& ~~~allExtraFlags
      extraParentId := packedChunkId t &&& ~~~allExtraFlags
      extraIsShrink := if packedChunkId t &&& extraShrinkFlag ≠ 0 then 1 else 0
      extraShadows := if packedChunkId t &&& extraShadowsFlag ≠ 0 then 1 else 0
      extraObjType := packedObjId t >>> extraObjectTypeShift
      extraEquivId := if packedObjId t >>> extraObjectTypeShift = objectTypeHardlink then (pack t).nBytes else 0
      extraFileSize := if packedObjId t >>> extraObjectTypeShift = objectTypeHardlink then 0
        else (pack t).nBytes.setWidth 64 } := by
    have hpack : pack t = ⟨t.seqNumber, packedObjId t, packedChunkId t, (pack t).nBytes⟩ := by
      rw [pack, if_pos h]
      rfl
    rw [hpack, unpack, if_neg hseq]
    dsimp only
    rw [if_pos hheader]
    rfl
  unfold Keeps Fits
  rw [hunpack, if_pos h, if_pos h]
  dsimp only
  rw [packedObjId_masked, mask_eq_iff, packedChunkId_masked, mask_eq_iff, packedObjId_shifted]
  constructor
  · rintro ⟨-, -, hobj, -, -, hparent, -, -, htype, -⟩
    exact ⟨hseq, hobj, hparent, htype⟩
  · rintro ⟨-, hobj, hparent, htype⟩
    -- the bits of the flags are not bits of the parent
    have hbit : ∀ k, 28 ≤ k → t.extraParentId.getLsbD k = false := by
      intro k hk
      have hpow : 2 ^ 28 ≤ 2 ^ k := Nat.pow_le_pow_right (by decide) hk
      exact Nat.testBit_lt_two_pow (lt_of_lt_of_le hparent hpow)
    have hshrink := @packedChunkId_flag t extraShrinkFlag 30 (by decide) (by decide)
    have hshadows := @packedChunkId_flag t extraShadowsFlag 29 (by decide) (by decide)
    rw [hbit 30 (by decide)] at hshrink
    rw [hbit 29 (by decide)] at hshadows
    have hkind := (packedObjId_shifted t).2 htype
    refine ⟨rfl, rfl, hobj, hchunk.symm, rfl, hparent, ?_, ?_, htype, ?_, ?_⟩
    · rw [if_one_ne_zero, hshrink]
      simp
    · rw [if_one_ne_zero, hshadows]
      simp
    · intro hlink
      rw [hkind, if_pos hlink, pack, if_pos h]
      exact if_pos hlink
    · intro hfile
      have hnot : t.extraObjType ≠ objectTypeHardlink := by rw [hfile]; decide
      rw [hkind, if_neg hnot, pack, if_pos h]
      dsimp only
      rw [if_neg hnot, if_pos hfile]
      exact extraFileSize_kept t h hfile

theorem keeps_data_iff (h : checkTagsExtraPackable t = false) : Keeps t (unpack (pack t)) ↔ Fits t := by
  have hpack : pack t = ⟨t.seqNumber, t.objId, t.chunkId, t.nBytes⟩ := by
    rw [pack, if_neg (by rw [h]; exact Bool.false_ne_true)]
  have hnot : ¬ checkTagsExtraPackable t = true := by rw [h]; exact Bool.false_ne_true
  by_cases hseq : t.seqNumber = 0xffffffff#32
  · refine ⟨?_, fun hfits => absurd hseq hfits.1⟩
    intro hkeeps
    have hused := hkeeps.1
    rw [hpack, unpack, if_pos hseq] at hused
    exact absurd hused (by decide)
  have hflag : t.chunkId &&& extraHeaderInfoFlag ≠ 0 ↔ ¬ t.chunkId.toNat < 2 ^ 31 := by
    rw [show extraHeaderInfoFlag = BitVec.twoPow 32 31 by decide, and_flag_ne_zero _ 31 (by decide)]
    have hlt := t.chunkId.isLt
    rw [← BitVec.msb_eq_getLsbD_last, BitVec.msb_eq_decide, decide_eq_true_eq, not_lt]
  unfold Keeps Fits
  rw [hpack, if_neg hnot, if_neg hnot, unpack, if_neg hseq]
  dsimp only
  by_cases hheader : t.chunkId &&& extraHeaderInfoFlag ≠ 0
  · -- the chunk is taken for a header
    rw [if_pos hheader]
    refine iff_of_false ?_ fun hfits => hflag.1 hheader hfits.2
    rintro ⟨-, -, -, -, havailable, -⟩
    exact absurd (show (1 : BitVec 32) = 0 from havailable) (by decide)
  · rw [if_neg hheader]
    exact iff_of_true ⟨rfl, rfl, rfl, rfl, rfl, rfl⟩
      ⟨hseq, not_not.1 fun hlarge => hheader (hflag.2 hlarge)⟩

theorem keeps_of_fits (hfits : Fits t) : Keeps t (unpack (pack t)) := by
  cases h : checkTagsExtraPackable t with
  | true => exact (keeps_header_iff t h).2 hfits
  | false => exact (keeps_data_iff t h).2 hfits

/-- **Tags are kept** if and only if their numbers fit next to the flags. -/
theorem tags_kept_iff : Keeps t (unpack (pack t)) ↔ Fits t := by
  refine ⟨?_, keeps_of_fits t⟩
  intro hkeeps
  cases h : checkTagsExtraPackable t with
  | true => exact (keeps_header_iff t h).1 hkeeps
  | false => exact (keeps_data_iff t h).1 hkeeps

theorem ofBytes_append (ptt : YaffsPackedTags) (rest : List Byte) : ofBytes (bytes ptt ++ rest) = ptt := by
  have hword : ∀ x : BitVec 32, loadWord (x.extractLsb' 0 8) (x.extractLsb' 8 8) (x.extractLsb' 16 8)
      (x.extractLsb' 24 8) = x := loadWord_storeWord
  obtain ⟨seqNumber, objId, chunkId, nBytes⟩ := ptt
  simp only [ofBytes, bytes, storeWord, wordAt, List.cons_append, List.nil_append, List.getD_cons_succ,
    List.getD_cons_zero, hword, Nat.reduceMul, Nat.reduceAdd]

@[simp] theorem length_bytes (ptt : YaffsPackedTags) : (bytes ptt).length = 16 := rfl

end

end PWSat2OBC.PackedTags

namespace PWSat2OBC.N25QYaffsDevice

open N25Q RedundantN25Q Runs PackedTags

variable {dev : N25QYaffsDevice}

theorem packedTagsSize_lt : packedTagsSize < dev.chunkSize := by
  have hle := Nat.le_of_dvd dev.chunkSize_pos dev.pages
  simp only [pageSize, packedTagsSize] at hle ⊢
  omega

theorem dataBytesPerChunk_add : dev.dataBytesPerChunk + packedTagsSize = dev.chunkSize :=
  Nat.sub_add_cancel (Nat.le_of_lt packedTagsSize_lt)

/-- The buffer of a whole chunk consists of data and tags. -/
theorem stuffed_eq {data : List Byte} (hdata : data.length = dev.chunkSize) (tags : YaffsExtTags) :
    dev.stuffed data tags = data.take dev.dataBytesPerChunk ++ bytes (pack tags) := by
  rw [stuffed, dataBytesPerChunk_add, ← hdata, List.drop_length, List.append_nil]

theorem length_stuffed {data : List Byte} (hdata : data.length = dev.chunkSize) (tags : YaffsExtTags) :
    (dev.stuffed data tags).length = dev.chunkSize := by
  have hle : dev.dataBytesPerChunk ≤ dev.chunkSize := Nat.sub_le _ _
  rw [stuffed_eq hdata, List.length_append, List.length_take, hdata, length_bytes, Nat.min_eq_left hle]
  exact dataBytesPerChunk_add

/-- `tagsMarshallWrite` as an event of a run: a write of the buffer with the tags in it. -/
theorem step_tagsMarshallWrite (s : N25QYaffsState) (answers : ℕ → Fin 3 → PageAnswer) (c : BitVec 32)
    (data : List Byte) (tags : YaffsExtTags) :
    dev.step s (.writeChunk c (dev.stuffed data tags) 0 answers) =
      some ⟨(dev.tagsMarshallWrite answers c data tags s.chips).2,
        s.results ++ [(dev.tagsMarshallWrite answers c data tags s.chips).1]⟩ := rfl

/-- An event neither writes a chunk nor erases its block. -/
def Spares (dev : N25QYaffsDevice) (c : ℕ) (e : N25QYaffsEvent) : Prop :=
  ∀ op ∈ operation e, ¬ BlockStore.Touches dev.chunksPerBlock c op

/-- The chunk of the abstract flash that was written once since its block was erased. -/
theorem flash_written {store : BlockStore.Store 8} {pre mid post : List N25QYaffsEvent}
    {b c : BitVec 32} {data : List Byte} {oobLen : ℤ} {answers : Fin 3 → PageAnswer}
    {answers' : ℕ → Fin 3 → PageAnswer} (hblock : b.toNat = c.toNat / dev.chunksPerBlock)
    (hmid : ∀ e ∈ mid, Spares dev c.toNat e) (hpost : ∀ e ∈ post, Spares dev c.toNat e) (i : ℕ) :
    dev.flash store (pre ++ .eraseBlock b answers :: (mid ++ .writeChunk c data oobLen answers' :: post))
      c.toNat i = data.getD i (BitVec.allOnes 8) := by
  have hspares : ∀ es : List N25QYaffsEvent, (∀ e ∈ es, Spares dev c.toNat e) →
      ∀ op ∈ es.filterMap operation, ¬ BlockStore.Touches dev.chunksPerBlock c.toNat op := by
    intro es hes op hop
    obtain ⟨e, he, heq⟩ := List.mem_filterMap.1 hop
    exact hes e he op heq
  unfold flash
  rw [List.filterMap_append,
    @List.filterMap_cons_some _ _ operation _ _ (.erase b.toNat) rfl, List.filterMap_append,
    @List.filterMap_cons_some _ _ operation _ _ (.write c.toNat data) rfl, hblock]
  exact BlockStore.run_written (hspares mid hmid) (hspares post hpost) i

variable {bad : Fin 3} {s₀ s : N25QYaffsState} {store : BlockStore.Store 8}

/-- **Data and tags are read back**, when they were written once since the block was erased,
whatever happens to other chunks and to one of the chips. -/
theorem reads_tagged_chunk (h0 : ∀ i ≠ bad, dev.Holds (s₀.chips.memory i) store) (hnone : s₀.results = [])
    {pre mid post : List N25QYaffsEvent} {b c : BitVec 32} {data : List Byte} {tags : YaffsExtTags}
    {answers : Fin 3 → PageAnswer} {answers' : ℕ → Fin 3 → PageAnswer}
    (h : Run dev.step (dev.Served bad) s₀ (pre ++ .eraseBlock b answers ::
      (mid ++ .writeChunk c (dev.stuffed data tags) 0 answers' :: post)) s)
    (hblock : b.toNat = c.toNat / dev.chunksPerBlock) (hc : c.toNat < dev.chunkCount)
    (hdata : data.length = dev.chunkSize) (htags : Fits tags)
    (hmid : ∀ e ∈ mid, Spares dev c.toNat e) (hpost : ∀ e ∈ post, Spares dev c.toNat e)
    {attempts : Fin 3 → ℕ → ReadAttempt} (hread : ∀ i, Readable (attempts i)) {buffer : Span}
    (hbuffer : buffer.length = dev.chunkSize) (haligned : buffer.addr % 4 = 0) :
    ∃ data' tags', dev.tagsMarshallRead ⟨s.chips.memory, attempts⟩ c buffer = some (.ok, data', tags') ∧
      data'.take dev.dataBytesPerChunk = data.take dev.dataBytesPerChunk ∧ Keeps tags tags' := by
  have hwords : buffer.length % 4 = 0 := by
    rw [hbuffer]
    exact Nat.mod_eq_zero_of_dvd ((by decide : 4 ∣ pageSize).trans dev.pages)
  obtain ⟨hmemory, -⟩ := refines_run h0 hnone h
  obtain ⟨-, hecc, hbytes⟩ := @readChunk_holds dev _ bad ⟨s.chips.memory, attempts⟩ hmemory hread c hc buffer
    hbuffer.le hwords haligned 0 le_rfl
  have hlength := length_stuffed hdata tags
  -- the chunk that is read is the buffer that was written
  have hstuffed : (List.range buffer.length).map (dev.flash store (pre ++ .eraseBlock b answers ::
      (mid ++ .writeChunk c (dev.stuffed data tags) 0 answers' :: post)) c.toNat) = dev.stuffed data tags := by
    apply List.ext_getElem
    · rw [List.length_map, List.length_range, hbuffer, hlength]
    · intro i h1 h2
      rw [List.getElem_map, List.getElem_range, flash_written hblock hmid hpost,
        List.getD_eq_getElem?_getD, List.getElem?_eq_getElem h2, Option.getD_some]
  rw [hstuffed, stuffed_eq hdata] at hbytes
  have htake : (data.take dev.dataBytesPerChunk).length = dev.dataBytesPerChunk := by
    rw [List.length_take, hdata]
    exact Nat.min_eq_left (Nat.sub_le _ _)
  refine ⟨data.take dev.dataBytesPerChunk ++ bytes (pack tags), unpack (pack tags), ?_, ?_,
    keeps_of_fits tags htags⟩
  · unfold tagsMarshallRead
    dsimp only
    rw [hecc, hbytes, List.drop_append_of_le_length htake.ge, List.drop_of_length_le htake.le,
      List.nil_append]
    have hof := ofBytes_append (pack tags) []
    rw [List.append_nil] at hof
    rw [hof]
  · rw [List.take_append_of_le_length htake.ge, List.take_of_length_le htake.le]

/-- The header of a directory in the chunk 70, while the first chip does what it wants. -/
theorem reads_tagged_chunk_example :
    let tags := { YaffsExtTags.zero with
      chunkUsed := 1, objId := 257, seqNumber := 0x1001, extraAvailable := 1, extraParentId := 1
      extraObjType := 3 }
    ∃ s data' tags', n25qStorage.tagsMarshallRead ⟨s, fun _ _ => ⟨.success, .success, []⟩⟩ 70
        ⟨0, List.replicate 2048 0⟩ = some (.ok, data', tags') ∧
      data'.take 2032 = List.replicate 2032 5 ∧ Keeps tags tags' := by
  intro tags
  let obeys (i : Fin 3) : PageAnswer := if i = 0 then ⟨.failure, some fun _ => 9⟩ else ⟨.success, none⟩
  have hobeys : ∀ i ≠ 0, Obeys (obeys i) := by
    intro i hi
    simp only [obeys, if_neg hi]
    exact ⟨rfl, rfl⟩
  have hdata : (List.replicate 2048 (5 : Byte)).length = n25qStorage.chunkSize := by
    rw [List.length_replicate]
    rfl
  have hcount : n25qStorage.chunkCount = 8192 := by decide
  have hblocks : n25qStorage.blocks = 256 := by decide
  have hwrite : ∀ s c data, data.length = n25qStorage.chunkSize → c.toNat < 8192 →
      n25qStorage.Served 0 s (.writeChunk c data 0 fun _ => obeys) := by
    intro s c data hlength hc
    exact ⟨by rw [hcount]; exact hc, hlength.le, le_rfl, fun i hi _ => hobeys i hi⟩
  obtain ⟨s, hrun⟩ := @exists_run n25qStorage 0 ⟨⟨fun _ _ => 0, []⟩, []⟩
    ([.upset 0 fun _ => 7] ++ .eraseBlock 2 obeys ::
      ([.writeChunk 69 (List.replicate 2048 6) 0 fun _ => obeys] ++
        .writeChunk 70 (n25qStorage.stuffed (List.replicate 2048 5) tags) 0 (fun _ => obeys) ::
          [.eraseBlock 3 obeys])) (by
    intro s e he
    simp only [List.singleton_append, List.mem_cons, List.not_mem_nil, or_false] at he
    rcases he with rfl | rfl | rfl | rfl | rfl
    · rfl
    · exact ⟨by rw [hblocks]; decide, hobeys⟩
    · exact hwrite s 69 _ (by rw [List.length_replicate]; rfl) (by decide)
    · exact hwrite s 70 _ (length_stuffed hdata tags) (by decide)
    · exact ⟨by rw [hblocks]; decide, hobeys⟩)
  have hspares : ∀ e : N25QYaffsEvent, ∀ op, operation e = some op →
      ¬ BlockStore.Touches n25qStorage.chunksPerBlock 70 op → Spares n25qStorage 70 e := by
    intro e op hop hnot op' hop'
    rw [hop, Option.mem_some_iff] at hop'
    rwa [← hop']
  have hperBlock : n25qStorage.chunksPerBlock = 32 := by decide
  obtain ⟨data', tags', hread, hsame, hkeeps⟩ := @reads_tagged_chunk n25qStorage 0 _ s (fun _ _ => 0)
    (fun _ _ _ _ _ _ => rfl) rfl _ _ _ 2 70 (List.replicate 2048 5) tags obeys (fun _ => obeys) hrun
    (by rw [hperBlock]; decide) (by rw [hcount]; decide) hdata (by decide)
    (by
      intro e he
      rw [List.mem_singleton] at he
      subst he
      exact hspares _ _ rfl (by rw [hperBlock]; simp [BlockStore.Touches]))
    (by
      intro e he
      rw [List.mem_singleton] at he
      subst he
      exact hspares _ _ rfl (by rw [hperBlock]; simp [BlockStore.Touches]))
    (fun _ _ => ⟨.success, .success, []⟩) (fun _ => ⟨0, by decide, rfl, rfl⟩) ⟨0, List.replicate 2048 0⟩
    (by rw [Span.length, List.length_replicate]; rfl) (by decide)
  refine ⟨s.chips.memory, data', tags', hread, ?_, hkeeps⟩
  rw [show n25qStorage.dataBytesPerChunk = 2032 from rfl, List.take_replicate] at hsame
  exact hsame

end PWSat2OBC.N25QYaffsDevice
