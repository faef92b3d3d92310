import PWSat2OBC.Spec.N25QYaffs

/-!
# Tags inside of chunks (`libs/external/yaffs/src/yaffs_packedtags2.c`,
`libs/external/yaffs/src/yaffs_tagsmarshall.c`)

The flash of the device has no spare bytes, so the file system packs the tags of a chunk into
16 bytes and puts them behind the data. The header of an object has its parent, type and size
packed into the fields it does not need.

Left out: tags with an ECC in spare bytes, which this device does not use, and the trace.
-/

namespace PWSat2OBC

open N25Q RedundantN25Q

/-- `struct yaffs_ext_tags`. The object type is the number of the `enum`. -/
structure YaffsExtTags where
  chunkUsed : BitVec 32
  objId : BitVec 32
  chunkId : BitVec 32
  nBytes : BitVec 32
  eccResult : YaffsEccResult
  blockBad : BitVec 32
  isDeleted : BitVec 32
  serialNumber : BitVec 32
  seqNumber : BitVec 32
  extraAvailable : BitVec 32
  extraParentId : BitVec 32
  extraIsShrink : BitVec 32
  extraShadows : BitVec 32
  extraObjType : BitVec 32
  extraFileSize : BitVec 64
  extraEquivId : BitVec 32
deriving DecidableEq, Repr

/-- `struct yaffs_packed_tags2_tags_only`. -/
structure YaffsPackedTags where
  seqNumber : BitVec 32
  objId : BitVec 32
  chunkId : BitVec 32
  nBytes : BitVec 32
deriving DecidableEq, Repr

/-- `memset(t, 0, sizeof(struct yaffs_ext_tags))`. -/
def YaffsExtTags.zero : YaffsExtTags := ⟨0, 0, 0, 0, .unknown, 0, 0, 0, 0, 0, 0, 0, 0, 0, 0, 0⟩

namespace PackedTags

/-- `YAFFS_OBJECT_TYPE_FILE`. -/
def objectTypeFile : BitVec 32 := 1

/-- `YAFFS_OBJECT_TYPE_HARDLINK`. -/
def objectTypeHardlink : BitVec 32 := 4

/-- `EXTRA_HEADER_INFO_FLAG`. -/
def extraHeaderInfoFlag : BitVec 32 := 0x80000000#32

/-- `EXTRA_SHRINK_FLAG`. -/
def extraShrinkFlag : BitVec 32 := 0x40000000#32

/-- `EXTRA_SHADOWS_FLAG`. -/
def extraShadowsFlag : BitVec 32 := 0x20000000#32

/-- `ALL_EXTRA_FLAGS`, which are the bits of `EXTRA_OBJECT_TYPE_MASK` too. -/
def allExtraFlags : BitVec 32 := 0xf0000000#32

/-- `EXTRA_OBJECT_TYPE_SHIFT`. -/
def extraObjectTypeShift : ℕ := 28

/-- `yaffs_check_tags_extra_packable`. -/
def checkTagsExtraPackable (t : YaffsExtTags) : Bool :=
  if t.chunkId ≠ 0 ∨ t.extraAvailable = 0 then false
  else if t.extraObjType = objectTypeFile ∧ t.extraFileSize.sshiftRight 31 ≠ 0 then false
  else true

/-- `yaffs_pack_tags2_tags_only`. -/
def pack (t : YaffsExtTags) : YaffsPackedTags :=
  if checkTagsExtraPackable t then
    { seqNumber := t.seqNumber
      chunkId := extraHeaderInfoFlag ||| t.extraParentId
        ||| (if t.extraIsShrink ≠ 0 then extraShrinkFlag else 0)
        ||| (if t.extraShadows ≠ 0 then extraShadowsFlag else 0)
      objId := t.objId &&& ~~~allExtraFlags ||| t.extraObjType <<< extraObjectTypeShift
      nBytes :=
        if t.extraObjType = objectTypeHardlink then t.extraEquivId
        else if t.extraObjType = objectTypeFile then t.extraFileSize.setWidth 32 else 0 }
  else ⟨t.seqNumber, t.objId, t.chunkId, t.nBytes⟩

/-- `yaffs_unpack_tags2_tags_only`. -/
def unpack (ptt : YaffsPackedTags) : YaffsExtTags :=
  if ptt.seqNumber = 0xffffffff#32 then .zero
  else
    let t := { YaffsExtTags.zero with
      chunkUsed := 1, objId := ptt.objId, chunkId := ptt.chunkId, nBytes := ptt.nBytes
      seqNumber := ptt.seqNumber }
    if ptt.chunkId &&& extraHeaderInfoFlag ≠ 0 then
      let extraObjType := ptt.objId >>> extraObjectTypeShift
      { t with
        chunkId := 0, nBytes := 0, extraAvailable := 1
        extraParentId := ptt.chunkId &&& ~~~allExtraFlags
        extraIsShrink := if ptt.chunkId &&& extraShrinkFlag ≠ 0 then 1 else 0
        extraShadows := if ptt.chunkId &&& extraShadowsFlag ≠ 0 then 1 else 0
        extraObjType := extraObjType
        objId := ptt.objId &&& ~~~allExtraFlags
        extraEquivId := if extraObjType = objectTypeHardlink then ptt.nBytes else 0
        extraFileSize := if extraObjType = objectTypeHardlink then 0 else ptt.nBytes.setWidth 64 }
    else t

/-- The packed tags in memory. -/
def bytes (ptt : YaffsPackedTags) : List Byte :=
  Redundancy.storeWord ptt.seqNumber ++ Redundancy.storeWord ptt.objId ++
    Redundancy.storeWord ptt.chunkId ++ Redundancy.storeWord ptt.nBytes

/-- The packed tags at the start of some memory. -/
def ofBytes (memory : List Byte) : YaffsPackedTags :=
  ⟨Redundancy.wordAt memory 0, Redundancy.wordAt memory 1, Redundancy.wordAt memory 2,
    Redundancy.wordAt memory 3⟩

end PackedTags

namespace N25QYaffsDevice

open PackedTags

variable (dev : N25QYaffsDevice)

/-- `sizeof(struct yaffs_packed_tags2_tags_only)`. -/
def packedTagsSize : ℕ := 16

/-- `data_bytes_per_chunk`, as `yaffs_guts_ll_init` sets it. -/
def dataBytesPerChunk : ℕ := dev.chunkSize - packedTagsSize

/-- The buffer of a chunk as `yaffs_tags_marshall_write` hands it to the driver: the tags overwrite
what is behind the data. -/
def stuffed (data : List Byte) (tags : YaffsExtTags) : List Byte :=
  data.take dev.dataBytesPerChunk ++ bytes (pack tags) ++ data.drop (dev.dataBytesPerChunk + packedTagsSize)

/-- `yaffs_tags_marshall_write` on a buffer for a whole chunk. -/
def tagsMarshallWrite (answers : ℕ → Fin 3 → PageAnswer) (nandChunk : BitVec 32) (data : List Byte)
    (tags : YaffsExtTags) (chips : Chips) : YaffsResult × Chips :=
  dev.writeChunk answers nandChunk (dev.stuffed data tags) 0 chips

/-- `yaffs_tags_marshall_read` into a buffer for a whole chunk, its own one or a temporary one: the
result, the buffer and the tags; `none` where the ECC result is read before it is set. -/
def tagsMarshallRead (chips : ReadChips) (nandChunk : BitVec 32) (data : Span) :
    Option (YaffsResult × List Byte × YaffsExtTags) :=
  let outcome := dev.readChunk chips nandChunk data 0
  let tags := unpack (ofBytes (outcome.data.drop dev.dataBytesPerChunk))
  match outcome.eccResult with
  | none => none
  | some .unfixed => some (.fail, outcome.data, { tags with eccResult := .unfixed })
  -- a corrected chunk is not told apart: it is compared with `-YAFFS_ECC_RESULT_FIXED`
  | some _ => some (.ok, outcome.data, tags)

end N25QYaffsDevice

end PWSat2OBC
