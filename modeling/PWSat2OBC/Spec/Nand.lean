import PWSat2OBC.Lib.Chunks

/-!
# NAND operations page by page (`libs/storage/nand_calculator.cpp`)

An operation writes or reads a data buffer and a spare buffer of their own sizes from an
offset on. It is done slice by slice, one page each; a slice points into the buffers of the
operation. All arithmetic is in 32 bits; the products of a page number and a page size are
below `2^32`, and their low 32 bits are what the target keeps of them.
-/

namespace PWSat2OBC

/-- `NANDGeometry`. A page and its spare area are not empty. -/
structure NandGeometry where
  pageSize : BitVec 16
  spareAreaPerPage : BitVec 8
  pageSize_pos : 0 < pageSize.toNat
  spareAreaPerPage_pos : 0 < spareAreaPerPage.toNat

/-- `NANDOperation`. -/
structure NandOperation where
  offset : BitVec 32
  dataSize : BitVec 32
  spareSize : BitVec 32

/-- `NANDOperationSlice`; a buffer is where it starts in that of the operation, `none` for
the null pointer. -/
structure NandOperationSlice where
  offset : BitVec 32
  dataBuffer : Option (BitVec 32)
  dataSize : BitVec 32
  spareBuffer : Option (BitVec 32)
  spareSize : BitVec 32
deriving DecidableEq, Repr

namespace Nand

/-- The pages for a buffer of `size` with `unit` of it on each page. -/
def pagesFor (size unit : BitVec 32) : BitVec 32 :=
  let pages := size / unit
  if unit * pages < size then pages + 1 else pages

/-- `NANDAffectedPagesCount`. -/
def affectedPagesCount (geometry : NandGeometry) (operation : NandOperation) : BitVec 16 :=
  let dataPages := pagesFor operation.dataSize (geometry.pageSize.setWidth 32)
  let sparePages := pagesFor operation.spareSize (geometry.spareAreaPerPage.setWidth 32)
  if dataPages > sparePages then dataPages.setWidth 16 else sparePages.setWidth 16

/-- The part of a buffer of `size` from `offset` on: its start and its size. `remaining` is
an `int32_t`. -/
def part (size offset unit : BitVec 32) : Option (BitVec 32) × BitVec 32 :=
  let remaining := (size - offset).toInt
  if 0 < remaining then
    let partSize := size - offset
    let partSize := if partSize > unit then unit else partSize
    (some offset, partSize)
  else (none, 0)

/-- `NANDGetOperationSlice`. -/
def getOperationSlice (geometry : NandGeometry) (operation : NandOperation) (pageNo : BitVec 16) :
    NandOperationSlice :=
  let pageOffset := pageNo.setWidth 32 * geometry.pageSize.setWidth 32
  let data := part operation.dataSize pageOffset (geometry.pageSize.setWidth 32)
  let spareOffset := pageNo.setWidth 32 * geometry.spareAreaPerPage.setWidth 32
  let spare := part operation.spareSize spareOffset (geometry.spareAreaPerPage.setWidth 32)
  { offset := operation.offset + pageOffset
    dataBuffer := data.1
    dataSize := data.2
    spareBuffer := spare.1
    spareSize := spare.2 }

/-- The places of a buffer that a part covers, in order. -/
def indices (start : Option (BitVec 32)) (size : BitVec 32) : List ℕ :=
  match start with
  | none => []
  | some start => (List.range size.toNat).map (start.toNat + ·)

/-- What the pointer and the size of a part give of the buffer. -/
def contents {α : Type*} (buffer : List α) (start : Option (BitVec 32)) (size : BitVec 32) : List α :=
  match start with
  | none => []
  | some start => (buffer.drop start.toNat).take size.toNat

end Nand

end PWSat2OBC
