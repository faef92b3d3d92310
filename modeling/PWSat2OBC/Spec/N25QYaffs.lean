import PWSat2OBC.Spec.RedundantN25Q

/-!
# Yaffs device on N25Q flash (`libs/drivers/n25q/Include/n25q/yaffs.h`,
`libs/drivers/n25q/redundant_n25q.cpp`)

The file system reads and writes chunks and erases blocks of chunks. A block is a sector or a
sub-sector of the chips. Chunk and block numbers are `int`s that are multiplied by unsigned
32-bit sizes.

Left out: mounting and the range of blocks the file system is given, the log, and the callbacks
for bad blocks, which do nothing.
-/

namespace PWSat2OBC

open N25Q RedundantN25Q

/-! ## Erasing three chips -/

namespace RedundantN25Q

/-- An erase operation on a chip, up to its `Wait`. -/
def erase (answer : PageAnswer) (op : Operation) (memory : Memory) : Memory :=
  match answer.instead with
  | none => op.effect memory
  | some left => left

/-- `EraseChip`, `EraseSubSector` and `EraseSector`. An error that two chips agree on counts as a
success. -/
def eraseAll (op : Operation) (answers : Fin 3 → PageAnswer) (chips : Chips) : OperationResult × Chips :=
  let memory i := erase (answers i) op (chips.memory i)
  let result i := (answers i).result
  let reports := chips.reports ++ (List.finRange 3).map fun i =>
    N25QDriver.report (deviceId i) (result i)
  match Redundancy.voted (result 0) (result 1) (result 2) with
  | none => (.failure, ⟨memory, reports ++ [.failure redundantDeviceId]⟩)
  | some votedResult => (votedResult, ⟨memory, reports ++ [.success redundantDeviceId]⟩)

/-- `RedundantN25QDriver::EraseChip`. -/
def eraseChip : (Fin 3 → PageAnswer) → Chips → OperationResult × Chips := eraseAll .eraseChip

/-- `RedundantN25QDriver::EraseSubSector`. -/
def eraseSubSector (address : ℕ) : (Fin 3 → PageAnswer) → Chips → OperationResult × Chips :=
  eraseAll (.eraseSubSector address)

/-- `RedundantN25QDriver::EraseSector`. -/
def eraseSector (address : ℕ) : (Fin 3 → PageAnswer) → Chips → OperationResult × Chips :=
  eraseAll (.eraseSector address)

end RedundantN25Q

/-! ## The device -/

/-- `YAFFS_OK` and `YAFFS_FAIL`. -/
inductive YaffsResult
  | ok
  | fail
deriving DecidableEq, Repr

/-- `yaffs_ecc_result`. -/
inductive YaffsEccResult
  | unknown
  | noError
  | fixed
  | unfixed
deriving DecidableEq, Repr

/-- What `ReadChunk` leaves: the result, the ECC result if it is set, the data and the reports to the
error counters. -/
structure ReadChunkOutcome where
  result : YaffsResult
  eccResult : Option YaffsEccResult
  data : List Byte
  reports : List ErrorReport

/-- `BlockMapping`. -/
inductive BlockMapping
  | subSector
  | sector
deriving DecidableEq, Repr

/-- `BlockSize`. -/
def BlockMapping.blockSize : BlockMapping → ℕ
  | .subSector => 4096
  | .sector => 65536

/-- `N25QYaffsDevice`: the arguments of the template and where its buffers are. The chunks are
made of whole pages and fill the blocks, the blocks fill at most a chip. -/
structure N25QYaffsDevice where
  blockMapping : BlockMapping
  chunkSize : ℕ
  totalSize : ℕ
  redundantReadBuffer1 : ℕ
  redundantReadBuffer2 : ℕ
  chunkSize_pos : 0 < chunkSize
  pages : pageSize ∣ chunkSize
  chunks : chunkSize ∣ blockMapping.blockSize
  inChip : totalSize ≤ size
  aligned1 : redundantReadBuffer1 % 4 = 0
  aligned2 : redundantReadBuffer2 % 4 = 0

namespace N25QYaffsDevice

variable (dev : N25QYaffsDevice)

/-- `param.chunks_per_block`. -/
def chunksPerBlock : ℕ := dev.blockMapping.blockSize / dev.chunkSize

/-- The address of a chunk. -/
def chunkAddress (nandChunk : BitVec 32) : BitVec 32 := nandChunk * BitVec.ofNat 32 dev.chunkSize

/-- The address of a block. -/
def blockAddress (blockNo : BitVec 32) : BitVec 32 :=
  blockNo * BitVec.ofNat 32 dev.chunksPerBlock * BitVec.ofNat 32 dev.chunkSize

/-- `N25QYaffsDevice::ReadChunk`. The result of `ReadMemory` is not looked at, and neither is what
the redundant buffers held before. -/
def readChunk (chips : ReadChips) (nandChunk : BitVec 32) (data : Span) (oobLen : ℤ) :
    ReadChunkOutcome :=
  if oobLen > 0 then ⟨.fail, none, data.bytes, []⟩
  else if data.length > dev.chunkSize then ⟨.fail, none, data.bytes, []⟩
  else
    let redundantBuffer1 : Span := ⟨dev.redundantReadBuffer1, List.replicate data.length 0⟩
    let redundantBuffer2 : Span := ⟨dev.redundantReadBuffer2, List.replicate data.length 0⟩
    let outcome := readMemory chips (dev.chunkAddress nandChunk).toNat data redundantBuffer1 redundantBuffer2
    ⟨.ok, some .noError, outcome.outputBuffer, outcome.reports⟩

/-- `N25QYaffsDevice::WriteChunk`. Other than in `ReadChunk` the length is not looked at. -/
def writeChunk (answers : ℕ → Fin 3 → PageAnswer) (nandChunk : BitVec 32) (data : List Byte)
    (oobLen : ℤ) (chips : Chips) : YaffsResult × Chips :=
  if oobLen > 0 then (.fail, chips)
  else
    let (result, chips) := writeMemory answers (dev.chunkAddress nandChunk).toNat data chips
    (if result ≠ .success then .fail else .ok, chips)

/-- `N25QYaffsDevice::EraseBlock`. -/
def eraseBlock (answers : Fin 3 → PageAnswer) (blockNo : BitVec 32) (chips : Chips) : YaffsResult × Chips :=
  let baseAddress := (dev.blockAddress blockNo).toNat
  let (result, chips) := match dev.blockMapping with
    | .sector => eraseSector baseAddress answers chips
    | .subSector => eraseSubSector baseAddress answers chips
  (if result ≠ .success then .fail else .ok, chips)

end N25QYaffsDevice

/-! ## Runs -/

/-- What happens to the flash: the callbacks of the file system that change it, and upsets of
single chips. -/
inductive N25QYaffsEvent
  | writeChunk (nandChunk : BitVec 32) (data : List Byte) (oobLen : ℤ) (answers : ℕ → Fin 3 → PageAnswer)
  | eraseBlock (blockNo : BitVec 32) (answers : Fin 3 → PageAnswer)
  | upset (chip : Fin 3) (left : Memory)

/-- The chips, and what the callbacks have returned. -/
structure N25QYaffsState where
  chips : Chips
  results : List YaffsResult

/-- One event. -/
def N25QYaffsDevice.step (dev : N25QYaffsDevice) (s : N25QYaffsState) :
    N25QYaffsEvent → Option N25QYaffsState
  | .writeChunk nandChunk data oobLen answers =>
    let (result, chips) := dev.writeChunk answers nandChunk data oobLen s.chips
    some ⟨chips, s.results ++ [result]⟩
  | .eraseBlock blockNo answers =>
    let (result, chips) := dev.eraseBlock answers blockNo s.chips
    some ⟨chips, s.results ++ [result]⟩
  | .upset chip left =>
    some { s with chips := { s.chips with memory := Function.update s.chips.memory chip left } }

/-- The device of `N25QStorage`. -/
def N25QYaffsDevice.n25qStorage : N25QYaffsDevice where
  blockMapping := .sector
  chunkSize := 2048
  totalSize := 2 ^ 24
  redundantReadBuffer1 := 0
  redundantReadBuffer2 := 2048
  chunkSize_pos := by decide
  pages := by decide
  chunks := by decide
  inChip := by decide
  aligned1 := by decide
  aligned2 := by decide

end PWSat2OBC
