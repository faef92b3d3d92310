import PWSat2OBC.Lib.Chunks
import PWSat2OBC.Proof.Downlink
import PWSat2OBC.Proof.Reader
import PWSat2OBC.Spec.ReadMemory

/-!
# The frames of a memory dump

`seen memory`: the memory as the telecommand sees it. It is the memory, but for the byte at
address zero. A turn of the loop sends the next piece of it (`turn_spec`): address zero is read in
a different way, but takes its place in the piece like any other address. So the frames are the
pieces of the block that was asked for (`dump_spec`), and the rest is about cutting a list into
pieces.
-/

namespace PWSat2OBC

open Chunks

namespace ReadMemoryTelecommand

variable (memory : ℕ → Byte) (correlationId : Byte)

theorem toNat_stdMin (a b : BitVec 32) : (stdMin a b).toNat = min a.toNat b.toNat := by
  unfold stdMin
  split
  · rename_i h
    exact (min_eq_right (BitVec.lt_def.1 h).le).symm
  · rename_i h
    exact (min_eq_left (not_lt.1 fun hlt => h (BitVec.lt_def.2 hlt))).symm

/-- The memory with what is sent for address zero. -/
def seen (memory : ℕ → Byte) : ℕ → Byte := Function.update memory 0 (readByte0 memory)

/-- Elsewhere it is the memory. -/
theorem block_seen {o : ℕ} (ho : 0 < o) (n : ℕ) : Memory.block (seen memory) o n = Memory.block memory o n := by
  unfold Memory.block seen
  apply List.map_congr_left
  intro i _
  exact Function.update_of_ne (by omega) _ _

/-- The block from address zero on. -/
theorem block_seen_zero (n : ℕ) :
    Memory.block (seen memory) 0 (n + 1) = readByte0 memory :: Memory.block memory 1 n := by
  rw [← block_seen memory Nat.one_pos]
  unfold Memory.block
  rw [List.range_succ_eq_map, List.map_cons, List.map_map]
  congr 1
  apply List.map_congr_left
  intro i _
  rw [Function.comp_apply, Nat.zero_add, Nat.add_comm 1 i]

/-! ## Turns -/

/-- The bytes of a frame. -/
def frameOf (correlationId : Byte) (seq : BitVec 32) (data : List Byte) : List Byte :=
  (DownlinkFrame.init apid seq).header ++ correlationId :: data

/-- The bytes of a turn. -/
def partSize (s : Dump) : ℕ := min s.size.toNat CorrelatedDownlinkFrame.maxPayloadSize

/-- Where the loop stands after a turn. -/
structure GoesOn (s s' : Dump) : Prop where
  size : s'.size.toNat = s.size.toNat - partSize s
  pointer : s'.memoryToRead.toNat = s.memoryToRead.toNat + partSize s
  seq : s'.seq = s.seq + 1

theorem partSize_le (s : Dump) : partSize s ≤ s.size.toNat ∧ partSize s ≤ 231 :=
  ⟨min_le_left _ _, min_le_right _ _⟩

theorem partSize_pos {s : Dump} (hsize : s.size ≠ 0) : 0 < partSize s := by
  have hpos : s.size.toNat ≠ 0 := fun h0 => hsize (BitVec.eq_of_toNat_eq h0)
  exact lt_min (Nat.pos_of_ne_zero hpos) (by decide)

theorem toNat_partSize (s : Dump) :
    (stdMin s.size (BitVec.ofNat 32 CorrelatedDownlinkFrame.maxPayloadSize)).toNat = partSize s := by
  rw [toNat_stdMin]
  rfl

/-- The turn at address zero: the first byte is taken from `ReadByte0`, the others from address 1
on. -/
theorem turn_zero {s : Dump} (hsize : s.size ≠ 0) (hzero : s.memoryToRead = 0) :
    ∃ s', turn memory correlationId s =
      (frameOf correlationId s.seq (Memory.block (seen memory) s.memoryToRead.toNat (partSize s)), s') ∧
      GoesOn s s' := by
  have h232 : DownlinkFrame.maxPayloadSize = 232 := rfl
  have hpart := partSize_le s
  have hpos := partSize_pos hsize
  have hmin := toNat_partSize s
  have hlt := s.size.isLt
  unfold turn
  generalize stdMin s.size (BitVec.ofNat 32 CorrelatedDownlinkFrame.maxPayloadSize) = part at hmin
  -- one byte less
  have hsub : (part - 1).toNat = partSize s - 1 := by
    rw [BitVec.toNat_sub, hmin]
    change (2 ^ 32 - 1 + partSize s) % 2 ^ 32 = _
    omega
  have hsize' : (s.size - 1).toNat = s.size.toNat - 1 := by
    rw [BitVec.toNat_sub]
    change (2 ^ 32 - 1 + s.size.toNat) % 2 ^ 32 = _
    omega
  have h0 : s.memoryToRead.toNat = 0 := by
    rw [hzero]
    rfl
  have hone : (s.memoryToRead + 1).toNat = 1 := by
    rw [hzero]
    rfl
  have hdata : Memory.block (seen memory) 0 (partSize s) =
      readByte0 memory :: Memory.block memory 1 (partSize s - 1) := by
    rw [← block_seen_zero, Nat.sub_add_cancel hpos]
  have hbyte := (CorrelatedDownlinkFrame.carries_init apid s.seq correlationId).writeByte (readByte0 memory)
    (by rw [h232, List.length_singleton]; omega)
  have hall := hbyte.writeArray (Memory.block memory 1 (partSize s - 1)) (by
    rw [h232, Memory.length_block, List.length_append, List.length_singleton, List.length_singleton]
    omega)
  simp only [if_pos hzero]
  rw [hone, hsub, hall.frame_eq, h0, hdata]
  refine ⟨_, rfl, ?_, ?_, rfl⟩
  · rw [BitVec.toNat_sub, hsub, hsize']
    omega
  · rw [BitVec.toNat_add, hone, hsub, h0]
    omega

/-- The turn at any other address. -/
theorem turn_elsewhere {s : Dump} (hzero : s.memoryToRead ≠ 0)
    (hend : s.memoryToRead.toNat + s.size.toNat < 2 ^ 32) :
    ∃ s', turn memory correlationId s =
      (frameOf correlationId s.seq (Memory.block (seen memory) s.memoryToRead.toNat (partSize s)), s') ∧
      GoesOn s s' := by
  have h232 : DownlinkFrame.maxPayloadSize = 232 := rfl
  have hpart := partSize_le s
  have hmin := toNat_partSize s
  have hpointer : 0 < s.memoryToRead.toNat := by
    by_contra h0
    exact hzero (BitVec.eq_of_toNat_eq (Nat.le_zero.1 (not_lt.1 h0)))
  unfold turn
  generalize stdMin s.size (BitVec.ofNat 32 CorrelatedDownlinkFrame.maxPayloadSize) = part at hmin
  have hall := (CorrelatedDownlinkFrame.carries_init apid s.seq correlationId).writeArray
    (Memory.block memory s.memoryToRead.toNat (partSize s)) (by
      rw [h232, Memory.length_block, List.length_singleton]
      omega)
  simp only [if_neg hzero]
  rw [hmin, hall.frame_eq, block_seen memory hpointer]
  refine ⟨_, rfl, ?_, ?_, rfl⟩
  · rw [BitVec.toNat_sub, hmin]
    omega
  · rw [BitVec.toNat_add, hmin]
    omega

/-- **A turn** sends the next piece of what is seen, and goes on behind it. -/
theorem turn_spec {s : Dump} (hsize : s.size ≠ 0) (hend : s.memoryToRead.toNat + s.size.toNat < 2 ^ 32) :
    ∃ s', turn memory correlationId s =
      (frameOf correlationId s.seq (Memory.block (seen memory) s.memoryToRead.toNat (partSize s)), s') ∧
      GoesOn s s' := by
  by_cases hzero : s.memoryToRead = 0
  · exact turn_zero memory correlationId hsize hzero
  · exact turn_elsewhere memory correlationId hzero hend

/-! ## The loop -/

/-- The pieces of a block: the first one, and those of the block behind it. -/
theorem pieces_block (m : ℕ → Byte) {c n : ℕ} (hc : 0 < c) (hn : 0 < n) (o : ℕ) :
    pieces c (Memory.block m o n) =
      Memory.block m o (min n c) :: pieces c (Memory.block m (o + min n c) (n - min n c)) := by
  rw [pieces_eq_cons hc (by rwa [Memory.length_block]), Memory.take_block, Memory.drop_block, min_comm c n]
  congr 2
  rcases Nat.le_total c n with h | h
  · rw [min_eq_right h]
  · -- nothing is left
    rw [min_eq_left h, Nat.sub_self, Nat.sub_eq_zero_of_le h]
    rfl

/-- **The loop ends**, and its frames are the pieces of the block, numbered one after the other. -/
theorem dump_spec (fuel : ℕ) (s : Dump) (hfuel : s.size.toNat ≤ fuel)
    (hend : s.memoryToRead.toNat + s.size.toNat < 2 ^ 32) :
    dump memory correlationId fuel s =
      some ((pieces CorrelatedDownlinkFrame.maxPayloadSize
        (Memory.block (seen memory) s.memoryToRead.toNat s.size.toNat)).mapIdx
          fun i piece => frameOf correlationId (s.seq + BitVec.ofNat 32 i) piece) := by
  have h231 : CorrelatedDownlinkFrame.maxPayloadSize = 231 := rfl
  have hcut : 0 < CorrelatedDownlinkFrame.maxPayloadSize := by omega
  induction fuel generalizing s with
  | zero =>
    have h0 : s.size = 0 := BitVec.eq_of_toNat_eq (Nat.le_zero.1 hfuel)
    unfold dump
    rw [if_pos h0, Nat.le_zero.1 hfuel]
    exact congrArg (fun ps => some (List.mapIdx _ ps)) (pieces_nil hcut).symm
  | succ fuel ih =>
    unfold dump
    by_cases h0 : s.size = 0
    · have hnone : s.size.toNat = 0 := by rw [h0]; rfl
      rw [if_pos h0, hnone]
      exact congrArg (fun ps => some (List.mapIdx _ ps)) (pieces_nil hcut).symm
    · have hpart := (partSize_le s).1
      have hpartPos := partSize_pos h0
      have hpos : 0 < s.size.toNat := by omega
      have hpieces : pieces CorrelatedDownlinkFrame.maxPayloadSize
          (Memory.block (seen memory) s.memoryToRead.toNat s.size.toNat) =
          Memory.block (seen memory) s.memoryToRead.toNat (partSize s) ::
            pieces CorrelatedDownlinkFrame.maxPayloadSize (Memory.block (seen memory)
              (s.memoryToRead.toNat + partSize s) (s.size.toNat - partSize s)) :=
        pieces_block _ hcut hpos _
      obtain ⟨s', hturn, hgoes⟩ := turn_spec memory correlationId h0 hend
      have hfuel' : s'.size.toNat ≤ fuel := by
        rw [hgoes.size]
        omega
      have hend' : s'.memoryToRead.toNat + s'.size.toNat < 2 ^ 32 := by
        rw [hgoes.pointer, hgoes.size]
        omega
      have hrest := ih s' hfuel' hend'
      rw [hgoes.size, hgoes.pointer, hgoes.seq] at hrest
      -- the number of a frame in the rest is one more in all
      have hnext : ∀ i, s.seq + BitVec.ofNat 32 (i + 1) = s.seq + 1 + BitVec.ofNat 32 i := by
        intro i
        rw [BitVec.add_assoc, Nat.add_comm i 1, BitVec.ofNat_add]
        rfl
      rw [if_neg h0, hturn, hpieces, List.mapIdx_cons]
      dsimp only
      rw [hrest, Option.map_some, BitVec.add_zero]
      simp only [hnext]

/-! ## The handler -/

/-- The parameters of a request, with whatever comes behind them. -/
def request (correlationId : Byte) (offset size : BitVec 32) (rest : List Byte) : List Byte :=
  correlationId :: (Redundancy.storeWord offset ++ Redundancy.storeWord size ++ rest)

/-- The number of bytes: up to the last address but one. -/
def length (offset size : BitVec 32) : ℕ := min size.toNat (2 ^ 32 - 1 - offset.toNat)

/-- The fields of a request. -/
theorem read_request (offset size : BitVec 32) (rest : List Byte) :
    let r := Reader.init (request correlationId offset size rest)
    r.readByte.1 = correlationId ∧ r.readByte.2.readDoubleWordLE.1 = offset ∧
      r.readByte.2.readDoubleWordLE.2.readDoubleWordLE.1 = size ∧
      r.readByte.2.readDoubleWordLE.2.readDoubleWordLE.2.status = true := by
  have hlong : 9 ≤ (request correlationId offset size rest).length := by
    unfold request Redundancy.storeWord
    simp only [List.length_cons, List.length_append, List.length_nil]
    omega
  have h0 := Reader.Consumed.init (request correlationId offset size rest)
  have h1 := h0.updateState (n := 1) (by omega)
  have h5 := h1.updateState (n := 4) (by omega)
  have h9 := h5.updateState (n := 4) (by omega)
  refine ⟨?_, ?_, ?_, h9.valid_of_le (by omega) hlong⟩
  · rw [h0.readByte (by omega), if_pos (by omega)]
    rfl
  · refine (h1.readDoubleWordLE (by omega)).trans ?_
    rw [if_pos (by omega)]
    exact Redundancy.loadWord_storeWord offset
  · refine (h5.readDoubleWordLE (by omega)).trans ?_
    rw [if_pos (by omega)]
    exact Redundancy.loadWord_storeWord size

/-- The clamped size: the block ends inside the address space. -/
theorem toNat_clamped (offset size : BitVec 32) :
    (stdMin size (BitVec.allOnes 32 - offset)).toNat = length offset size := by
  have hlt := offset.isLt
  unfold length
  rw [toNat_stdMin, BitVec.toNat_sub, BitVec.toNat_allOnes]
  omega

/-- **What a request brings**: the pieces of the block. -/
theorem handle_request (offset size : BitVec 32) (rest : List Byte) :
    handle memory (request correlationId offset size rest) =
      some ((pieces CorrelatedDownlinkFrame.maxPayloadSize
        (Memory.block (seen memory) offset.toNat (length offset size))).mapIdx
          fun i piece => frameOf correlationId (BitVec.ofNat 32 i) piece) := by
  obtain ⟨hcorrelationId, hoffset, hsize, hstatus⟩ := read_request correlationId offset size rest
  have hclamped := toNat_clamped offset size
  have hend : offset.toNat + (stdMin size (BitVec.allOnes 32 - offset)).toNat < 2 ^ 32 := by
    have hlt := offset.isLt
    rw [hclamped]
    unfold length
    omega
  have hdump := dump_spec memory correlationId (stdMin size (BitVec.allOnes 32 - offset)).toNat
    ⟨stdMin size (BitVec.allOnes 32 - offset), offset, 0⟩ le_rfl hend
  have hseq : ∀ i, (0 : BitVec 32) + BitVec.ofNat 32 i = BitVec.ofNat 32 i := fun i => BitVec.zero_add _
  unfold handle
  dsimp only
  rw [hcorrelationId, hoffset, hsize, hstatus, Bool.not_true, if_neg Bool.false_ne_true, hdump, hclamped]
  simp only [hseq]

/-- A request that is too short is answered with an error. -/
theorem handle_short {parameters : List Byte} (h : parameters.length < 9) :
    ∃ frame, handle memory parameters = some [frame] ∧
      ReceivedFrame.parse frame = ⟨0x02, 0, [(Reader.init parameters).readByte.1, 1]⟩ := by
  have h1 : (Reader.init parameters).readByte.2.Consumed parameters 1 :=
    (Reader.Consumed.init parameters).updateState (n := 1) (by omega)
  have h5 : (Reader.init parameters).readByte.2.readDoubleWordLE.2.Consumed parameters 5 :=
    h1.updateState (n := 4) (by omega)
  have h9 : (Reader.init parameters).readByte.2.readDoubleWordLE.2.readDoubleWordLE.2.Consumed parameters 9 :=
    h5.updateState (n := 4) (by omega)
  have hstatus := h9.status_eq_false h
  have hcarries := (CorrelatedDownlinkFrame.carries_init operation 0
    (Reader.init parameters).readByte.1).writeByte 1 (by rw [List.length_singleton]; decide)
  refine ⟨_, ?_, hcarries.parse⟩
  unfold handle
  dsimp only
  rw [hstatus, Bool.not_false, if_pos rfl]

/-! ## The dump -/

/-- What a frame carries of the memory. -/
def data (frame : ReceivedFrame) : List Byte := frame.payload.drop 1

/-- The frames, as the ground reads them, are a dump of the memory. -/
structure Dumped (memory : ℕ → Byte) (correlationId : Byte) (offset n : ℕ) (frames : List ReceivedFrame) :
    Prop where
  bytes : frames.flatMap data = Memory.block memory offset n
  fits : ∀ frame ∈ frames, frame.payload.length ≤ DownlinkFrame.maxPayloadSize
  full : ∀ i, i + 1 < frames.length → ∀ frame ∈ frames[i]?,
    (data frame).length = CorrelatedDownlinkFrame.maxPayloadSize
  seqs : frames.map (·.seq) = (List.range frames.length).map (· % 2 ^ 18)
  headers : ∀ frame ∈ frames, frame.apid = 0x21 ∧ frame.payload.head? = some correlationId

/-- A frame as the ground reads it. -/
theorem parse_frameOf (i : ℕ) (piece : List Byte) :
    ReceivedFrame.parse (frameOf correlationId (BitVec.ofNat 32 i) piece) =
      ⟨0x21, i % 2 ^ 18, correlationId :: piece⟩ := by
  have hseq : (BitVec.ofNat 32 i).toNat % 2 ^ 18 = i % 2 ^ 18 := by
    rw [BitVec.toNat_ofNat]
    omega
  unfold frameOf
  rw [DownlinkFrame.parse_header, hseq]
  rfl

/-- The frames of pieces that are numbered one after the other. -/
theorem parse_frames (ps : List (List Byte)) :
    (ps.mapIdx fun i piece => frameOf correlationId (BitVec.ofNat 32 i) piece).map ReceivedFrame.parse =
      ps.mapIdx fun i piece => ⟨0x21, i % 2 ^ 18, correlationId :: piece⟩ := by
  rw [map_mapIdx]
  refine congrArg (List.mapIdx · ps) ?_
  funext i piece
  exact parse_frameOf correlationId i piece

theorem flatMap_data (ps : List (List Byte)) :
    (ps.mapIdx fun i piece => (⟨0x21, i % 2 ^ 18, correlationId :: piece⟩ : ReceivedFrame)).flatMap data =
      ps.flatten := by
  have hdata : (fun (i : ℕ) (piece : List Byte) =>
      data ⟨0x21, i % 2 ^ 18, correlationId :: piece⟩) = fun _ piece => piece := rfl
  rw [List.flatMap_def, map_mapIdx, hdata]
  congr 1
  exact List.ext_getElem (by simp) (by simp)

/-- **The dump is exact**, but for the byte at address zero: for any offset and size the loop ends,
the frames carry the bytes asked for one after the other, all frames but the last are full, and
the sequence numbers are 0, 1, 2, … in a field of 18 bits. -/
theorem dump_exact (offset size : BitVec 32) (rest : List Byte) :
    ∃ frames, handle memory (request correlationId offset size rest) = some frames ∧
      ∃ atZero, Dumped (Function.update memory 0 atZero) correlationId offset.toNat
        (min size.toNat (2 ^ 32 - 1 - offset.toNat)) (frames.map ReceivedFrame.parse) := by
  have hcut : 0 < CorrelatedDownlinkFrame.maxPayloadSize := by decide
  refine ⟨_, handle_request memory correlationId offset size rest, readByte0 memory, ?_⟩
  rw [parse_frames]
  change Dumped (seen memory) correlationId offset.toNat (length offset size) _
  -- from here on it is about a list in pieces
  generalize hps : pieces CorrelatedDownlinkFrame.maxPayloadSize
    (Memory.block (seen memory) offset.toNat (length offset size)) = ps
  have hmem : ∀ piece ∈ ps, piece.length ≤ CorrelatedDownlinkFrame.maxPayloadSize := by
    intro piece hpiece
    rw [← hps] at hpiece
    exact length_le_of_mem_pieces hpiece
  refine ⟨?_, ?_, ?_, ?_, ?_⟩
  · rw [flatMap_data, ← hps, flatten_pieces hcut]
  · intro frame hframe
    obtain ⟨i, hi, rfl⟩ := List.mem_mapIdx.1 hframe
    have hle := hmem _ (List.getElem_mem hi)
    exact Nat.succ_le_succ hle
  · -- full: the pieces are
    intro i hi frame hframe
    rw [List.length_mapIdx] at hi
    rw [List.getElem?_mapIdx, List.getElem?_eq_getElem (by omega), Option.map_some] at hframe
    obtain rfl := Option.some.inj hframe
    subst hps
    exact length_getElem_pieces hcut hi
  · rw [map_mapIdx, List.length_mapIdx]
    exact List.ext_getElem (by simp) (by simp)
  · intro frame hframe
    obtain ⟨i, hi, rfl⟩ := List.mem_mapIdx.1 hframe
    exact ⟨rfl, rfl⟩

/-- Everything from 2^31 on. -/
def upperHalf : List Byte := request 0x11 0x80000000 0x7FFFFFFF []

/-- The frame with number 2^18 begins again at 0. -/
theorem upperHalf_not_numberedInOrder :
    ∃ frames, handle (fun _ => 0) upperHalf = some frames ∧
      ∃ frame ∈ (frames.map ReceivedFrame.parse)[2 ^ 18]?, frame.seq = 0 := by
  refine ⟨_, handle_request (fun _ => 0) 0x11 0x80000000 0x7FFFFFFF [], ?_⟩
  rw [parse_frames, List.getElem?_mapIdx]
  generalize hps : pieces CorrelatedDownlinkFrame.maxPayloadSize
    (Memory.block (seen fun _ => 0) (0x80000000 : BitVec 32).toNat (length 0x80000000 0x7FFFFFFF)) = ps
  have hlength : 2 ^ 18 < ps.length := by
    rw [← hps, length_pieces, Memory.length_block]
    decide
  rw [List.getElem?_eq_getElem hlength]
  exact ⟨_, rfl, rfl⟩

end ReadMemoryTelecommand

end PWSat2OBC
