import PWSat2OBC.Proof.Redundancy
import PWSat2OBC.Spec.Fram

/-!
# Reads of the triple FRAM

`majorityAt` is what a redundant read is for: at each address the bitwise majority of
the three chips. `read_majority_iff` says when the driver returns it: in every 1 KB
chunk either the vote can run (length and output address multiples of 4) or chip 0 is
outvoted nowhere.

A read gives back what was last written (`read_write`), and writes elsewhere do not
disturb it (`read_write_of_disjoint`), whatever state the chips are in.
-/

namespace PWSat2OBC

theorem Fm25w.write_add (chip : Fm25w) (address : Address) {buffer : List Byte} {i : ℕ}
    (hi : i < buffer.length) (h : buffer.length ≤ 2 ^ 16) :
    chip.write address buffer (address + BitVec.ofNat 16 i) = buffer[i] := by
  have hto : (address + BitVec.ofNat 16 i - address).toNat = i := by
    rw [BitVec.add_comm, BitVec.add_sub_cancel, BitVec.toNat_ofNat]
    exact Nat.mod_eq_of_lt (by omega)
  rw [write, hto, List.getD_eq_getElem?_getD, List.getElem?_eq_getElem hi, Option.getD_some]

theorem Fm25w.write_of_le (chip : Fm25w) {address a : Address} {buffer : List Byte}
    (h : buffer.length ≤ (a - address).toNat) : chip.write address buffer a = chip a := by
  rw [write, List.getD_eq_getElem?_getD, List.getElem?_eq_none h, Option.getD_none]

namespace RedundantFm25w

open Voting

variable (d : RedundantFm25w) (rb1 rb2 : Aligned4)

/-- The bitwise 2-out-of-3 majority of the chips from `address` on. -/
def majorityAt (address : Address) (length : ℕ) : List Byte :=
  (List.range length).map fun i =>
    let a := address + BitVec.ofNat 16 i
    vote [d.chip0 a, d.chip1 a, d.chip2 a]

/-- The chunk of `n` bytes at `address` comes out voted: the vote accepts its length and
the address of the output buffer, or chips 1 and 2 nowhere agree against chip 0. -/
def ChunkVoted (address : Address) (output n : ℕ) : Prop :=
  (n % 4 = 0 ∧ output % 4 = 0) ∨
    ∀ i < n, let a := address + BitVec.ofNat 16 i
      dissent (d.chip0 a) (d.chip1 a) (d.chip2 a) = 0

theorem length_majorityAt (address : Address) (n : ℕ) : (d.majorityAt address n).length = n := by
  simp [majorityAt]

theorem majorityAt_eq (address : Address) (n : ℕ) :
    d.majorityAt address n = (List.range n).map fun i =>
      majority3 (d.chip0 (address + BitVec.ofNat 16 i)) (d.chip1 (address + BitVec.ofNat 16 i))
        (d.chip2 (address + BitVec.ofNat 16 i)) := by
  simp only [majorityAt, vote_three]

/-- Chip 0 alone is the majority where it is outvoted nowhere. -/
theorem read_chip0_eq_majorityAt (address : Address) (n : ℕ) :
    d.chip0.read address n = d.majorityAt address n ↔
      ∀ i < n, dissent (d.chip0 (address + BitVec.ofNat 16 i))
        (d.chip1 (address + BitVec.ofNat 16 i)) (d.chip2 (address + BitVec.ofNat 16 i)) = 0 := by
  rw [majorityAt_eq, Fm25w.read, List.map_inj_left]
  simp only [List.mem_range]
  refine forall_congr' fun i => imp_congr_right fun _ => ?_
  rw [eq_comm, majority3_eq_left]
  rfl

/-- **One chunk**: voted when the vote runs, chip 0 otherwise. -/
theorem readChunk_fst (address : Address) (output n : ℕ) :
    (d.readChunk rb1 rb2 address output n).1 =
      if n % 4 = 0 ∧ output % 4 = 0 then d.majorityAt address n else d.chip0.read address n := by
  unfold readChunk
  by_cases heq : d.chip0.read address n = d.chip1.read address n
  · -- chips 0 and 1 agree: their bytes are the majority
    have hmaj : d.chip0.read address n = d.majorityAt address n := by
      rw [Fm25w.read, Fm25w.read, List.map_inj_left] at heq
      rw [majorityAt_eq, Fm25w.read, List.map_inj_left]
      intro i hi
      rw [← heq i hi, majority3_left]
    simp only [if_pos heq]
    rw [← hmaj, ite_self]
  · simp only [if_neg heq]
    rw [majorityAt_eq, Fm25w.read, Fm25w.read, Fm25w.read,
      Redundancy.correctBuffer_map _ _ _ _ _ _ _ rb1.aligned rb2.aligned, List.length_range]

theorem readChunk_length (address : Address) (output n : ℕ) :
    (d.readChunk rb1 rb2 address output n).1.length = n := by
  rw [readChunk_fst]
  split
  · exact d.length_majorityAt address n
  · simp [Fm25w.read]

theorem readChunk_majority_iff (address : Address) (output n : ℕ) :
    (d.readChunk rb1 rb2 address output n).1 = d.majorityAt address n ↔
      d.ChunkVoted address output n := by
  rw [readChunk_fst, ChunkVoted]
  by_cases h : n % 4 = 0 ∧ output % 4 = 0
  · rw [if_pos h]; exact ⟨fun _ => Or.inl h, fun _ => rfl⟩
  · rw [if_neg h, read_chip0_eq_majorityAt]
    exact ⟨Or.inr, fun h' => h'.resolve_left h⟩

/-- The majority, chunk by chunk. -/
theorem majorityAt_chunks (address : Address) (length : ℕ) :
    d.majorityAt address length = (List.range (Chunks.count length chunkSize)).flatMap fun i =>
      d.majorityAt (address + BitVec.ofNat 16 (i * chunkSize)) (chunkLength length (i * chunkSize)) := by
  unfold majorityAt
  rw [Chunks.range_chunks (c := chunkSize) (by decide) length, List.map_flatMap]
  simp only [List.map_map, Function.comp_def, BitVec.ofNat_add, BitVec.add_assoc, chunkLength]

/-- The vote looks at the address of the output buffer modulo 4 only. -/
theorem chunkVoted_add (address : Address) (output i n : ℕ) :
    d.ChunkVoted address (output + i * chunkSize) n ↔ d.ChunkVoted address output n := by
  have hmod : (output + i * chunkSize) % 4 = output % 4 := by
    unfold chunkSize
    omega
  rw [ChunkVoted, ChunkVoted, hmod]

/-- A read that fits one chunk. -/
theorem read_one_chunk (address : Address) (output : ℕ) {length : ℕ} (h0 : 0 < length)
    (h : length ≤ chunkSize) :
    (d.read rb1 rb2 address output length).1 = (d.readChunk rb1 rb2 address output length).1 := by
  have hcount : Chunks.count length chunkSize = 1 := by
    rw [Chunks.count_succ (by decide) h0, Nat.sub_eq_zero_of_le h]
    rfl
  have hlen : chunkLength length 0 = length := by
    unfold chunkLength
    omega
  simp only [read, hcount, List.range_one, List.map_cons, List.map_nil, List.flatMap_cons,
    List.flatMap_nil, List.append_nil, Nat.zero_mul, hlen, Nat.add_zero,
    BitVec.add_zero]

/-- A read all of whose chunks are voted returns the majority. -/
theorem read_eq_majorityAt {address : Address} {output length : ℕ}
    (h : ∀ i < Chunks.count length chunkSize,
      d.ChunkVoted (address + BitVec.ofNat 16 (i * chunkSize)) output
        (chunkLength length (i * chunkSize))) :
    (d.read rb1 rb2 address output length).1 = d.majorityAt address length := by
  rw [majorityAt_chunks, read, List.flatMap_map]
  refine List.flatMap_congr fun i hi => ?_
  rw [readChunk_majority_iff, chunkVoted_add]
  exact h i (List.mem_range.1 hi)

/-- **When a redundant read returns the majority**: exactly when every chunk of it is
voted. -/
theorem read_majority_iff (address : Address) (output length : ℕ) :
    (d.read rb1 rb2 address output length).1 = d.majorityAt address length ↔
      ∀ i < Chunks.count length chunkSize,
        d.ChunkVoted (address + BitVec.ofNat 16 (i * chunkSize)) output
          (chunkLength length (i * chunkSize)) := by
  refine ⟨?_, d.read_eq_majorityAt rb1 rb2⟩
  rw [majorityAt_chunks, read, List.flatMap_map, Chunks.flatMap_inj]
  · intro h i hi
    have hchunk := h i (List.mem_range.2 hi)
    rwa [readChunk_majority_iff, chunkVoted_add] at hchunk
  · intro i _
    rw [readChunk_length, length_majorityAt]

/-- A one-byte read, as of the boot slots, takes a corrupted chip 0 over two good chips. -/
theorem read_one_byte_corrupted :
    let good : Fm25w := fun _ => 0b111
    let d : RedundantFm25w := ⟨fun _ => 0b110, good, good⟩
    (d.read ⟨1024, rfl⟩ ⟨2048, rfl⟩ 4 4096 1).1 = [0b110] ∧
      (d.read ⟨1024, rfl⟩ ⟨2048, rfl⟩ 4 4096 1).1 ≠ d.majorityAt 4 1 := by
  decide

/-! ## Reading what was written -/

/-- Two drivers hold the same bytes in the `length` bytes from `address` on. -/
def SameAt (d d' : RedundantFm25w) (address : Address) (length : ℕ) : Prop :=
  ∀ i < length, let a := address + BitVec.ofNat 16 i
    d.chip0 a = d'.chip0 a ∧ d.chip1 a = d'.chip1 a ∧ d.chip2 a = d'.chip2 a

section

variable {d} {d' : RedundantFm25w} {address : Address}

theorem SameAt.sub {length : ℕ} (h : SameAt d d' address length) {offset n : ℕ}
    (hle : offset + n ≤ length) : SameAt d d' (address + BitVec.ofNat 16 offset) n := by
  intro i hi
  have h1 := h (offset + i) (by omega)
  rwa [BitVec.ofNat_add, ← BitVec.add_assoc] at h1

theorem readChunk_congr (output : ℕ) {n : ℕ} (h : SameAt d d' address n) :
    d.readChunk rb1 rb2 address output n = d'.readChunk rb1 rb2 address output n := by
  have h0 : d.chip0.read address n = d'.chip0.read address n :=
    List.map_congr_left fun i hi => (h i (List.mem_range.1 hi)).1
  have h1 : d.chip1.read address n = d'.chip1.read address n :=
    List.map_congr_left fun i hi => (h i (List.mem_range.1 hi)).2.1
  have h2 : d.chip2.read address n = d'.chip2.read address n :=
    List.map_congr_left fun i hi => (h i (List.mem_range.1 hi)).2.2
  unfold readChunk
  rw [h0, h1, h2]

/-- A read looks at no other addresses than those of its bytes. -/
theorem read_congr (output : ℕ) {length : ℕ} (h : SameAt d d' address length) :
    d.read rb1 rb2 address output length = d'.read rb1 rb2 address output length := by
  unfold read
  rw [List.map_congr_left fun i hi => ?_]
  have hlt := Chunks.start_lt (c := chunkSize) (by decide) (List.mem_range.1 hi)
  exact readChunk_congr rb1 rb2 _ (h.sub (by unfold chunkLength; omega))

end

/-- Where the three chips agree, a read returns what they hold. -/
theorem read_of_agree (address : Address) (output length : ℕ) (v : ℕ → Byte)
    (h : ∀ i < length, let a := address + BitVec.ofNat 16 i
      d.chip0 a = v i ∧ d.chip1 a = v i ∧ d.chip2 a = v i) :
    (d.read rb1 rb2 address output length).1 = (List.range length).map v := by
  rw [d.read_eq_majorityAt rb1 rb2, majorityAt_eq]
  · refine List.map_congr_left fun i hi => ?_
    obtain ⟨h0, h1, h2⟩ := h i (List.mem_range.1 hi)
    rw [h0, h1, h2, majority3_left]
  · intro i hi
    have hlt := Chunks.start_lt (c := chunkSize) (by decide) hi
    refine Or.inr fun j hj => ?_
    obtain ⟨h0, h1, h2⟩ := h (i * chunkSize + j) (by unfold chunkLength at hj; omega)
    rw [BitVec.ofNat_add, ← BitVec.add_assoc] at h0 h1 h2
    simp [dissent, h0, h1, h2]

/-- **Reading gives back what was last written there.** -/
theorem read_write (address : Address) (buffer : List Byte) (output : ℕ)
    (h : buffer.length ≤ 2 ^ 16) :
    ((d.write address buffer).read rb1 rb2 address output buffer.length).1 = buffer := by
  rw [read_of_agree _ rb1 rb2 address output buffer.length (fun i => buffer.getD i 0)]
  · apply List.ext_getElem (by simp)
    intro i _ hi
    simp [hi]
  · intro i hi
    simp [write, Fm25w.write_add _ _ hi h, hi]

/-- **Writing elsewhere does not disturb a read.** -/
theorem read_write_of_disjoint (address address' : Address) (buffer : List Byte)
    (output length : ℕ)
    (h : ∀ i < length, buffer.length ≤ (address' + BitVec.ofNat 16 i - address).toNat) :
    (d.write address buffer).read rb1 rb2 address' output length =
      d.read rb1 rb2 address' output length := by
  refine read_congr rb1 rb2 output fun i hi => ?_
  simp only [write, Fm25w.write_of_le _ (h i hi), and_self]

end RedundantFm25w

end PWSat2OBC
