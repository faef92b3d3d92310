import PWSat2OBC.Proof.Redundancy
import PWSat2OBC.Spec.ProgramFlash

/-!
# Sectors of the program flash

`overwrite` replaces the 64 KB from an offset on. Erasing a sector and programming it is
an overwrite (`program_eraseSector`), and an overwrite with what is there already does
nothing (`overwrite_self`).
-/

namespace PWSat2OBC

namespace BootTable

/-- The entries named by a set of at most eight bits. -/
def entriesOf (mask : Byte) : List Byte :=
  ((List.range 8).filter fun i => mask.getLsbD i).map (BitVec.ofNat 8)

theorem mem_entriesOf {mask : Byte} {i : ℕ} (hi : i < 8) :
    BitVec.ofNat 8 i ∈ entriesOf mask ↔ mask.getLsbD i = true := by
  have hinj : ∀ j < 8, BitVec.ofNat 8 j = BitVec.ofNat 8 i ↔ j = i := by
    intro j hj
    constructor
    · intro h
      have h1 := congrArg BitVec.toNat h
      rw [BitVec.toNat_ofNat, BitVec.toNat_ofNat] at h1
      omega
    · rintro rfl; rfl
  simp only [entriesOf, List.mem_map, List.mem_filter, List.mem_range]
  constructor
  · rintro ⟨j, ⟨hj, hb⟩, he⟩
    rwa [← (hinj j hj).1 he]
  · intro h; exact ⟨i, ⟨hi, h⟩, rfl⟩

theorem nodup_entriesOf (mask : Byte) : (entriesOf mask).Nodup := by
  refine List.Nodup.map_on ?_ (List.nodup_range.filter _)
  intro i hi j hj h
  have hi' := List.mem_range.1 (List.mem_filter.1 hi).1
  have hj' := List.mem_range.1 (List.mem_filter.1 hj).1
  have h1 := congrArg BitVec.toNat h
  rw [BitVec.toNat_ofNat, BitVec.toNat_ofNat] at h1
  omega

theorem length_entriesOf (mask : Byte) : (entriesOf mask).length = popcount mask := by
  rw [entriesOf, List.length_map, popcount, List.countP_eq_length_filter]

/-- **The decoder finds exactly the bits set** among the lowest six, if there are three. -/
theorem selectEntries_eq : ∀ mask : Byte, popcount (mask &&& 0b00111111) = 3 →
    selectEntries mask = entriesOf (mask &&& 0b00111111) := by
  decide +kernel

theorem lt_of_mem_selectEntries {mask t : Byte} (h : popcount (mask &&& 0b00111111) = 3)
    (ht : t ∈ selectEntries mask) : t.toNat < 6 := by
  rw [selectEntries_eq mask h, entriesOf, List.mem_map] at ht
  obtain ⟨i, hi, rfl⟩ := ht
  obtain ⟨hi8, hbit⟩ := List.mem_filter.1 hi
  rw [List.mem_range] at hi8
  by_contra hge
  rw [BitVec.toNat_ofNat] at hge
  rw [BitVec.getLsbD_and] at hbit
  have : i = 6 ∨ i = 7 := by omega
  rcases this with rfl | rfl <;> simp at hbit

theorem length_selectEntries {mask : Byte} (h : popcount (mask &&& 0b00111111) = 3) :
    (selectEntries mask).length = 3 := by
  rw [selectEntries_eq mask h, length_entriesOf, h]

theorem nodup_selectEntries {mask : Byte} (h : popcount (mask &&& 0b00111111) = 3) :
    (selectEntries mask).Nodup := by
  rw [selectEntries_eq mask h]
  exact nodup_entriesOf _

theorem mem_selectEntries {mask : Byte} (h : popcount (mask &&& 0b00111111) = 3) (t : Byte) :
    t ∈ selectEntries mask ↔ t.toNat < 6 ∧ mask.getLsbD t.toNat = true := by
  have hbit : ∀ i < 6, (mask &&& 0b00111111).getLsbD i = mask.getLsbD i := by
    intro i hi
    have hlow : ∀ j : Fin 6, (0b00111111 : Byte).getLsbD j = true := by decide
    rw [BitVec.getLsbD_and, hlow ⟨i, hi⟩, Bool.and_true]
  have hmem : t.toNat < 6 → (t ∈ selectEntries mask ↔ mask.getLsbD t.toNat = true) := by
    intro hlt
    have hiff := @mem_entriesOf (mask &&& 0b00111111) t.toNat (by omega)
    rwa [BitVec.ofNat_toNat, BitVec.setWidth_eq, ← selectEntries_eq mask h, hbit _ hlt] at hiff
  constructor
  · intro ht
    have hlt := lt_of_mem_selectEntries h ht
    exact ⟨hlt, (hmem hlt).1 ht⟩
  · rintro ⟨hlt, hset⟩
    exact (hmem hlt).2 hset

end BootTable

namespace Flash

variable (flash : Flash)

/-- The 64 KB from `o` on. -/
def block (o : ℕ) : List Byte := (List.range largeSectorSize).map fun i => flash (o + i)

/-- The flash with the 64 KB from `o` on replaced. -/
def overwrite (o : ℕ) (buffer : List Byte) : Flash := fun a =>
  if o ≤ a ∧ a < o + largeSectorSize then buffer.getD (a - o) 0 else flash a

theorem overwrite_of_mem {o i : ℕ} {buffer : List Byte} (hi : i < largeSectorSize) :
    flash.overwrite o buffer (o + i) = buffer.getD i 0 := by
  rw [overwrite, if_pos ⟨by omega, by omega⟩, Nat.add_sub_cancel_left]

theorem overwrite_of_not_mem {o a : ℕ} {buffer : List Byte} (h : a < o ∨ o + largeSectorSize ≤ a) :
    flash.overwrite o buffer a = flash a := by
  rw [overwrite, if_neg (by omega)]

/-- Programming an erased sector stores the buffer. -/
theorem program_eraseSector (o : ℕ) {buffer : List Byte} (h : buffer.length = largeSectorSize) :
    (flash.eraseSector o).program o buffer = flash.overwrite o buffer := by
  funext a
  simp only [program, eraseSector, overwrite, h]
  split_ifs
  · exact BitVec.allOnes_and
  · rfl

theorem overwrite_self {o : ℕ} {buffer : List Byte} (h : flash.block o = buffer) :
    flash.overwrite o buffer = flash := by
  funext a
  unfold overwrite
  split_ifs with ha
  · rw [← h, block, List.getD_eq_getElem?_getD, List.getElem?_map, List.getElem?_range (by omega)]
    simp [show o + (a - o) = a by omega]
  · rfl

/-- An overwrite leaves the blocks that do not meet it. -/
theorem block_overwrite_of_disjoint {o o' : ℕ} {buffer : List Byte}
    (h : o' + largeSectorSize ≤ o ∨ o + largeSectorSize ≤ o') :
    (flash.overwrite o buffer).block o' = flash.block o' := by
  refine List.map_congr_left fun i hi => ?_
  rw [List.mem_range] at hi
  exact flash.overwrite_of_not_mem (by omega)

end Flash

end PWSat2OBC
