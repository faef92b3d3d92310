import PWSat2OBC.Spec.Nand

/-!
# The slices of a NAND operation

`part_inside`, `part_behind`: the part of a buffer on a page, as long as the signed
`remaining` has the sign of the true difference. `partitioned_iff`: the slices partition
both buffers exactly when it has that sign on every page and the last offset fits 32 bits.
-/

namespace PWSat2OBC

namespace Nand

/-! ### The number of pages -/

theorem pagesFor_toNat {size unit : BitVec 32} (hunit : 0 < unit.toNat) :
    (pagesFor size unit).toNat = Chunks.count size.toNat unit.toNat := by
  have hsize := size.isLt
  set n := size.toNat with hn
  set c := unit.toNat with hc
  have hdiv := Nat.div_add_mod n c
  have hmod := Nat.mod_lt n hunit
  have hquot : (size / unit).toNat = n / c := BitVec.toNat_udiv
  have hprod : (unit * (size / unit)).toNat = c * (n / c) := by
    rw [BitVec.toNat_mul, hquot, ← hc, Nat.mod_eq_of_lt (by omega)]
  unfold pagesFor Chunks.count
  simp only [BitVec.lt_def, hprod, ← hn]
  by_cases hrest : c * (n / c) < n
  · -- a last page that is not full
    have hpos : 0 < n % c := by omega
    have hc2 : 2 ≤ c := by omega
    have hhalf : n / c ≤ n / 2 := Nat.div_le_div_left hc2 (by omega)
    have hcount : (n + c - 1) / c = n / c + 1 := by
      apply Nat.div_eq_of_lt_le
      · rw [Nat.succ_mul, Nat.mul_comm]
        omega
      · rw [Nat.succ_mul, Nat.succ_mul, Nat.mul_comm]
        omega
    rw [if_pos hrest, BitVec.toNat_add, hquot, hcount]
    simp only [BitVec.ofNat_eq_ofNat, BitVec.toNat_ofNat]
    omega
  · have hzero : n % c = 0 := by omega
    have hcount : (n + c - 1) / c = n / c := by
      apply Nat.div_eq_of_lt_le
      · rw [Nat.mul_comm]
        omega
      · rw [Nat.succ_mul, Nat.mul_comm]
        omega
    rw [if_neg hrest, hquot, hcount]

/-- The pages an operation needs. -/
def pages (g : NandGeometry) (op : NandOperation) : ℕ :=
  max (Chunks.count op.dataSize.toNat g.pageSize.toNat)
    (Chunks.count op.spareSize.toNat g.spareAreaPerPage.toNat)

variable {g : NandGeometry} {op : NandOperation}

theorem toNat_pageSize : (g.pageSize.setWidth 32).toNat = g.pageSize.toNat := by
  have h := g.pageSize.isLt
  rw [BitVec.toNat_setWidth]
  omega

theorem toNat_spareAreaPerPage : (g.spareAreaPerPage.setWidth 32).toNat = g.spareAreaPerPage.toNat := by
  have h := g.spareAreaPerPage.isLt
  rw [BitVec.toNat_setWidth]
  omega

/-- The counter holds the number of pages where that fits 16 bits. -/
theorem toNat_affectedPagesCount (hfit : pages g op < 2 ^ 16) :
    (affectedPagesCount g op).toNat = pages g op := by
  have hdata : (pagesFor op.dataSize (g.pageSize.setWidth 32)).toNat =
      Chunks.count op.dataSize.toNat g.pageSize.toNat := by
    rw [pagesFor_toNat (toNat_pageSize ▸ g.pageSize_pos), toNat_pageSize]
  have hspare : (pagesFor op.spareSize (g.spareAreaPerPage.setWidth 32)).toNat =
      Chunks.count op.spareSize.toNat g.spareAreaPerPage.toNat := by
    rw [pagesFor_toNat (toNat_spareAreaPerPage ▸ g.spareAreaPerPage_pos), toNat_spareAreaPerPage]
  unfold affectedPagesCount
  simp only [gt_iff_lt, BitVec.lt_def, hdata, hspare]
  unfold pages at hfit ⊢
  split
  · rw [BitVec.toNat_setWidth, hdata]
    omega
  · rw [BitVec.toNat_setWidth, hspare]
    omega

/-- The start of page `i` in a buffer, which never leaves 32 bits. -/
theorem toNat_start {i : ℕ} {unit : BitVec 32} (hi : i < 2 ^ 16) (hunit : unit.toNat < 2 ^ 16) :
    ((BitVec.ofNat 16 i).setWidth 32 * unit).toNat = i * unit.toNat := by
  have hpage : ((BitVec.ofNat 16 i).setWidth 32).toNat = i := by
    rw [BitVec.toNat_setWidth, BitVec.toNat_ofNat]
    omega
  have hbound : i * unit.toNat ≤ (2 ^ 16 - 1) * (2 ^ 16 - 1) := Nat.mul_le_mul (by omega) (by omega)
  rw [BitVec.toNat_mul, hpage, Nat.mod_eq_of_lt (by omega)]

/-! ### One part of one buffer -/

section Part

variable {size offset unit : BitVec 32}

theorem toNat_remaining (hle : offset.toNat ≤ size.toNat) :
    (size - offset).toNat = size.toNat - offset.toNat := by
  have hsize := size.isLt
  rw [BitVec.toNat_sub]
  omega

/-- With something remaining, the part ends with the buffer or is a whole page. -/
theorem part_some (h : 0 < (size - offset).toInt) : (part size offset unit).1 = some offset ∧
    (part size offset unit).2.toNat = min (size - offset).toNat unit.toNat := by
  unfold part
  simp only [if_pos h, true_and, gt_iff_lt, BitVec.lt_def]
  split
  · omega
  · omega

theorem part_none (h : ¬ 0 < (size - offset).toInt) : part size offset unit = (none, 0) := by
  unfold part
  simp only [if_neg h]

/-- A page that starts inside the buffer, less than `2^31` before its end. -/
theorem part_inside (hlt : offset.toNat < size.toNat) (hsmall : size.toNat - offset.toNat < 2 ^ 31) :
    (part size offset unit).1 = some offset ∧
      (part size offset unit).2.toNat = min (size.toNat - offset.toNat) unit.toNat := by
  have hremaining := toNat_remaining (Nat.le_of_lt hlt)
  have hpositive : 0 < (size - offset).toInt := by
    rw [BitVec.toInt_eq_toNat_cond, hremaining, if_pos (by omega)]
    omega
  rw [← hremaining]
  exact part_some hpositive

/-- A page that starts at the end of the buffer or at most `2^31` behind it. -/
theorem part_behind (hle : size.toNat ≤ offset.toNat) (hnear : offset.toNat ≤ size.toNat + 2 ^ 31) :
    part size offset unit = (none, 0) := by
  have hoffset := offset.isLt
  apply part_none
  rw [BitVec.toInt_eq_toNat_cond, BitVec.toNat_sub]
  split
  · omega
  · omega

/-- A page that starts `2^31` or more before the end gets nothing. -/
theorem part_far (hlt : offset.toNat < size.toNat) (hfar : 2 ^ 31 ≤ size.toNat - offset.toNat) :
    part size offset unit = (none, 0) := by
  have hsize := size.isLt
  apply part_none
  rw [BitVec.toInt_eq_toNat_cond, toNat_remaining (Nat.le_of_lt hlt), if_neg (by omega)]
  omega

/-- A page that starts more than `2^31` behind the end gets a part out of the buffer. -/
theorem part_wild (hunit : 0 < unit.toNat) (hwild : size.toNat + 2 ^ 31 < offset.toNat) :
    (part size offset unit).1 = some offset ∧ 0 < (part size offset unit).2.toNat := by
  have hoffset := offset.isLt
  have hremaining : (size - offset).toNat = 2 ^ 32 + size.toNat - offset.toNat := by
    rw [BitVec.toNat_sub]
    omega
  have hpositive : 0 < (size - offset).toInt := by
    rw [BitVec.toInt_eq_toNat_cond, hremaining, if_pos (by omega)]
    omega
  obtain ⟨hsome, hpart⟩ := @part_some size offset unit hpositive
  refine ⟨hsome, ?_⟩
  rw [hpart, hremaining]
  omega

/-- A part is at most one page long. -/
theorem part_le : (part size offset unit).2.toNat ≤ unit.toNat := by
  unfold part
  by_cases hpositive : 0 < (size - offset).toInt
  · simp only [if_pos hpositive, gt_iff_lt, BitVec.lt_def]
    split
    · exact Nat.le_refl _
    · omega
  · simp only [if_neg hpositive]
    exact Nat.zero_le _

/-- A part lies behind the start of its page. -/
theorem le_of_mem_part {k : ℕ} (h : k ∈ indices (part size offset unit).1 (part size offset unit).2) :
    offset.toNat ≤ k := by
  unfold part at h
  by_cases hpositive : 0 < (size - offset).toInt
  · simp only [if_pos hpositive] at h
    obtain ⟨j, -, rfl⟩ := List.mem_map.1 h
    exact Nat.le_add_right _ _
  · simp only [if_neg hpositive] at h
    exact absurd h List.not_mem_nil

end Part

/-! ### All parts of one buffer -/

section Parts

variable {size unit : BitVec 32} {n : ℕ}

/-- Page `i`'s part of a buffer. -/
def pagePart (size unit : BitVec 32) (i : ℕ) : Option (BitVec 32) × BitVec 32 :=
  part size ((BitVec.ofNat 16 i).setWidth 32 * unit) unit

/-- The places of a buffer the parts of `n` pages cover, in order. -/
def covered (size unit : BitVec 32) (n : ℕ) : List ℕ :=
  (List.range n).flatMap fun i => indices (pagePart size unit i).1 (pagePart size unit i).2

/-- `remaining` has the sign of the true difference on all of `n` pages. -/
structure SignsRight (size unit : BitVec 32) (n : ℕ) : Prop where
  before : size.toNat < 2 ^ 31
  behind : (n - 1) * unit.toNat ≤ size.toNat + 2 ^ 31

theorem mem_covered {k : ℕ} : k ∈ covered size unit n ↔
    ∃ i < n, k ∈ indices (pagePart size unit i).1 (pagePart size unit i).2 := by
  simp only [covered, List.mem_flatMap, List.mem_range]

/-- The places of page `i`'s part, with the right signs. -/
theorem indices_pagePart (hunit16 : unit.toNat < 2 ^ 16) (hn16 : n ≤ 2 ^ 16)
    (h : SignsRight size unit n) {i : ℕ} (hi : i < n) :
    indices (pagePart size unit i).1 (pagePart size unit i).2 =
      (List.range (min (size.toNat - i * unit.toNat) unit.toNat)).map (i * unit.toNat + ·) := by
  have hstart := toNat_start (i := i) (by omega) hunit16
  have hlast : i * unit.toNat ≤ (n - 1) * unit.toNat := Nat.mul_le_mul_right _ (by omega)
  have hbefore := h.before
  have hbehind := h.behind
  rcases Nat.lt_or_ge (i * unit.toNat) size.toNat with hlt | hge
  · obtain ⟨hsome, hsize⟩ := @part_inside size _ unit (hstart ▸ hlt) (by omega)
    rw [pagePart, hsome, indices, hsize, hstart]
  · have hnone := @part_behind size _ unit (hstart ▸ hge) (by omega)
    have hempty : min (size.toNat - i * unit.toNat) unit.toNat = 0 := by omega
    rw [pagePart, hnone, hempty]
    rfl

/-- **With the right signs the parts cover the buffer**, each place once and in order. -/
theorem covered_eq_range (hunit : 0 < unit.toNat) (hunit16 : unit.toNat < 2 ^ 16) (hn16 : n ≤ 2 ^ 16)
    (hcount : Chunks.count size.toNat unit.toNat ≤ n) (h : SignsRight size unit n) :
    covered size unit n = List.range size.toNat := by
  have hparts : covered size unit n = (List.range n).flatMap fun i =>
      (List.range (min (size.toNat - i * unit.toNat) unit.toNat)).map (i * unit.toNat + ·) := by
    apply List.flatMap_congr
    intro i hi
    exact indices_pagePart hunit16 hn16 h (List.mem_range.1 hi)
  -- the pages behind the last one of this buffer add nothing
  have hempty : ((List.range (n - Chunks.count size.toNat unit.toNat)).map
      (Chunks.count size.toNat unit.toNat + ·)).flatMap (fun i =>
        (List.range (min (size.toNat - i * unit.toNat) unit.toNat)).map (i * unit.toNat + ·)) = [] := by
    rw [List.flatMap_eq_nil_iff]
    intro i hi
    obtain ⟨j, -, rfl⟩ := List.mem_map.1 hi
    have hfull := Chunks.le_count_mul size.toNat hunit
    have hbehind : Chunks.count size.toNat unit.toNat * unit.toNat ≤
        (Chunks.count size.toNat unit.toNat + j) * unit.toNat := Nat.mul_le_mul_right _ (by omega)
    have hzero : min (size.toNat - (Chunks.count size.toNat unit.toNat + j) * unit.toNat) unit.toNat = 0 := by
      omega
    rw [hzero]
    rfl
  rw [hparts, ← Nat.add_sub_cancel' hcount, List.range_add, List.flatMap_append, hempty,
    List.append_nil, ← Chunks.range_chunks hunit]

/-- **Otherwise they do not.** -/
theorem signsRight_of_covered (hunit : 0 < unit.toNat) (hunit16 : unit.toNat < 2 ^ 16)
    (hn16 : n ≤ 2 ^ 16) (h : covered size unit n = List.range size.toNat) : SignsRight size unit n := by
  constructor
  · by_contra hlarge
    -- the first place is in no part: page 0 gets nothing, and the others start behind it
    have hmem : 0 ∈ covered size unit n := by
      rw [h, List.mem_range]
      omega
    obtain ⟨i, hi, hzero⟩ := mem_covered.1 hmem
    have hstart := toNat_start (i := i) (by omega) hunit16
    rcases Nat.eq_zero_or_pos i with rfl | hpos
    · rw [Nat.zero_mul] at hstart
      rw [pagePart, part_far (by omega) (by omega)] at hzero
      exact absurd hzero List.not_mem_nil
    · have hbehind : 0 < i * unit.toNat := Nat.mul_pos hpos hunit
      have hle := le_of_mem_part hzero
      omega
  · by_contra hwild
    -- the last page starts a part behind the end
    have hpos : 0 < n := by
      rcases Nat.eq_zero_or_pos n with rfl | hpos
      · simp at hwild
      · exact hpos
    have hstart := toNat_start (i := n - 1) (by omega) hunit16
    obtain ⟨hsome, hsize⟩ := @part_wild size ((BitVec.ofNat 16 (n - 1)).setWidth 32 * unit) unit
      hunit (by omega)
    have hmem : (n - 1) * unit.toNat ∈ covered size unit n := by
      rw [mem_covered]
      refine ⟨n - 1, by omega, ?_⟩
      rw [pagePart, hsome, indices, List.mem_map]
      exact ⟨0, List.mem_range.2 hsize, by omega⟩
    rw [h, List.mem_range] at hmem
    omega

end Parts

/-! ### The operation -/

/-- The slice of page `i`. -/
def slice (g : NandGeometry) (op : NandOperation) (i : ℕ) : NandOperationSlice :=
  getOperationSlice g op (BitVec.ofNat 16 i)

/-- The slices of the affected pages partition the operation. -/
structure Partitioned (g : NandGeometry) (op : NandOperation) : Prop where
  offset : ∀ i < (affectedPagesCount g op).toNat,
    (slice g op i).offset.toNat = op.offset.toNat + i * g.pageSize.toNat
  /-- A data part is at most one page long. -/
  dataAtMost : ∀ i < (affectedPagesCount g op).toNat, (slice g op i).dataSize.toNat ≤ g.pageSize.toNat
  /-- The data parts are consecutive and cover the data buffer. -/
  data : (List.range (affectedPagesCount g op).toNat).flatMap
      (fun i => indices (slice g op i).dataBuffer (slice g op i).dataSize) =
    List.range op.dataSize.toNat
  spareAtMost : ∀ i < (affectedPagesCount g op).toNat,
    (slice g op i).spareSize.toNat ≤ g.spareAreaPerPage.toNat
  spare : (List.range (affectedPagesCount g op).toNat).flatMap
      (fun i => indices (slice g op i).spareBuffer (slice g op i).spareSize) =
    List.range op.spareSize.toNat
  /-- Only the last slice could be empty in both parts. -/
  nonempty : ∀ i, i + 1 < (affectedPagesCount g op).toNat →
    (slice g op i).dataSize ≠ 0 ∨ (slice g op i).spareSize ≠ 0

theorem take_drop_eq_filterMap {α : Type*} (l : List α) (a n : ℕ) :
    (l.drop a).take n = (List.range n).filterMap ((l[·]?) ∘ (a + ·)) := by
  induction n with
  | zero => rfl
  | succ n ih =>
    rw [List.take_add_one, ih, List.range_succ, List.filterMap_append, List.getElem?_drop]
    cases h : l[a + n]? with
    | none => simp [h]
    | some x => simp [h]

/-- Parts that cover the places of a buffer concatenate to what is in it. -/
theorem flatMap_contents {α : Type*} {buffer : List α} {n size : ℕ} (hsize : buffer.length = size)
    {start : ℕ → Option (BitVec 32)} {length : ℕ → BitVec 32}
    (h : (List.range n).flatMap (fun i => indices (start i) (length i)) = List.range size) :
    (List.range n).flatMap (fun i => contents buffer (start i) (length i)) = buffer := by
  -- a part holds what the buffer holds at its places
  have hpart (s : Option (BitVec 32)) (len : BitVec 32) :
      contents buffer s len = (indices s len).filterMap (buffer[·]?) := by
    cases s with
    | none => rfl
    | some s =>
      rw [contents, indices, List.filterMap_map]
      exact take_drop_eq_filterMap buffer s.toNat len.toNat
  calc (List.range n).flatMap (fun i => contents buffer (start i) (length i))
      = ((List.range n).flatMap fun i => indices (start i) (length i)).filterMap (buffer[·]?) := by
        rw [List.filterMap_flatMap]
        exact List.flatMap_congr fun i _ => hpart _ _
    _ = (List.range size).filterMap (buffer[·]?) := by rw [h]
    _ = buffer := by
        have hwhole := take_drop_eq_filterMap buffer 0 size
        have hplaces : (buffer[·]?) ∘ (0 + ·) = (buffer[·]?) := by
          funext k
          simp only [Function.comp_apply, Nat.zero_add]
        rw [hplaces, List.drop_zero, ← hsize, List.take_length] at hwhole
        rw [← hsize]
        exact hwhole.symm

theorem Partitioned.data_contents {α : Type*} (h : Partitioned g op) {buffer : List α}
    (hsize : buffer.length = op.dataSize.toNat) :
    (List.range (affectedPagesCount g op).toNat).flatMap
      (fun i => contents buffer (slice g op i).dataBuffer (slice g op i).dataSize) = buffer :=
  flatMap_contents hsize h.data

theorem Partitioned.spare_contents {α : Type*} (h : Partitioned g op) {buffer : List α}
    (hsize : buffer.length = op.spareSize.toNat) :
    (List.range (affectedPagesCount g op).toNat).flatMap
      (fun i => contents buffer (slice g op i).spareBuffer (slice g op i).spareSize) = buffer :=
  flatMap_contents hsize h.spare

/-- The data are less than `2^31` bytes, the last page starts at most `2^31` bytes behind
their end, and its offset fits 32 bits. -/
structure Sliceable (g : NandGeometry) (op : NandOperation) : Prop where
  data : op.dataSize.toNat < 2 ^ 31
  behind : (pages g op - 1) * g.pageSize.toNat ≤ op.dataSize.toNat + 2 ^ 31
  offset : op.offset.toNat + (pages g op - 1) * g.pageSize.toNat < 2 ^ 32

/-- The spare buffer has a byte of its unit for each of the 65535 pages: its signs are
always right. -/
theorem spare_signsRight (hfit : pages g op < 2 ^ 16) :
    SignsRight op.spareSize (g.spareAreaPerPage.setWidth 32) (pages g op) := by
  have hunit := g.spareAreaPerPage.isLt
  have hcount : Chunks.count op.spareSize.toNat g.spareAreaPerPage.toNat ≤ pages g op := le_max_right _ _
  have hfull := Chunks.le_count_mul op.spareSize.toNat g.spareAreaPerPage_pos
  have hsize : Chunks.count op.spareSize.toNat g.spareAreaPerPage.toNat * g.spareAreaPerPage.toNat ≤
      2 ^ 16 * 2 ^ 8 := Nat.mul_le_mul (by omega) (by omega)
  have hlast : (pages g op - 1) * g.spareAreaPerPage.toNat ≤ 2 ^ 16 * 2 ^ 8 :=
    Nat.mul_le_mul (by omega) (by omega)
  constructor
  · omega
  · rw [toNat_spareAreaPerPage]
    exact Nat.le_trans hlast (by omega)

/-- Both buffers at the widths of the geometry. -/
theorem units_lt : (g.pageSize.setWidth 32).toNat < 2 ^ 16 ∧
    (g.spareAreaPerPage.setWidth 32).toNat < 2 ^ 16 := by
  have hpage := g.pageSize.isLt
  have hspare := g.spareAreaPerPage.isLt
  rw [toNat_pageSize, toNat_spareAreaPerPage]
  omega

theorem slice_offset_iff {i : ℕ} (hi : i < 2 ^ 16) :
    (slice g op i).offset.toNat = op.offset.toNat + i * g.pageSize.toNat ↔
      op.offset.toNat + i * g.pageSize.toNat < 2 ^ 32 := by
  have hstart := toNat_start hi (units_lt (g := g)).1
  rw [toNat_pageSize] at hstart
  have hoffset : (slice g op i).offset.toNat =
      (op.offset.toNat + i * g.pageSize.toNat) % 2 ^ 32 := by
    unfold slice getOperationSlice
    rw [BitVec.toNat_add, hstart]
  rw [hoffset]
  omega

/-- A page inside a buffer gets some of it. -/
theorem pagePart_pos {size unit : BitVec 32} {n i : ℕ} (hunit : 0 < unit.toNat)
    (hunit16 : unit.toNat < 2 ^ 16) (hi16 : i < 2 ^ 16) (h : SignsRight size unit n)
    (hi : i * unit.toNat < size.toNat) : (pagePart size unit i).2 ≠ 0 := by
  have hstart := toNat_start hi16 hunit16
  have hbefore := h.before
  obtain ⟨-, hsize⟩ := @part_inside size _ unit (hstart ▸ hi) (by omega)
  intro hzero
  rw [pagePart] at hzero
  rw [hzero, hstart] at hsize
  simp only [BitVec.ofNat_eq_ofNat, BitVec.toNat_ofNat] at hsize
  omega

/-- **When the slices partition the operation**, for a number of pages the counter holds. -/
theorem partitioned_iff (g : NandGeometry) (op : NandOperation) (hfit : pages g op < 2 ^ 16) :
    Partitioned g op ↔ Sliceable g op := by
  have hcounter := toNat_affectedPagesCount hfit
  obtain ⟨hpage16, hspare16⟩ := units_lt (g := g)
  have hpagePos : 0 < (g.pageSize.setWidth 32).toNat := toNat_pageSize ▸ g.pageSize_pos
  have hsparePos : 0 < (g.spareAreaPerPage.setWidth 32).toNat :=
    toNat_spareAreaPerPage ▸ g.spareAreaPerPage_pos
  have hspareSigns := spare_signsRight hfit
  constructor
  · intro h
    have hsigns := signsRight_of_covered hpagePos hpage16 (Nat.le_of_lt hfit) (hcounter ▸ h.data)
    refine ⟨hsigns.before, ?_, ?_⟩
    · have hbehind := hsigns.behind
      rw [toNat_pageSize] at hbehind
      exact hbehind
    · rcases Nat.eq_zero_or_pos (pages g op) with hnone | hsome
      · have hoffset := op.offset.isLt
        rw [hnone]
        omega
      · exact (slice_offset_iff (by omega)).1 (h.offset (pages g op - 1) (by omega))
  · intro h
    have hsigns : SignsRight op.dataSize (g.pageSize.setWidth 32) (pages g op) := by
      refine ⟨h.data, ?_⟩
      rw [toNat_pageSize]
      exact h.behind
    have hdata := covered_eq_range hpagePos hpage16 (Nat.le_of_lt hfit)
      (by rw [toNat_pageSize]; exact le_max_left _ _) hsigns
    have hspare := covered_eq_range hsparePos hspare16 (Nat.le_of_lt hfit)
      (by rw [toNat_spareAreaPerPage]; exact le_max_right _ _) hspareSigns
    refine ⟨?_, ?_, ?_, ?_, ?_, ?_⟩
    · intro i hi
      have hle : i * g.pageSize.toNat ≤ (pages g op - 1) * g.pageSize.toNat :=
        Nat.mul_le_mul_right _ (by omega)
      have hoffset := h.offset
      exact (slice_offset_iff (by omega)).2 (by omega)
    · intro i _
      exact Nat.le_trans part_le (Nat.le_of_eq toNat_pageSize)
    · rw [hcounter]
      exact hdata
    · intro i _
      exact Nat.le_trans part_le (Nat.le_of_eq toNat_spareAreaPerPage)
    · rw [hcounter]
      exact hspare
    · intro i hi
      rw [hcounter] at hi
      -- the larger of the two counts is that of a buffer page `i` lies in
      rcases Nat.le_total (Chunks.count op.spareSize.toNat g.spareAreaPerPage.toNat)
        (Chunks.count op.dataSize.toNat g.pageSize.toNat) with hle | hle
      · have hcount : i < Chunks.count op.dataSize.toNat g.pageSize.toNat := by
          rw [pages, max_eq_left hle] at hi
          omega
        have hinside := Chunks.start_lt g.pageSize_pos hcount
        rw [← toNat_pageSize] at hinside
        exact .inl (pagePart_pos hpagePos hpage16 (by omega) hsigns hinside)
      · have hcount : i < Chunks.count op.spareSize.toNat g.spareAreaPerPage.toNat := by
          rw [pages, max_eq_right hle] at hi
          omega
        have hinside := Chunks.start_lt g.spareAreaPerPage_pos hcount
        rw [← toNat_spareAreaPerPage] at hinside
        exact .inr (pagePart_pos hsparePos hspare16 (by omega) hspareSigns hinside)

/-- Pages of at most 32 KB: only the last offset is left to look at. -/
theorem sliceable_of_small_pages (hfit : pages g op < 2 ^ 16) (hpage : g.pageSize.toNat ≤ 2 ^ 15)
    (hoffset : op.offset.toNat + (pages g op - 1) * g.pageSize.toNat < 2 ^ 32) : Sliceable g op := by
  have hcount : Chunks.count op.dataSize.toNat g.pageSize.toNat ≤ pages g op := le_max_left _ _
  have hfull := Chunks.le_count_mul op.dataSize.toNat g.pageSize_pos
  have hsize : Chunks.count op.dataSize.toNat g.pageSize.toNat * g.pageSize.toNat ≤
      (2 ^ 16 - 1) * 2 ^ 15 := Nat.mul_le_mul (by omega) hpage
  have hlast : (pages g op - 1) * g.pageSize.toNat ≤ (2 ^ 16 - 1) * 2 ^ 15 :=
    Nat.mul_le_mul (by omega) hpage
  exact ⟨by omega, Nat.le_trans hlast (by omega), hoffset⟩

/-- Pages of 512 bytes with 16 spare bytes. -/
def smallPages : NandGeometry where
  pageSize := 512
  spareAreaPerPage := 16
  pageSize_pos := by decide
  spareAreaPerPage_pos := by decide

/-- Three pages for the data and five for the spare bytes. -/
theorem smallPages_partitioned : Partitioned smallPages ⟨256, 1025, 65⟩ :=
  (partitioned_iff smallPages ⟨256, 1025, 65⟩ (by decide)).2
    ⟨by decide, by decide, by decide⟩

/-- A geometry with pages of 65535 bytes. -/
def largePages : NandGeometry where
  pageSize := 65535
  spareAreaPerPage := 255
  pageSize_pos := by decide
  spareAreaPerPage_pos := by decide

/-- `2^31` bytes on 32769 pages: the first slice is empty. -/
theorem largePages_not_partitioned :
    pages largePages ⟨0, 0x80000000, 0⟩ < 2 ^ 16 ∧
      slice largePages ⟨0, 0x80000000, 0⟩ 0 = ⟨0, none, 0, none, 0⟩ ∧
      ¬ Partitioned largePages ⟨0, 0x80000000, 0⟩ := by
  refine ⟨by decide, by decide, ?_⟩
  intro h
  have hfirst := h.nonempty 0 (by decide)
  exact absurd hfirst (by decide)

end Nand

end PWSat2OBC
