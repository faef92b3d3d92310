import PWSat2OBC.Lib.Chunks
import PWSat2OBC.Proof.BootTable
import PWSat2OBC.Spec.ApplicationLoad

/-!
# What `LoadApplicationTMR` leaves in the flash of the MCU

Nothing bounds the length that is voted (`votedLength`), while the program is read in whole pages behind
the header of the slot. 127 pages fit there. Up to this length the load is complete
(`Loaded`): after `k` pages the flash holds the vote on the first `k` pages of the content
areas (`Progress`). One byte more, and a page is read that reaches into the next slot; from
`0xFFFFF001` on the offset wraps around before it reaches the length, and the loop does
not end.
-/

namespace PWSat2OBC.ApplicationLoad

open Voting ProgramEntry

variable (flash : Flash) (slots : List Byte)

/-- Where the content of an entry starts. -/
def contentStart (entry : Byte) : ℕ := inFlashOffset entry + 1024

/-- The number of whole pages in a content area. -/
def wholePages : ℕ := (ProgramEntry.size - 1024) / pageSize

/-- The vote on byte `i` of the content areas. -/
def contentMajority (i : ℕ) : Byte :=
  majority3 (flash (contentStart (slots.getD 0 0) + i)) (flash (contentStart (slots.getD 1 0) + i))
    (flash (contentStart (slots.getD 2 0) + i))

/-- The vote on page `k`. -/
def majorityPage (k : ℕ) : List Byte :=
  (List.range pageSize).map fun i => contentMajority flash slots (k * pageSize + i)

/-- The vote on the `Length` fields of the three entries. -/
def votedLength : BitVec 32 :=
  vote [ProgramEntry.length flash (slots.getD 0 0), ProgramEntry.length flash (slots.getD 1 0),
    ProgramEntry.length flash (slots.getD 2 0)]

/-- This is what the loop goes by. -/
theorem length_eq_votedLength : length flash slots = votedLength flash slots :=
  Redundancy.correct_eq_vote _ _ _

/-- The number of pages that hold the program. -/
def pages : ℕ := Chunks.count (votedLength flash slots).toNat pageSize

/-- The address of page `k` in the flash of the MCU. -/
def pageAddress (k : ℕ) : ℕ := applicationBase + k * pageSize

/-- **A complete load.** -/
structure Loaded (before : McuFlash) (after : LoadState) : Prop where
  /-- The application is the vote, up to the length rounded up to pages. -/
  copied : ∀ i < pages flash slots * pageSize,
    after.mcuFlash (applicationBase + i) = contentMajority flash slots i
  kept : ∀ a, (a < applicationBase ∨ applicationBase + pages flash slots * pageSize ≤ a) →
    after.mcuFlash a = before a
  /-- The pages written are those that differed. -/
  rewritten : after.programmed = ((List.range (pages flash slots)).filter fun k =>
    Memory.block before (pageAddress k) pageSize ≠ majorityPage flash slots k).map pageAddress
  /-- What was read lies in the content areas of the slots. -/
  inside : ∀ span ∈ after.reads, ∃ entry ∈ entries slots,
    contentStart entry ≤ span.1 ∧ span.1 + span.2 ≤ inFlashOffset entry + ProgramEntry.size
  /-- What was written lies in the space for the application. -/
  reserved : ∀ ptr ∈ after.programmed,
    applicationBase ≤ ptr ∧ ptr + pageSize ≤ applicationBase + applicationSize

/-! ## One page -/

section

variable {flash slots} {before : McuFlash} {k bufferAddr : ℕ} {s : LoadState}

@[simp] theorem length_majorityPage (k : ℕ) : (majorityPage flash slots k).length = pageSize := by
  rw [majorityPage, List.length_map, List.length_range]

theorem programBases_eq (slots : List Byte) : programBases slots = (entries slots).map contentStart := by
  unfold programBases
  apply List.map_congr_left
  intro entry _
  exact baseOffset_spanAt entry (by decide)

/-- A page of a content area that is inside the address space. -/
theorem start_eq (entry : Byte) (hk : k ≤ 128) :
    (contentStart entry + k * pageSize) % 2 ^ 32 = contentStart entry + k * pageSize := by
  have hentry := inFlashOffset_le entry
  unfold contentStart pageSize size at *
  exact Nat.mod_eq_of_lt (by omega)

/-- The addresses of the pages are aligned. -/
theorem aligned (entry : Byte) (k : ℕ) :
    (Flash.flashBase + (contentStart entry + k * pageSize)) % 4 = 0 := by
  unfold Flash.flashBase contentStart inFlashOffset size pageSize
  omega

/-- The page buffer takes the vote. -/
theorem pageBuffer_loadPage (hs : s.pageBuffer.length = pageSize) (hk : k ≤ 128) :
    (loadPage flash slots bufferAddr (k * pageSize) s).pageBuffer = majorityPage flash slots k := by
  have hvote := Redundancy.correctBufferTo_map
    (fun i => flash (contentStart (slots.getD 0 0) + k * pageSize + i))
    (fun i => flash (contentStart (slots.getD 1 0) + k * pageSize + i))
    (fun i => flash (contentStart (slots.getD 2 0) + k * pageSize + i)) (List.range pageSize)
    ⟨bufferAddr, s.pageBuffer⟩ (by rw [Span.length, hs, List.length_range])
    (by rw [List.length_range]; rfl) (aligned (slots.getD 0 0) k) (aligned (slots.getD 1 0) k)
    (aligned (slots.getD 2 0) k)
  unfold loadPage
  simp only [programBases_eq, entries, List.map_cons, List.map_nil, start_eq _ hk, List.getD_cons_zero,
    List.getD_cons_succ, Flash.span]
  rw [hvote, majorityPage]
  dsimp only
  apply List.map_congr_left
  intro i _
  simp only [contentMajority, Nat.add_assoc]

/-- Writing a page that lies in the flash overwrites it. -/
theorem programBlock_eq {data : List Byte} {base : ℕ} (m : McuFlash) (hdata : data.length = pageSize)
    (hbase : base < Msc.flashSize) : programBlock data base m = Memory.overwrite m base data := by
  have hfits : data.length ≤ McuFlash.sectorSize := by
    rw [hdata]
    rfl
  have herase := Memory.program_erase m base hfits
  rw [hdata, show McuFlash.sectorSize - pageSize = 0 from rfl, List.replicate_zero, List.append_nil]
    at herase
  unfold programBlock Msc.writeWord Msc.erasePage
  rw [if_pos hbase, if_pos hbase]
  exact herase

theorem ptr_eq (hk : k < 128) : (applicationBase + k * pageSize) % 2 ^ 32 = pageAddress k := by
  unfold pageAddress applicationBase pageSize
  exact Nat.mod_eq_of_lt (by omega)

theorem pageAddress_lt (hk : k < 128) : pageAddress k < Msc.flashSize := by
  unfold pageAddress applicationBase pageSize Msc.flashSize
  omega

/-- Whether it is written or left alone, the page then holds the vote. -/
theorem mcuFlash_loadPage (hs : s.pageBuffer.length = pageSize) (hk : k < 128) :
    (loadPage flash slots bufferAddr (k * pageSize) s).mcuFlash =
      Memory.overwrite s.mcuFlash (pageAddress k) (majorityPage flash slots k) := by
  have hbuffer := @pageBuffer_loadPage flash slots k bufferAddr s hs hk.le
  unfold loadPage at hbuffer ⊢
  dsimp only at hbuffer ⊢
  rw [hbuffer, ptr_eq hk, programBlock_eq _ (length_majorityPage k) (pageAddress_lt hk)]
  simp only [beq_iff_eq, eq_comm (a := majorityPage flash slots k)]
  exact Memory.overwrite_unless s.mcuFlash (pageAddress k) pageSize (majorityPage flash slots k)

theorem programmed_loadPage (hs : s.pageBuffer.length = pageSize) (hk : k < 128) :
    (loadPage flash slots bufferAddr (k * pageSize) s).programmed =
      if Memory.block s.mcuFlash (pageAddress k) pageSize = majorityPage flash slots k then s.programmed
      else s.programmed ++ [pageAddress k] := by
  have hbuffer := @pageBuffer_loadPage flash slots k bufferAddr s hs hk.le
  unfold loadPage at hbuffer ⊢
  dsimp only at hbuffer ⊢
  rw [hbuffer, ptr_eq hk]
  simp only [beq_iff_eq, eq_comm (a := majorityPage flash slots k)]

theorem reads_loadPage (offset : ℕ) :
    (loadPage flash slots bufferAddr offset s).reads =
      s.reads ++ (entries slots).map fun entry => ((contentStart entry + offset) % 2 ^ 32, pageSize) := by
  unfold loadPage
  dsimp only
  rw [programBases_eq, List.map_map, List.map_map]
  congr 1

/-! ## The loop -/

/-- After `k` pages. -/
structure Progress (flash : Flash) (slots : List Byte) (before : McuFlash) (k : ℕ) (s : LoadState) :
    Prop where
  mcuFlash : s.mcuFlash =
    Memory.overwrite before applicationBase ((List.range (k * pageSize)).map (contentMajority flash slots))
  pageBuffer : s.pageBuffer.length = pageSize
  programmed : s.programmed = ((List.range k).filter fun j =>
    Memory.block before (pageAddress j) pageSize ≠ majorityPage flash slots j).map pageAddress
  reads : ∀ span ∈ s.reads, ∃ entry ∈ entries slots, ∃ j < k,
    span = (contentStart entry + j * pageSize, pageSize)

theorem Progress.step (h : Progress flash slots before k s) (hk : k < 128) :
    Progress flash slots before (k + 1) (loadPage flash slots bufferAddr (k * pageSize) s) where
  mcuFlash := by
    have happend := Memory.overwrite_append before applicationBase
      ((List.range (k * pageSize)).map (contentMajority flash slots)) (majorityPage flash slots k)
    rw [List.length_map, List.length_range] at happend
    rw [mcuFlash_loadPage h.pageBuffer hk, h.mcuFlash]
    unfold pageAddress
    rw [happend, Nat.succ_mul, List.range_add, List.map_append, List.map_map, majorityPage]
    rfl
  pageBuffer := by rw [pageBuffer_loadPage h.pageBuffer hk.le, length_majorityPage]
  programmed := by
    -- the pages written so far do not meet page `k`
    have hbehind : Memory.block s.mcuFlash (pageAddress k) pageSize =
        Memory.block before (pageAddress k) pageSize := by
      rw [h.mcuFlash]
      apply Memory.block_overwrite_of_disjoint
      right
      rw [List.length_map, List.length_range]
      exact le_rfl
    rw [programmed_loadPage h.pageBuffer hk, hbehind, h.programmed, List.range_succ, List.filter_append,
      List.map_append]
    split <;> rename_i heq <;> simp [heq]
  reads := by
    intro span hspan
    rw [reads_loadPage, List.mem_append, List.mem_map] at hspan
    rcases hspan with hold | ⟨entry, hentry, rfl⟩
    · obtain ⟨entry, hentry, j, hj, heq⟩ := h.reads span hold
      exact ⟨entry, hentry, j, Nat.lt_succ_of_lt hj, heq⟩
    · exact ⟨entry, hentry, k, Nat.lt_succ_self k, by rw [start_eq entry hk.le]⟩

theorem progress_zero (pageBuffer : PageBuffer) :
    Progress flash slots before 0 ⟨before, pageBuffer.bytes, [], []⟩ where
  mcuFlash := by
    rw [Nat.zero_mul, List.range_zero, List.map_nil]
    exact (Memory.overwrite_block before applicationBase 0).symm
  pageBuffer := pageBuffer.length_bytes
  programmed := rfl
  reads := by intro span hspan; exact absurd hspan List.not_mem_nil

/-- Page `k` is loaded exactly when it starts before the length. -/
theorem lt_pages_iff : k < pages flash slots ↔ k * pageSize < (votedLength flash slots).toNat := by
  constructor
  · intro h; exact Chunks.start_lt (by decide) h
  · intro h
    unfold pages Chunks.count pageSize at *
    omega

/-- There is no page behind the offset at which the loop stops. -/
theorem not_lt_pages {j : ℕ} (hstop : ¬ k * pageSize < (votedLength flash slots).toNat) (hj : k ≤ j) :
    ¬ j < pages flash slots := by
  intro hlt
  exact hstop (lt_pages_iff.1 (lt_of_le_of_lt hj hlt))

/-- The next offset, where it does not wrap around. -/
theorem next_offset (hk : k < 2 ^ 20 - 1) : (k * pageSize + pageSize) % 2 ^ 32 = (k + 1) * pageSize := by
  unfold pageSize
  rw [Nat.succ_mul]
  exact Nat.mod_eq_of_lt (by omega)

/-- **The loop, as far as the content areas go.** -/
theorem loadFrom_progress (bufferAddr : ℕ) (hpages : pages flash slots ≤ 127) (fuel : ℕ)
    (h : Progress flash slots before k s) (hk : k ≤ pages flash slots)
    (hfuel : pages flash slots ≤ k + fuel) :
    ∃ t, loadFrom flash slots bufferAddr fuel (k * pageSize) s = some t ∧
      Progress flash slots before (pages flash slots) t := by
  induction fuel generalizing k s with
  | zero =>
    have hend : k = pages flash slots := by omega
    have hstop : ¬ k * pageSize < (votedLength flash slots).toNat := by rw [← lt_pages_iff]; omega
    refine ⟨s, ?_, hend ▸ h⟩
    rw [loadFrom, length_eq_votedLength, if_neg hstop]
  | succ fuel ih =>
    unfold loadFrom
    rw [length_eq_votedLength]
    rcases Nat.lt_or_ge k (pages flash slots) with hlt | hge
    · rw [if_pos (lt_pages_iff.1 hlt), next_offset (by omega)]
      exact ih (h.step (by omega)) hlt (by omega)
    · have hend : k = pages flash slots := by omega
      rw [if_neg (by rw [← lt_pages_iff]; omega)]
      exact ⟨s, rfl, hend ▸ h⟩

/-- What the loop has read stays read, and it reads every page up to the length. -/
theorem reads_loadFrom (hlength : (votedLength flash slots).toNat ≤ 2 ^ 32 - pageSize) {fuel : ℕ}
    {t : LoadState} (hk : k < 2 ^ 20)
    (h : loadFrom flash slots bufferAddr fuel (k * pageSize) s = some t) :
    s.reads ⊆ t.reads ∧ ∀ j, k ≤ j → j < pages flash slots → ∀ entry ∈ entries slots,
      ((contentStart entry + j * pageSize) % 2 ^ 32, pageSize) ∈ t.reads := by
  induction fuel generalizing k s with
  | zero =>
    unfold loadFrom at h
    rw [length_eq_votedLength] at h
    split at h
    · exact absurd h (by simp)
    · rename_i hstop
      obtain rfl := Option.some.inj h
      exact ⟨List.Subset.refl _, fun j hj hlt => absurd hlt (not_lt_pages hstop hj)⟩
  | succ fuel ih =>
    unfold loadFrom at h
    rw [length_eq_votedLength] at h
    split at h
    · rename_i hgo
      have hlast : k < 2 ^ 20 - 1 := by unfold pageSize at *; omega
      rw [next_offset hlast] at h
      obtain ⟨hsub, hall⟩ := ih (by omega) h
      rw [reads_loadPage, List.append_subset] at hsub
      refine ⟨hsub.1, ?_⟩
      intro j hj hlt entry hentry
      rcases Nat.eq_or_lt_of_le hj with rfl | hnext
      · exact hsub.2 (List.mem_map_of_mem hentry)
      · exact hall j hnext hlt entry hentry
    · rename_i hstop
      obtain rfl := Option.some.inj h
      exact ⟨List.Subset.refl _, fun j hj hlt => absurd hlt (not_lt_pages hstop hj)⟩

/-- **No page is the last one** when the length is behind the start of the last page of the
address space. -/
theorem loadFrom_never (hlength : 2 ^ 32 - pageSize < (votedLength flash slots).toNat) (fuel : ℕ)
    (hk : k < 2 ^ 20) : loadFrom flash slots bufferAddr fuel (k * pageSize) s = none := by
  have hgo : k * pageSize < (votedLength flash slots).toNat := by unfold pageSize at *; omega
  induction fuel generalizing k s with
  | zero => rw [loadFrom, length_eq_votedLength, if_pos hgo]
  | succ fuel ih =>
    have hnext : (k * pageSize + pageSize) % 2 ^ 32 = (k + 1) % 2 ^ 20 * pageSize := by
      unfold pageSize
      omega
    have hlt : (k + 1) % 2 ^ 20 < 2 ^ 20 := Nat.mod_lt _ (by omega)
    rw [loadFrom, length_eq_votedLength, if_pos hgo, hnext]
    apply ih hlt
    unfold pageSize at hlength ⊢
    omega

end

/-! ## Complete loads -/

variable {flash slots} {before : McuFlash}

theorem pages_le_iff :
    pages flash slots ≤ wholePages ↔ (votedLength flash slots).toNat ≤ wholePages * pageSize := by
  rw [← not_lt, ← not_lt, lt_pages_iff]

/-- What is left when all pages are inside the content areas. -/
theorem Progress.loaded {after : LoadState} (hpages : pages flash slots ≤ wholePages)
    (h : Progress flash slots before (pages flash slots) after) : Loaded flash slots before after where
  copied := by
    intro i hi
    have hlt : i < ((List.range (pages flash slots * pageSize)).map (contentMajority flash slots)).length := by
      rw [List.length_map, List.length_range]
      exact hi
    rw [h.mcuFlash, Memory.overwrite_add before hlt, List.getElem_map, List.getElem_range]
  kept := by
    intro a ha
    rw [h.mcuFlash]
    apply Memory.overwrite_of_disjoint
    rwa [List.length_map, List.length_range]
  rewritten := h.programmed
  inside := by
    intro span hspan
    obtain ⟨entry, hentry, j, hj, rfl⟩ := h.reads span hspan
    refine ⟨entry, hentry, ?_⟩
    have hlast : j + 1 ≤ 127 := le_trans hj hpages
    unfold contentStart pageSize size
    dsimp only
    omega
  reserved := by
    intro ptr hptr
    rw [h.programmed] at hptr
    obtain ⟨j, hj, rfl⟩ := List.mem_map.1 hptr
    have hlast : j + 1 ≤ 127 := le_trans (List.mem_range.1 (List.mem_filter.1 hj).1) hpages
    unfold pageAddress applicationBase applicationSize pageSize
    omega

/-- A complete load reads no page behind the whole ones. -/
theorem length_le_of_loaded {fuel : ℕ} {pageBuffer : PageBuffer} {after : LoadState}
    (h : loadApplicationTMR flash slots fuel pageBuffer before = some after)
    (hloaded : Loaded flash slots before after) :
    (votedLength flash slots).toNat ≤ wholePages * pageSize := by
  unfold loadApplicationTMR at h
  rw [show (0 : ℕ) = 0 * pageSize from (Nat.zero_mul _).symm] at h
  rcases Nat.lt_or_ge (2 ^ 32 - pageSize) (votedLength flash slots).toNat with hnever | hlength
  · rw [loadFrom_never hnever fuel (by omega)] at h
    exact absurd h (by simp)
  by_contra hlong
  rw [← pages_le_iff, not_le] at hlong
  -- the page behind the whole ones reaches over the end of its slot
  have hmem := (reads_loadFrom hlength (by omega) h).2 wholePages (Nat.zero_le _) hlong (slots.getD 0 0)
    List.mem_cons_self
  rw [start_eq _ (by decide)] at hmem
  obtain ⟨entry, -, hstart, hend⟩ := hloaded.inside _ hmem
  unfold contentStart inFlashOffset at hstart hend
  have hwhole : wholePages = 127 := by decide
  rw [hwhole] at hstart hend
  unfold pageSize size at hstart hend
  omega

/-- **`LoadApplicationTMR` completes a correct load exactly when the vote on the three lengths ends
in the last whole page of the content areas.** -/
theorem loaded_iff (flash : Flash) (slots : List Byte) (pageBuffer : PageBuffer) (before : McuFlash) :
    (∃ fuel after, loadApplicationTMR flash slots fuel pageBuffer before = some after ∧
        Loaded flash slots before after) ↔
      (votedLength flash slots).toNat ≤ (ProgramEntry.size - 1024) / pageSize * pageSize := by
  constructor
  · rintro ⟨fuel, after, h, hloaded⟩
    exact length_le_of_loaded h hloaded
  · intro hlength
    have hpages : pages flash slots ≤ wholePages := pages_le_iff.2 hlength
    obtain ⟨after, h, hprogress⟩ := loadFrom_progress pageBuffer.addr hpages (pages flash slots)
      (progress_zero pageBuffer) (Nat.zero_le _) (by omega)
    rw [Nat.zero_mul] at h
    exact ⟨_, after, h, hprogress.loaded hpages⟩

/-- Valid slots with a program of one byte more than 127 pages. -/
def longProgram : Flash := fun a =>
  if a % ProgramEntry.size = 64 then 0xAA
  else (Redundancy.storeWord 520193).getD (a % ProgramEntry.size) 0

/-- No load of the program is complete. -/
theorem longProgram_not_loaded :
    ¬ ∃ fuel after, loadApplicationTMR longProgram [0, 1, 2] fuel
        ⟨0x20000000, List.replicate 4096 0, List.length_replicate⟩ (fun _ => 0xFF) = some after ∧
      Loaded longProgram [0, 1, 2] (fun _ => 0xFF) after := by
  rintro ⟨fuel, after, h, hloaded⟩
  have hle := length_le_of_loaded h hloaded
  have hlength : (votedLength longProgram [0, 1, 2]).toNat = 520193 := by
    rw [← length_eq_votedLength]
    decide
  rw [hlength] at hle
  exact absurd hle (by decide)

end PWSat2OBC.ApplicationLoad
