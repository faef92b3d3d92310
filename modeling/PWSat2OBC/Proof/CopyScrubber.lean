import PWSat2OBC.Proof.Redundancy
import PWSat2OBC.Spec.CopyScrubber

/-!
# One scrub restores the bootloader and the safe mode

`Layout copyOf base size`: the five copies of `size` bytes lie in five consecutive sectors
from `base` on. For such copies the vote always runs (`correct_copies`), and the loop over
them leaves the majority in all five (`scrubCopies_inside`). A copy that is rewritten
loses what its sector holds behind it (`scrubCopies_behind`): nothing for the bootloader,
which fills its sectors, and the upper half of the sector for the safe mode.
-/

namespace PWSat2OBC

open Voting

/-! ## The five copies -/

namespace CopyScrubber

structure Layout (copyOf : ℕ → FlashCopy) (base n : ℕ) : Prop where
  offset : ∀ i, (copyOf i).offset = base + 65536 * i
  size : ∀ i, (copyOf i).size = n
  base_aligned : base % 4 = 0
  size_aligned : n % 4 = 0
  fits : n ≤ 65536

variable (copyOf : ℕ → FlashCopy) (flash : Flash)

/-- The 5-way majority of the copies at an offset in the copy. -/
def majorityAt (j : ℕ) : Byte :=
  vote ((List.range 5).map fun i => flash ((copyOf i).offset + j))

def majority (size : ℕ) : List Byte := (List.range size).map (majorityAt copyOf flash)

@[simp] theorem length_majority (size : ℕ) : (majority copyOf flash size).length = size := by
  simp [majority]

variable {copyOf flash} {base size : ℕ}

theorem Layout.content_aligned (h : Layout copyOf base size) (i : ℕ) :
    (Flash.flashBase + (copyOf i).offset) % 4 = 0 := by
  have := h.base_aligned
  rw [h.offset]
  unfold Flash.flashBase
  omega

/-- **The vote always runs**, whatever the buffer held before. -/
theorem correct_copies (h : Layout copyOf base size) (buffer : Span) (hbuffer : buffer.length = size) :
    correct buffer (((List.range 5).map copyOf).map fun copy => copy.content flash) =
      majority copyOf flash size := by
  have hspan : ∀ i, (copyOf i).content flash = ⟨Flash.flashBase + (copyOf i).offset,
      (List.range size).map fun j => flash ((copyOf i).offset + j)⟩ := by
    intro i
    rw [FlashCopy.content, Flash.span, h.size]
  have hvote := Redundancy.correctBuffer5_map
    (fun j => flash ((copyOf 0).offset + j)) (fun j => flash ((copyOf 1).offset + j))
    (fun j => flash ((copyOf 2).offset + j)) (fun j => flash ((copyOf 3).offset + j))
    (fun j => flash ((copyOf 4).offset + j)) size h.size_aligned buffer hbuffer _ _ _ _ _
    (h.content_aligned 0) (h.content_aligned 1) (h.content_aligned 2) (h.content_aligned 3)
    (h.content_aligned 4)
  have hfive : List.range 5 = [0, 1, 2, 3, 4] := rfl
  simp only [correct, hfive, List.map_cons, List.map_nil, List.getD_cons_zero, List.getD_cons_succ,
    hspan]
  exact hvote

/-- Erasing a copy's sector and writing the copy. -/
theorem write_erase (copy : FlashCopy) (flash : Flash) {buffer : List Byte}
    (hbuffer : buffer.length ≤ 65536) :
    copy.write (copy.erase flash) 0 buffer =
      Memory.overwrite flash copy.offset (buffer ++ List.replicate (65536 - buffer.length) 0xFF) :=
  Memory.program_erase flash copy.offset hbuffer

/-- The loop overwrites the sectors of the copies that are not correct. -/
theorem foldl_rewrite (copies : List FlashCopy) (isCorrect : FlashCopy → Bool) {buffer : List Byte}
    (hbuffer : buffer.length ≤ 65536) (st : Flash × BitVec 32) :
    ((copies.zip (copies.map isCorrect)).foldl (rewrite buffer) st).1 =
      ((copies.filter fun copy => !isCorrect copy).map FlashCopy.offset).foldl
        (fun m o => Memory.overwrite m o (buffer ++ List.replicate (65536 - buffer.length) 0xFF))
        st.1 := by
  induction copies generalizing st with
  | nil => rfl
  | cons copy copies ih =>
    rw [List.map_cons, List.zip_cons_cons, List.foldl_cons, ih]
    unfold rewrite
    cases hc : isCorrect copy with
    | true => simp [hc]
    | false => simp [hc, write_erase copy st.1 hbuffer]

/-- Copy `i` holds the majority. -/
def IsCorrect (copyOf : ℕ → FlashCopy) (flash : Flash) (size i : ℕ) : Prop :=
  Memory.block flash (copyOf i).offset size = majority copyOf flash size

variable (flash) {buffer : Span} (copiesCorrected : BitVec 32)

theorem scrubCopies_buffer (h : Layout copyOf base size) (hbuffer : buffer.length = size) :
    (scrubCopies ((List.range 5).map copyOf) buffer flash copiesCorrected).1 =
      majority copyOf flash size :=
  correct_copies h buffer hbuffer

/-- **The loop over the copies**: the sectors overwritten are those of the copies that
differ from the majority. -/
theorem scrubCopies_flash (h : Layout copyOf base size) (hbuffer : buffer.length = size) :
    ∃ os : List ℕ,
      (∀ o, o ∈ os ↔ ∃ i < 5, o = base + 65536 * i ∧ ¬ IsCorrect copyOf flash size i) ∧
      (scrubCopies ((List.range 5).map copyOf) buffer flash copiesCorrected).2.1 =
        os.foldl (fun m o => Memory.overwrite m o
          (majority copyOf flash size ++ List.replicate (65536 - size) 0xFF)) flash := by
  have hfits := h.fits
  have hlength := length_majority copyOf flash size
  let isCorrect : FlashCopy → Bool := fun copy =>
    (majority copyOf flash size).take (copy.content flash).length == (copy.content flash).bytes
  refine ⟨(((List.range 5).map copyOf).filter fun copy => !isCorrect copy).map FlashCopy.offset,
    ?_, ?_⟩
  · have hiff : ∀ i, isCorrect (copyOf i) = true ↔ IsCorrect copyOf flash size i := by
      intro i
      have hsize : ((copyOf i).content flash).length = size := by
        simp [FlashCopy.content, Flash.span, Span.length, h.size]
      have hbytes : ((copyOf i).content flash).bytes = Memory.block flash (copyOf i).offset size := by
        rw [FlashCopy.content, h.size]
        rfl
      simp only [isCorrect, hsize, hbytes, beq_iff_eq]
      rw [List.take_of_length_le (le_of_eq hlength)]
      exact eq_comm
    intro o
    simp only [List.mem_map, List.mem_filter, List.mem_range, Bool.not_eq_true', ← hiff]
    constructor
    · rintro ⟨copy, ⟨⟨i, hi, rfl⟩, hc⟩, rfl⟩
      exact ⟨i, hi, h.offset i, by simp [hc]⟩
    · rintro ⟨i, hi, rfl, hc⟩
      exact ⟨copyOf i, ⟨⟨i, hi, rfl⟩, by simpa using hc⟩, h.offset i⟩
  · have hloop := foldl_rewrite ((List.range 5).map copyOf) isCorrect
      (le_of_eq_of_le hlength hfits) (flash, copiesCorrected)
    rw [hlength] at hloop
    unfold scrubCopies
    dsimp only
    rw [correct_copies h buffer hbuffer, List.map_map]
    exact hloop

theorem length_sector (h : Layout copyOf base size) :
    (majority copyOf flash size ++ List.replicate (65536 - size) (0xFF : Byte)).length = 65536 := by
  have := h.fits
  rw [List.length_append, length_majority, List.length_replicate]
  omega

/-- **All five copies hold the majority.** -/
theorem scrubCopies_inside (h : Layout copyOf base size) (hbuffer : buffer.length = size) {i j : ℕ}
    (hi : i < 5) (hj : j < size) :
    (scrubCopies ((List.range 5).map copyOf) buffer flash copiesCorrected).2.1
      ((copyOf i).offset + j) = majorityAt copyOf flash j := by
  obtain ⟨os, hos, hflash⟩ := scrubCopies_flash flash copiesCorrected h hbuffer
  have hfits := h.fits
  have hlength := length_sector flash h
  rw [hflash]
  by_cases hcorrect : IsCorrect copyOf flash size i
  · -- left alone: it is the majority already
    rw [Memory.foldl_overwrite_of_disjoint]
    · have hj' : j < (majority copyOf flash size).length := by simpa
      have hcell : flash ((copyOf i).offset + j) = (majority copyOf flash size)[j] := by
        rw [← Memory.getElem_block flash (n := size) (by simpa)]
        exact List.getElem_of_eq hcorrect _
      rw [hcell]
      simp [majority]
    · -- the sectors overwritten are those of other copies
      intro o ho
      obtain ⟨k, hk, rfl, hwrong⟩ := (hos o).1 ho
      have hne : k ≠ i := by rintro rfl; exact hwrong hcorrect
      rw [hlength, h.offset]
      omega
  · have hmem := (hos ((copyOf i).offset)).2 ⟨i, hi, h.offset i, hcorrect⟩
    rw [Memory.foldl_overwrite_of_mem flash os _ hmem (by rw [hlength]; omega),
      List.getElem_append_left (by simpa)]
    · simp [majority]
    · intro o ho hne
      obtain ⟨k, hk, rfl, -⟩ := (hos o).1 ho
      rw [hlength]
      rw [h.offset] at hne ⊢
      omega

/-- **Behind a copy** its sector is erased when the copy is rewritten. -/
theorem scrubCopies_behind (h : Layout copyOf base size) (hbuffer : buffer.length = size) {i j : ℕ}
    (hi : i < 5) (hj : size ≤ j) (hj' : j < 65536) :
    (IsCorrect copyOf flash size i →
      (scrubCopies ((List.range 5).map copyOf) buffer flash copiesCorrected).2.1
        ((copyOf i).offset + j) = flash ((copyOf i).offset + j)) ∧
      (¬ IsCorrect copyOf flash size i →
        (scrubCopies ((List.range 5).map copyOf) buffer flash copiesCorrected).2.1
          ((copyOf i).offset + j) = 0xFF) := by
  obtain ⟨os, hos, hflash⟩ := scrubCopies_flash flash copiesCorrected h hbuffer
  have hlength := length_sector flash h
  rw [hflash]
  constructor
  · intro hcorrect
    refine Memory.foldl_overwrite_of_disjoint flash os _ ?_
    intro o ho
    obtain ⟨k, hk, rfl, hwrong⟩ := (hos o).1 ho
    have hne : k ≠ i := by rintro rfl; exact hwrong hcorrect
    rw [hlength, h.offset]
    omega
  · intro hwrong
    -- its own sector is overwritten, and behind the majority with `0xFF`
    have hmem := (hos ((copyOf i).offset)).2 ⟨i, hi, h.offset i, hwrong⟩
    rw [Memory.foldl_overwrite_of_mem flash os _ hmem (by rw [hlength]; omega),
      List.getElem_append_right (by rw [length_majority]; omega), List.getElem_replicate]
    intro o ho hne
    obtain ⟨k, hk, rfl, -⟩ := (hos o).1 ho
    rw [hlength]
    rw [h.offset] at hne ⊢
    omega

/-- Outside the five sectors nothing changes. -/
theorem scrubCopies_outside (h : Layout copyOf base size) (hbuffer : buffer.length = size) {a : ℕ}
    (ha : a < base ∨ base + 5 * 65536 ≤ a) :
    (scrubCopies ((List.range 5).map copyOf) buffer flash copiesCorrected).2.1 a = flash a := by
  obtain ⟨os, hos, hflash⟩ := scrubCopies_flash flash copiesCorrected h hbuffer
  have hlength := length_sector flash h
  rw [hflash]
  refine Memory.foldl_overwrite_of_disjoint flash os _ ?_
  intro o ho
  obtain ⟨k, hk, rfl, -⟩ := (hos o).1 ho
  rw [hlength]
  omega

/-- What a scrub makes of the copies and of the second memory: all hold the 5-way majority,
so what at most two copies of each bit had wrong is undone, and the rest is unchanged, apart
from the sector behind a copy that was not correct. -/
structure Restored (copyOf : ℕ → FlashCopy) (base n : ℕ) (flash flash' : Flash)
    (memory memory' : ℕ → Byte) : Prop where
  copies : ∀ i < 5, ∀ j < n, flash' ((copyOf i).offset + j) = majorityAt copyOf flash j
  second : ∀ j < n, memory' j = majorityAt copyOf flash j
  undone : ∀ j < n, ∀ good : Byte,
    (∀ k < 8, (List.range 5).countP (fun i =>
      decide ((flash ((copyOf i).offset + j)).getLsbD k ≠ good.getLsbD k)) ≤ 2) →
    (∀ i < 5, flash' ((copyOf i).offset + j) = good) ∧ memory' j = good
  behind : ∀ i < 5, ∀ j, n ≤ j → j < 65536 →
    (IsCorrect copyOf flash n i → flash' ((copyOf i).offset + j) = flash ((copyOf i).offset + j)) ∧
      (¬ IsCorrect copyOf flash n i → flash' ((copyOf i).offset + j) = 0xFF)
  outside : ∀ a, a < base ∨ base + 5 * 65536 ≤ a → flash' a = flash a
  outside_second : ∀ a ≥ n, memory' a = memory a

/-- Where at most two copies of each bit are wrong, the majority is right. -/
theorem majorityAt_of_two_wrong {j : ℕ} {good : Byte}
    (hgood : ∀ k < 8, (List.range 5).countP (fun i =>
      decide ((flash ((copyOf i).offset + j)).getLsbD k ≠ good.getLsbD k)) ≤ 2) :
    majorityAt copyOf flash j = good := by
  apply vote_of_few_wrong
  intro k hk
  have := hgood k hk
  rw [List.countP_map, List.length_map, List.length_range]
  simp only [Function.comp_def]
  omega

theorem restored (h : Layout copyOf base size) (hbuffer : buffer.length = size)
    (memory : ℕ → Byte) :
    Restored copyOf base size flash
      (scrubCopies ((List.range 5).map copyOf) buffer flash copiesCorrected).2.1 memory
      (Memory.overwrite memory 0 (majority copyOf flash size)) := by
  have hlength := length_majority copyOf flash size
  have hcopies : ∀ i < 5, ∀ j < size,
      (scrubCopies ((List.range 5).map copyOf) buffer flash copiesCorrected).2.1
        ((copyOf i).offset + j) = majorityAt copyOf flash j :=
    fun i hi j hj => scrubCopies_inside flash copiesCorrected h hbuffer hi hj
  have hsecond : ∀ j < size, Memory.overwrite memory 0 (majority copyOf flash size) j =
      majorityAt copyOf flash j := by
    intro j hj
    have hj' : j < (majority copyOf flash size).length := by rwa [hlength]
    have hcell := Memory.overwrite_add memory (o := 0) hj'
    rw [Nat.zero_add] at hcell
    rw [hcell]
    simp [majority]
  refine ⟨hcopies, hsecond, ?_, ?_, ?_, ?_⟩
  · intro j hj good hgood
    have hmajority := majorityAt_of_two_wrong flash hgood
    exact ⟨fun i hi => (hcopies i hi j hj).trans hmajority, (hsecond j hj).trans hmajority⟩
  · intro i hi j hj hj'
    exact scrubCopies_behind flash copiesCorrected h hbuffer hi hj hj'
  · intro a ha
    exact scrubCopies_outside flash copiesCorrected h hbuffer ha
  · intro a ha
    exact Memory.overwrite_of_disjoint memory (Or.inr (by rw [hlength]; omega))

end CopyScrubber

/-! ## Bootloader -/

namespace BootloaderScrubber

open CopyScrubber

theorem layout : Layout bootloaderCopy (3 * 2 ^ 20) 65536 :=
  ⟨fun _ => rfl, fun _ => rfl, by decide, by decide, by decide⟩

/-- The loop over the MCU flash writes the buffer to it. -/
theorem scrubSector_eq {buffer : List Byte} (hbuffer : buffer.length = 65536)
    (st : McuFlash × BitVec 32) {i : ℕ} (hi : i < 16) :
    (scrubSector buffer st i).1 =
      Memory.overwrite st.1 (i * McuFlash.sectorSize) (Memory.page McuFlash.sectorSize buffer i) := by
  have hpage := Memory.length_page McuFlash.sectorSize buffer (k := 16) (by rw [hbuffer]; rfl) hi
  have hwrite := Memory.program_erase st.1 (i * McuFlash.sectorSize) (le_of_eq hpage)
  rw [hpage, Nat.sub_self, List.replicate_zero, List.append_nil] at hwrite
  rw [← Memory.overwrite_unless st.1 _ McuFlash.sectorSize, ← hwrite]
  unfold scrubSector
  dsimp only
  rw [← Memory.page]
  split
  · rfl
  · rfl

/-- **A scrub with the lock** restores the copies and the MCU flash. -/
theorem scrub_locked (s : BootloaderScrubber) (scrubBuffer : ScrubBuffer) (flash : Flash)
    (mcuFlash : McuFlash) :
    ∃ flash' mcuFlash', (s.scrub true scrubBuffer flash mcuFlash).2 =
        ⟨majority bootloaderCopy flash 65536, flash', mcuFlash'⟩ ∧
      Restored bootloaderCopy (3 * 2 ^ 20) 65536 flash flash' mcuFlash mcuFlash' := by
  have hlength := length_majority bootloaderCopy flash 65536
  have hwhole : (⟨scrubBuffer.addr, scrubBuffer.bytes⟩ : Span).length = 65536 :=
    scrubBuffer.length_bytes
  have hbuffer := scrubCopies_buffer flash s.copiesCorrected layout hwhole
  have hsectors : 65536 / McuFlash.sectorSize = 16 := rfl
  have hall : 16 * McuFlash.sectorSize = 65536 := rfl
  have hloop := Memory.foldl_pages McuFlash.sectorSize (majority bootloaderCopy flash 65536)
    (scrubSector (majority bootloaderCopy flash 65536)) (mcuFlash, s.mcuPagesCorrected)
    (by rw [hlength, hall]) fun st i hi => scrubSector_eq hlength st hi
  rw [hall, List.take_of_length_le (le_of_eq hlength)] at hloop
  refine ⟨_, _, ?_, restored flash s.copiesCorrected layout hwhole mcuFlash⟩
  simp only [scrub, copies, Bool.not_true, Bool.false_eq_true, if_false, hbuffer, hsectors, hloop]

end BootloaderScrubber

/-! ## Safe mode -/

/-- A burst behind the unlocking sequence, cell by cell. -/
theorem foldl_update (eeprom : Eeprom) (offset : ℕ) (xs : List Byte) {n : ℕ} (hn : n ≤ xs.length) :
    ((List.range n).map fun i => (offset + i, xs.getD i 0)).foldl
        (fun eeprom (address, byte) => Function.update eeprom address byte) eeprom =
      Memory.overwrite eeprom offset (xs.take n) := by
  induction n with
  | zero =>
    rw [List.take_zero]
    exact (Memory.overwrite_block eeprom offset 0).symm
  | succ n ih =>
    have hcell : xs.getD n 0 = xs[n] := by
      rw [List.getD_eq_getElem?_getD, List.getElem?_eq_getElem hn, Option.getD_some]
    have hlength : (xs.take n).length = n := by rw [List.length_take]; omega
    have hnext := Memory.overwrite_append eeprom offset (xs.take n) [xs[n]]
    rw [hlength, Memory.overwrite_singleton, List.take_append_getElem] at hnext
    rw [List.range_succ, List.map_append, List.foldl_append, ih (by omega), List.map_cons,
      List.map_nil, List.foldl_cons, List.foldl_nil, hcell]
    exact hnext

namespace SafeModeScrubber

open CopyScrubber

theorem layout : Layout safeModeCopy (3 * 2 ^ 20 + 5 * 65536) 32768 :=
  ⟨fun _ => rfl, fun _ => rfl, by decide, by decide, by decide⟩

/-- The page is stored, -/
theorem burst_pageWrites (eeprom : Eeprom) (offset : ℕ) {part : List Byte} (h : part.length = 64) :
    eeprom.burst (pageWrites offset part) = Memory.overwrite eeprom offset part := by
  have hcells := foldl_update eeprom offset part (le_of_eq h.symm)
  rw [List.take_of_length_le (le_of_eq h)] at hcells
  rw [← hcells]
  rfl

/-- and the loop that waits for it ends. -/
theorem waiting_burst (eeprom : Eeprom) (offset : ℕ) {part : List Byte} (h : part.length = 64) :
    waiting (eeprom.burst (pageWrites offset part)) offset part = false := by
  have hlast : part.getD 63 0 = part[63] := by
    rw [List.getD_eq_getElem?_getD, List.getElem?_eq_getElem (by omega), Option.getD_some]
  rw [waiting, burst_pageWrites eeprom offset h, Memory.overwrite_add eeprom (by omega), hlast,
    bne_self_eq_false]

/-- The loop over the EEPROM writes the buffer to it. -/
theorem scrubPage_eq {buffer : List Byte} (hbuffer : buffer.length = 32768)
    (st : Eeprom × BitVec 32) {i : ℕ} (hi : i < 512) :
    (scrubPage buffer st i).1 = Memory.overwrite st.1 (i * 64) (Memory.page 64 buffer i) := by
  have hpage := Memory.length_page 64 buffer (k := 512) (by rw [hbuffer]) hi
  rw [← Memory.overwrite_unless st.1 _ 64, ← burst_pageWrites st.1 _ hpage]
  unfold scrubPage
  dsimp only
  rw [← Memory.page]
  split
  · rfl
  · rfl

/-- **A scrub with the lock** restores the copies and the EEPROM. -/
theorem scrub_locked (s : SafeModeScrubber) (scrubBuffer : ScrubBuffer) (flash : Flash)
    (eeprom : Eeprom) :
    ∃ flash' eeprom', (s.scrub true scrubBuffer flash eeprom).2 =
        ⟨majority safeModeCopy flash 32768 ++ scrubBuffer.bytes.drop 32768, flash', eeprom'⟩ ∧
      Restored safeModeCopy (3 * 2 ^ 20 + 5 * 65536) 32768 flash flash' eeprom eeprom' := by
  have hlength := length_majority safeModeCopy flash 32768
  have hhalf : ((⟨scrubBuffer.addr, scrubBuffer.bytes⟩ : Span).subspan 0 32768).length = 32768 := by
    simp only [Span.length, Span.subspan, List.drop_zero, List.length_take, scrubBuffer.length_bytes]
    rfl
  have hbuffer := scrubCopies_buffer flash s.copiesCorrected layout hhalf
  have hpages : 32768 / 64 = 512 := rfl
  have hall : 512 * 64 = 32768 := rfl
  have hloop := Memory.foldl_pages 64 (majority safeModeCopy flash 32768)
    (scrubPage (majority safeModeCopy flash 32768)) (eeprom, s.eepromPagesCorrected)
    (by rw [hlength, hall]) fun st i hi => scrubPage_eq hlength st hi
  rw [hall, List.take_of_length_le (le_of_eq hlength)] at hloop
  refine ⟨_, _, ?_, restored flash s.copiesCorrected layout hhalf eeprom⟩
  simp only [scrub, copies, Bool.not_true, Bool.false_eq_true, if_false, hbuffer, hpages, hloop]

end SafeModeScrubber

/-! ## Results -/

open CopyScrubber

theorem BootloaderScrubber.scrub_restored (s : BootloaderScrubber) (scrubBuffer : ScrubBuffer)
    (flash : Flash) (mcuFlash : McuFlash) :
    Restored bootloaderCopy (3 * 2 ^ 20) 65536 flash (s.scrub true scrubBuffer flash mcuFlash).2.flash
      mcuFlash (s.scrub true scrubBuffer flash mcuFlash).2.mcuFlash := by
  obtain ⟨flash', mcuFlash', hscrub, hrestored⟩ := s.scrub_locked scrubBuffer flash mcuFlash
  rw [hscrub]
  exact hrestored

theorem SafeModeScrubber.scrub_restored (s : SafeModeScrubber) (scrubBuffer : ScrubBuffer)
    (flash : Flash) (eeprom : Eeprom) :
    Restored safeModeCopy (3 * 2 ^ 20 + 5 * 65536) 32768 flash
      (s.scrub true scrubBuffer flash eeprom).2.flash
      eeprom (s.scrub true scrubBuffer flash eeprom).2.eeprom := by
  obtain ⟨flash', eeprom', hscrub, hrestored⟩ := s.scrub_locked scrubBuffer flash eeprom
  rw [hscrub]
  exact hrestored

/-- **One scrub with the lock restores the bootloader and the safe mode**, whatever the
shared buffer held. The copies of the bootloader fill their sectors, so nothing else
changes; a safe-mode copy that is rewritten loses the upper half of its sector. -/
theorem scrubs_restore_majority (bootloader : BootloaderScrubber) (safeMode : SafeModeScrubber)
    (scrubBuffer : ScrubBuffer) (flash : Flash) (mcuFlash : McuFlash) (eeprom : Eeprom) :
    let b := (bootloader.scrub true scrubBuffer flash mcuFlash).2
    let m := (safeMode.scrub true scrubBuffer flash eeprom).2
    Restored bootloaderCopy (3 * 2 ^ 20) 65536 flash b.flash mcuFlash b.mcuFlash ∧
      Restored safeModeCopy (3 * 2 ^ 20 + 5 * 65536) 32768 flash m.flash eeprom m.eeprom :=
  ⟨bootloader.scrub_restored scrubBuffer flash mcuFlash,
    safeMode.scrub_restored scrubBuffer flash eeprom⟩

/-- A flash of zeros but for the first byte of safe-mode copy 0. -/
def oneByteOff : Flash := fun a => if a = (safeModeCopy 0).offset then 1 else 0

theorem not_isCorrect_oneByteOff : ¬ IsCorrect safeModeCopy oneByteOff 32768 0 := by
  intro hcorrect
  -- the first byte is 1, the vote over it 0
  have hfirst := congrArg List.head? hcorrect
  have hhead : List.range 32768 = 0 :: (List.range 32767).map Nat.succ := List.range_succ_eq_map
  rw [Memory.block, majority, hhead, List.map_cons, List.map_cons, List.head?_cons,
    List.head?_cons] at hfirst
  exact absurd hfirst (by decide)

/-- The scrub erases a byte that belongs to no copy. -/
theorem upper_half_erased :
    oneByteOff ((safeModeCopy 0).offset + 32768) = 0 ∧
      ((⟨0, 0, 0, false⟩ : SafeModeScrubber).scrub true
        ⟨0, List.replicate 65536 0, List.length_replicate⟩ oneByteOff fun _ => 0).2.flash
        ((safeModeCopy 0).offset + 32768) = 0xFF :=
  ⟨by decide, ((SafeModeScrubber.scrub_restored _ _ oneByteOff _).behind 0 (by decide) 32768
    (by decide) (by decide)).2 not_isCorrect_oneByteOff⟩

end PWSat2OBC
