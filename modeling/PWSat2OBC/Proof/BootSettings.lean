import PWSat2OBC.Proof.Fram
import PWSat2OBC.Proof.Redundancy
import PWSat2OBC.Spec.BootSettings

/-!
# The boot settings are five independent variables

`BootContent` is what the getters can see of the FRAM, whatever its three chips hold.
Each setter changes its own field of it (`content_setBootSlots` and the others): a read
gives back what was written, and no field lies on another.

`scrubbed_iff` says when a scrub of the settings leaves the majority on all three chips.
-/

namespace PWSat2OBC

/-- The boot settings as plain values, without the defaults. -/
structure BootContent where
  magic : BitVec 32
  slots : Byte
  failsafe : Byte
  counter : BitVec 32
  last : BitVec 32
deriving DecidableEq

namespace BootSettings

variable (s : BootSettings)

/-! ## Double words through reader and writer -/

theorem doubleWordBuffer_eq (x : BitVec 32) : doubleWordBuffer x = Redundancy.storeWord x := rfl

theorem length_doubleWordBuffer (x : BitVec 32) : (doubleWordBuffer x).length = 4 := rfl

/-- A double word written comes back. -/
theorem readDoubleWordLE_doubleWordBuffer (x : BitVec 32) :
    ((Reader.init (doubleWordBuffer x)).readDoubleWordLE).1 = x := by
  rw [doubleWordBuffer_eq]
  exact Redundancy.loadWord_storeWord x

/-! ## Fields -/

/-- Different fields share no byte. -/
theorem field_disjoint {f g : BootField} (h : f ≠ g) :
    ∀ i < g.size, f.size ≤ (g.offset + BitVec.ofNat 16 i - f.offset).toNat := by
  revert h
  cases f <;> cases g <;> intro h <;> first | exact absurd rfl h | decide

/-- A field reads back what was written to it. -/
theorem readField_writeField (f : BootField) {bytes : List Byte} (h : bytes.length = f.size)
    (output : ℕ) : (s.writeField f bytes).readField f output = bytes := by
  unfold readField writeField
  rw [← h]
  exact RedundantFm25w.read_write _ _ _ _ _ _ (by rw [h]; cases f <;> decide)

/-- A write to one field leaves the others. -/
theorem readField_writeField_of_ne {f g : BootField} (hne : f ≠ g) {bytes : List Byte}
    (h : bytes.length = f.size) (output : ℕ) :
    (s.writeField f bytes).readField g output = s.readField g output := by
  unfold readField writeField
  rw [RedundantFm25w.read_write_of_disjoint]
  rw [h]
  exact field_disjoint hne

/-! ## Contents -/

/-- What the getters see. -/
def content : BootContent where
  magic := ((Reader.init (s.readField .magicNumber s.layout.buf.addr)).readDoubleWordLE).1
  slots := (s.readField .bootSlots s.layout.buf.addr).headD 0
  failsafe := (s.readField .failsafeBootSlots s.layout.buf.addr).headD 0
  counter := ((Reader.init (s.readField .bootCounter s.layout.buf.addr)).readDoubleWordLE).1
  last :=
    ((Reader.init (s.readField .lastConfirmedBootCounter s.layout.lastConfirmedBuf)).readDoubleWordLE).1

theorem checkMagicNumber_eq : s.checkMagicNumber = (s.content.magic == magicNumber) := rfl

theorem bootSlots_eq :
    s.bootSlots = if s.content.magic = magicNumber then s.content.slots else defaultBootSlot := by
  simp only [bootSlots, checkMagicNumber_eq, beq_iff_eq]; rfl

theorem failsafeBootSlots_eq :
    s.failsafeBootSlots =
      if s.content.magic = magicNumber then s.content.failsafe else defaultFailsafeBootSlot := by
  simp only [failsafeBootSlots, checkMagicNumber_eq, beq_iff_eq]; rfl

theorem bootCounter_eq :
    s.bootCounter =
      if s.content.magic = magicNumber then s.content.counter else defaultBootCounter := by
  simp only [bootCounter, checkMagicNumber_eq, beq_iff_eq]; rfl

@[simp] theorem layout_writeField (f : BootField) (bytes : List Byte) :
    (s.writeField f bytes).layout = s.layout := rfl

/-- What a write to one field does to the contents. -/
theorem content_writeField (f : BootField) {bytes : List Byte} (h : bytes.length = f.size) :
    (s.writeField f bytes).content =
      match f with
      | .magicNumber => { s.content with magic := ((Reader.init bytes).readDoubleWordLE).1 }
      | .bootSlots => { s.content with slots := bytes.headD 0 }
      | .failsafeBootSlots => { s.content with failsafe := bytes.headD 0 }
      | .bootCounter => { s.content with counter := ((Reader.init bytes).readDoubleWordLE).1 }
      | .lastConfirmedBootCounter =>
        { s.content with last := ((Reader.init bytes).readDoubleWordLE).1 } := by
  have hs := fun output => s.readField_writeField f h output
  have ho := fun g (hne : f ≠ g) output => s.readField_writeField_of_ne hne h output
  cases f <;> simp (disch := decide) only [content, layout_writeField, hs, ho]

/-! ## Setters -/

@[simp] theorem content_setBootSlots (slots : Byte) :
    (s.setBootSlots slots).2.content = { s.content with slots } :=
  s.content_writeField .bootSlots rfl

@[simp] theorem content_setFailsafeBootSlots (slots : Byte) :
    (s.setFailsafeBootSlots slots).2.content = { s.content with failsafe := slots } :=
  s.content_writeField .failsafeBootSlots rfl

@[simp] theorem content_setBootCounter (counter : BitVec 32) :
    (s.setBootCounter counter).2.content = { s.content with counter } := by
  rw [setBootCounter, s.content_writeField .bootCounter (length_doubleWordBuffer counter)]
  simp only [readDoubleWordLE_doubleWordBuffer]

@[simp] theorem content_markAsValid :
    s.markAsValid.content = { s.content with magic := magicNumber } := by
  rw [markAsValid, s.content_writeField .magicNumber (length_doubleWordBuffer magicNumber)]
  simp only [readDoubleWordLE_doubleWordBuffer]

@[simp] theorem content_confirmBoot :
    s.confirmBoot.2.content = { s.content with last := s.bootCounter } := by
  rw [confirmBoot, s.content_writeField .lastConfirmedBootCounter (length_doubleWordBuffer _)]
  simp only [readDoubleWordLE_doubleWordBuffer]

end BootSettings

/-! ## Scrubbing -/

namespace BootSettingsScrubber

open Voting

variable (rb1 rb2 : Aligned4) (buffer : ℕ) (fram : RedundantFm25w)

/-- What a scrub is for: on all three chips the area holds the majority of what the chips
held, and the rest is unchanged. -/
structure Scrubbed (fram after : RedundantFm25w) : Prop where
  area : ∀ a : Address, a.toNat < size →
    let majority := vote [fram.chip0 a, fram.chip1 a, fram.chip2 a]
    after.chip0 a = majority ∧ after.chip1 a = majority ∧ after.chip2 a = majority
  outside : ∀ a : Address, size ≤ a.toNat →
    after.chip0 a = fram.chip0 a ∧ after.chip1 a = fram.chip1 a ∧ after.chip2 a = fram.chip2 a

/-- A chip that is wrong alone is corrected, and the good ones are kept. -/
theorem Scrubbed.of_two {after : RedundantFm25w} (h : Scrubbed fram after) {a : Address}
    (ha : a.toNat < size) {value : Byte}
    (htwo : 2 ≤ [fram.chip0 a, fram.chip1 a, fram.chip2 a].count value) :
    after.chip0 a = value ∧ after.chip1 a = value ∧ after.chip2 a = value := by
  have hvote : vote [fram.chip0 a, fram.chip1 a, fram.chip2 a] = value := by
    apply vote_of_count
    simp only [List.length_cons, List.length_nil]
    omega
  obtain ⟨h0, h1, h2⟩ := h.area a ha
  rw [hvote] at h0 h1 h2
  exact ⟨h0, h1, h2⟩

/-- What is written back to the area. -/
theorem scrub_chip (buffered : List Byte) (hlength : buffered.length = size) (chip : Fm25w)
    (a : Address) :
    (a.toNat < size → chip.write 0 buffered a = buffered.getD a.toNat 0) ∧
      (size ≤ a.toNat → chip.write 0 buffered a = chip a) := by
  have hsub : a - 0 = a := BitVec.sub_zero a
  constructor
  · intro ha
    rw [Fm25w.write, hsub, List.getD_eq_getElem?_getD, List.getD_eq_getElem?_getD,
      List.getElem?_eq_getElem (by omega)]
    rfl
  · intro ha
    exact Fm25w.write_of_le chip (by rw [hlength, hsub]; exact ha)

/-- The scrub is as good as its read. -/
theorem scrubbed_iff_read :
    Scrubbed fram (scrub rb1 rb2 buffer true fram) ↔
      (fram.read rb1 rb2 0 buffer size).1 = fram.majorityAt 0 size := by
  set buffered := (fram.read rb1 rb2 0 buffer size).1 with hbuffered
  have hlength : buffered.length = size := by
    rw [hbuffered, fram.read_one_chunk rb1 rb2 0 buffer (by decide) (by decide),
      RedundantFm25w.readChunk_length]
  have hchip := scrub_chip buffered hlength
  have hmajority : ∀ a : Address, a.toNat < size →
      (fram.majorityAt 0 size).getD a.toNat 0 = vote [fram.chip0 a, fram.chip1 a, fram.chip2 a] := by
    intro a ha
    rw [List.getD_eq_getElem?_getD, List.getElem?_eq_getElem (by rw [fram.length_majorityAt]; exact ha)]
    simp [RedundantFm25w.majorityAt]
  constructor
  · -- the area on chip 0 is the buffer
    intro h
    apply List.ext_getElem
    · rw [hlength, fram.length_majorityAt]
    intro i hi hi'
    have hi16 : i < 16 := lt_of_lt_of_eq hi hlength
    have ha : (BitVec.ofNat 16 i).toNat = i := by
      rw [BitVec.toNat_ofNat]
      omega
    have hcell := ((hchip fram.chip0 (BitVec.ofNat 16 i)).1 (by rw [ha]; exact hi16)).symm.trans
      (h.area (BitVec.ofNat 16 i) (by rw [ha]; exact hi16)).1
    rw [← hmajority _ (by rw [ha]; exact hi16), ha, List.getD_eq_getElem?_getD,
      List.getD_eq_getElem?_getD, List.getElem?_eq_getElem hi, List.getElem?_eq_getElem hi'] at hcell
    exact hcell
  · -- the buffer goes to all three chips
    intro h
    constructor
    · intro a ha majority
      have hcell : buffered.getD a.toNat 0 = majority := by rw [h, hmajority a ha]
      exact ⟨((hchip fram.chip0 a).1 ha).trans hcell, ((hchip fram.chip1 a).1 ha).trans hcell,
        ((hchip fram.chip2 a).1 ha).trans hcell⟩
    · intro a ha
      exact ⟨(hchip fram.chip0 a).2 ha, (hchip fram.chip1 a).2 ha, (hchip fram.chip2 a).2 ha⟩

/-- **When a scrub restores the boot settings**: exactly when its buffer happens to be
aligned, or chips 1 and 2 nowhere agree against chip 0 in the area. -/
theorem scrubbed_iff :
    Scrubbed fram (scrub rb1 rb2 buffer true fram) ↔
      buffer % 4 = 0 ∨
        ∀ i < size, dissent (fram.chip0 (BitVec.ofNat 16 i)) (fram.chip1 (BitVec.ofNat 16 i))
          (fram.chip2 (BitVec.ofNat 16 i)) = 0 := by
  rw [scrubbed_iff_read, fram.read_one_chunk rb1 rb2 0 buffer (by decide) (by decide),
    RedundantFm25w.readChunk_majority_iff, RedundantFm25w.ChunkVoted]
  have hsize : size % 4 = 0 := rfl
  simp only [hsize, true_and, BitVec.ofNat_eq_ofNat, BitVec.zero_add]

/-- Without the lock nothing is written. -/
theorem scrub_unlocked : scrub rb1 rb2 buffer false fram = fram := rfl

/-- With the buffer at an odd address, a byte wrong on chip 0 alone becomes wrong on all
three. -/
theorem corruption_spread :
    let good : Fm25w := fun _ => 0
    let fram : RedundantFm25w := ⟨fun a => if a = 4 then 1 else 0, good, good⟩
    let after := scrub ⟨1024, rfl⟩ ⟨2048, rfl⟩ 4097 true fram
    (after.chip0 4 = 1 ∧ after.chip1 4 = 1 ∧ after.chip2 4 = 1) ∧ ¬ Scrubbed fram after := by
  intro good fram after
  have hcells : after.chip0 4 = 1 ∧ after.chip1 4 = 1 ∧ after.chip2 4 = 1 := by decide
  refine ⟨hcells, ?_⟩
  intro h
  have hzero := (@Scrubbed.of_two fram after h 4 (by decide) 0 (by decide)).1
  rw [hcells.1] at hzero
  exact absurd hzero (by decide)

end BootSettingsScrubber

end PWSat2OBC
