import PWSat2OBC.Spec.BitWriter

/-!
# What the bit writer holds

`BitString` is the purpose of the writer: a bit string that grows while the calls succeed.
`Holds view written w` relates a writer over `view` to the bits written. One merge of up to
16 bits appends them (`Holds.writePart`), so does every operation that fits
(`Holds.perform`), and `writes_concatenate` is the result about any sequence of calls.
-/

namespace PWSat2OBC

open Bits

namespace BitWrite

/-- The bits a call writes, least significant first. -/
def bits : BitWrite → List Bool
  | .write8 value => Bits.bits 8 value.toNat
  | .write16 value => Bits.bits 16 value.toNat
  | .write32 value => Bits.bits 32 value.toNat
  | .write64 value => Bits.bits 64 value.toNat
  | .writeBool value => [value]
  | .writeWord value length => Bits.bits length.toNat value.toNat
  | .writeDoubleWord value length => Bits.bits length.toNat value.toNat
  | .writeQuadWord value length => Bits.bits length.toNat value.toNat
  | .writeSpan buffer => ofWords buffer

/-- The width of the type written. -/
def width : BitWrite → ℕ
  | .write8 _ => 8
  | .write16 _ => 16
  | .write32 _ => 32
  | .write64 _ => 64
  | .writeBool _ => 1
  | .writeWord _ _ => 16
  | .writeDoubleWord _ _ => 32
  | .writeQuadWord _ _ => 64
  | .writeSpan buffer => 8 * buffer.length

/-- A span of less than 2^28 bytes, where the size in bits fits its `int`. -/
def Small : BitWrite → Prop
  | .writeSpan buffer => buffer.length < 2 ^ 28
  | _ => True

theorem small_of_length {op : BitWrite} (h : op.bits.length < 2 ^ 31) : op.Small := by
  cases op with
  | writeSpan buffer =>
    rw [bits, length_ofWords] at h
    show buffer.length < 2 ^ 28
    omega
  | _ => trivial

end BitWrite

/-- The bits written so far, and whether a call has failed. -/
structure BitString where
  bits : List Bool
  failed : Bool
deriving DecidableEq, Repr

namespace BitString

/-- The call is one that succeeds, with room for `limit` bits. -/
def Accepts (limit : ℕ) (s : BitString) (op : BitWrite) : Prop :=
  s.failed = false ∧ op.bits.length ≤ op.width ∧ s.bits.length + op.bits.length ≤ limit

instance (limit : ℕ) (s : BitString) (op : BitWrite) : Decidable (s.Accepts limit op) :=
  inferInstanceAs (Decidable (_ ∧ _ ∧ _))

def append (limit : ℕ) (s : BitString) (op : BitWrite) : Bool × BitString :=
  if s.Accepts limit op then (true, ⟨s.bits ++ op.bits, false⟩) else (false, ⟨s.bits, true⟩)

def appendAll (limit : ℕ) : BitString → List BitWrite → List Bool × BitString
  | s, [] => ([], s)
  | s, op :: ops =>
    let r := s.append limit op
    let rest := appendAll limit r.2 ops
    (r.1 :: rest.1, rest.2)

/-- Calls that are all accepted concatenate. -/
theorem appendAll_eq {limit : ℕ} (ops : List BitWrite) : ∀ {s : BitString}, s.failed = false →
    (∀ op ∈ ops, op.bits.length ≤ op.width) → s.bits.length + (ops.flatMap BitWrite.bits).length ≤ limit →
      (s.appendAll limit ops).2 = ⟨s.bits ++ ops.flatMap BitWrite.bits, false⟩ := by
  induction ops with
  | nil =>
    rintro ⟨bits, failed⟩ h _ _
    obtain rfl : failed = false := h
    rw [appendAll, List.flatMap_nil, List.append_nil]
  | cons op ops ih =>
    intro s h hops hlimit
    rw [List.flatMap_cons, List.length_append] at hlimit
    have hop : s.Accepts limit op := ⟨h, hops op List.mem_cons_self, by omega⟩
    have hrest := ih (show (⟨s.bits ++ op.bits, false⟩ : BitString).failed = false from rfl)
      (fun op' h' => hops op' (List.mem_cons_of_mem op h')) (by
        rw [List.length_append]
        omega)
    rw [appendAll, append, if_pos hop]
    simp only [hrest, List.append_assoc, List.flatMap_cons]

end BitString

namespace BitWriter

/-- The bytes in use, and how many bits of them are not. -/
def usedBytes (w : BitWriter) : ℕ := w.bytePosition + bitsToBytes w.bitPosition

/-- `written` is what a writer over `view` holds. -/
structure Holds (view : List Byte) (written : List Bool) (w : BitWriter) : Prop where
  small : view.length < 2 ^ 28
  length : w.buffer.length = view.length
  limit : w.bitLimit = 8 * view.length
  fraction : w.bitPosition < 8
  position : written.length = 8 * w.bytePosition + w.bitPosition
  fits : written.length ≤ 8 * view.length
  used : ofWords (w.buffer.take w.usedBytes) =
    written ++ List.replicate (8 * w.usedBytes - written.length) false
  rest : w.buffer.drop w.usedBytes = view.drop w.usedBytes

variable {view : List Byte} {written : List Bool} {w : BitWriter}

theorem bitsToBytes_eq (bits : ℕ) : bitsToBytes bits = (bits + 7) / 8 := rfl

theorem Holds.usedBytes_eq (h : w.Holds view written) : w.usedBytes = (written.length + 7) / 8 := by
  have := h.fraction
  have := h.position
  unfold usedBytes bitsToBytes
  omega

theorem Holds.usedBytes_le (h : w.Holds view written) : w.usedBytes ≤ view.length := by
  have := h.fits
  rw [h.usedBytes_eq]
  omega

theorem Holds.getBitDataLength (h : w.Holds view written) : w.getBitDataLength = written.length := by
  have := h.small
  have := h.fits
  have := h.position
  unfold BitWriter.getBitDataLength
  omega

theorem Holds.getByteDataLength (h : w.Holds view written) : w.getByteDataLength = w.usedBytes := by
  have := h.small
  have := h.usedBytes_le
  unfold usedBytes at *
  unfold BitWriter.getByteDataLength
  omega

theorem holds_init (hsmall : view.length < 2 ^ 28) : (init view).Holds view [] where
  small := hsmall
  length := rfl
  limit := by
    dsimp only [init]
    omega
  fraction := Nat.zero_lt_succ 7
  position := rfl
  fits := Nat.zero_le _
  used := by simp [init, usedBytes, bitsToBytes]
  rest := rfl

/-- The validity flag is not part of what is held. -/
theorem Holds.setValid (h : w.Holds view written) (valid : Bool) :
    ({ w with isValid := valid } : BitWriter).Holds view written := by
  obtain ⟨small, hlength, limit, fraction, position, fits, used, rest⟩ := h
  exact ⟨small, hlength, limit, fraction, position, fits, used, rest⟩

theorem Holds.updateStatus (h : w.Holds view written) (length lengthLimit : ℕ) :
    (w.updateStatus length lengthLimit).Holds view written := h.setValid _

theorem Holds.isValid_updateStatus (h : w.Holds view written) {length : ℕ} (hl : length < 2 ^ 31)
    (lengthLimit : ℕ) :
    (w.updateStatus length lengthLimit).isValid = true ↔
      w.isValid = true ∧ length ≤ lengthLimit ∧ written.length + length ≤ 8 * view.length := by
  have := h.small
  have := h.fits
  have hsum : (written.length + length) % 2 ^ 32 = written.length + length := by omega
  unfold BitWriter.updateStatus
  simp only [Bool.and_eq_true, decide_eq_true_eq, h.getBitDataLength, h.limit, hsum, and_assoc]

theorem wordMask_eq {length : ℕ} (h : length ≤ 16) : wordMask.getD length 0 = 2 ^ length - 1 := by
  interval_cases length <;> rfl

theorem combined_eq (value old : ℕ) {p length : ℕ} (hp : p < 8) (hl : length ≤ 16) :
    combined value length old p = old % 2 ^ p + 2 ^ p * (value % 2 ^ length) := by
  rw [combined, wordMask_eq hl, wordMask_eq (by omega), Nat.and_two_pow_sub_one_eq_mod,
    Nat.and_two_pow_sub_one_eq_mod, Nat.shiftLeft_eq]
  ring

theorem combinedBytes_eq (combined : ℕ) {bytes : ℕ} (h0 : 0 < bytes) (h3 : bytes ≤ 3) :
    combinedBytes combined bytes =
      (List.range bytes).map fun i => BitVec.ofNat 8 (combined / 2 ^ (8 * i)) := by
  interval_cases bytes <;> simp [combinedBytes, List.range_succ, Nat.shiftRight_eq_div_pow]

/-- **The bytes one merge stores**: the `p` bits already there, the new bits, and zeros. -/
theorem ofWords_combinedBytes (value old : ℕ) {p length : ℕ} (hp : p < 8) (h0 : 0 < length)
    (hl : length ≤ 16) :
    ofWords (combinedBytes (combined value length old p) (bitsToBytes (length + p))) =
      bits p old ++ bits length value ++
        List.replicate (8 * bitsToBytes (length + p) - (p + length)) false := by
  have hold : old % 2 ^ p < 2 ^ p := Nat.mod_lt _ (by positivity)
  have hvalue : value % 2 ^ length < 2 ^ length := Nat.mod_lt _ (by positivity)
  set pad := 8 * bitsToBytes (length + p) - (p + length) with hpad
  have hsize : 8 * bitsToBytes (length + p) = p + (length + pad) := by
    rw [hpad, bitsToBytes_eq]
    omega
  have hbytes : 0 < bitsToBytes (length + p) ∧ bitsToBytes (length + p) ≤ 3 := by
    rw [bitsToBytes_eq]
    omega
  rw [combinedBytes_eq _ hbytes.1 hbytes.2, ofWords_parts, hsize, combined_eq value old hp hl,
    bits_pack _ _ hold, bits_of_lt _ hvalue, bits_mod _ le_rfl, bits_mod _ le_rfl, List.append_assoc]

/-- What was written, byte by byte: the full bytes and the bits of the next one. -/
theorem Holds.written_eq (h : w.Holds view written) :
    written = ofWords (w.buffer.take w.bytePosition) ++
      bits w.bitPosition (w.buffer.getD w.bytePosition 0).toNat := by
  have hused := h.used
  have hposition := h.position
  have hfraction := h.fraction
  have hle := h.usedBytes_le
  have hlength := h.length
  rcases Nat.eq_zero_or_pos w.bitPosition with h0 | h0
  · -- the last byte is full
    have hbytes : w.usedBytes = w.bytePosition := by
      rw [usedBytes, bitsToBytes_eq]
      omega
    have hpad : 8 * w.bytePosition - written.length = 0 := by omega
    rw [hbytes, hpad, List.replicate_zero, List.append_nil] at hused
    rw [h0, bits_zero_left, List.append_nil, hused]
  · -- the next byte is in use up to the bit position, and the bits behind it are zero
    have hbytes : w.usedBytes = w.bytePosition + 1 := by
      rw [usedBytes, bitsToBytes_eq]
      omega
    have hlt : w.bytePosition < w.buffer.length := by omega
    have hsplit : 8 = w.bitPosition + (8 - w.bitPosition) := by omega
    have hbyte : w.buffer.getD w.bytePosition 0 = w.buffer[w.bytePosition] := by
      rw [List.getD_eq_getElem?_getD, List.getElem?_eq_getElem hlt, Option.getD_some]
    rw [hbytes, List.take_succ_eq_append_getElem hlt, ofWords_append, ofWords_cons, ofWords_nil,
      List.append_nil, ← hbyte] at hused
    have hbits : bits 8 (w.buffer.getD w.bytePosition 0).toNat =
        bits w.bitPosition (w.buffer.getD w.bytePosition 0).toNat ++
          bits (8 - w.bitPosition) ((w.buffer.getD w.bytePosition 0).toNat / 2 ^ w.bitPosition) := by
      rw [← bits_add, ← hsplit]
    rw [hbits, ← List.append_assoc] at hused
    refine (List.append_inj_left hused ?_).symm
    rw [List.length_append, length_ofWords, length_bits, List.length_take]
    omega

/-- A merge in closed form. -/
theorem writePart_eq (value : ℕ) {length : ℕ} (h0 : 0 < length) (hl : length ≤ 16)
    (hfraction : w.bitPosition < 8) (hposition : w.bytePosition < 2 ^ 28) :
    w.writePart value length = { w with
      buffer := w.buffer.take w.bytePosition ++
        combinedBytes (combined value length (w.buffer.getD w.bytePosition 0).toNat w.bitPosition)
          (bitsToBytes (length + w.bitPosition)) ++
        w.buffer.drop (w.bytePosition + bitsToBytes (length + w.bitPosition))
      bytePosition := w.bytePosition + (length + w.bitPosition) / 8
      bitPosition := (length + w.bitPosition) % 8 } := by
  have hbytes := bitsToBytes_eq (length + w.bitPosition)
  have hstored : ∀ c, (combinedBytes c (bitsToBytes (length + w.bitPosition))).length =
      bitsToBytes (length + w.bitPosition) := by
    intro c
    rw [combinedBytes_eq c (by omega) (by omega), List.length_map, List.length_range]
  have hand : (length + w.bitPosition) &&& (8 - 1) = (length + w.bitPosition) % 8 :=
    Nat.and_two_pow_sub_one_eq_mod _ 3
  have hdiv : (w.bytePosition + (length + w.bitPosition) / 8) % 2 ^ 32 =
      w.bytePosition + (length + w.bitPosition) / 8 := by omega
  rw [BitWriter.writePart]
  simp only [storeAt, hstored, hand, hdiv]

/-- **One merge appends its bits.** -/
theorem Holds.writePart (h : w.Holds view written) (value : ℕ) {length : ℕ} (h0 : 0 < length)
    (hl : length ≤ 16) (hfits : written.length + length ≤ 8 * view.length) :
    (w.writePart value length).Holds view (written ++ bits length value) := by
  have hwritten := h.written_eq
  have hposition := h.position
  have hfraction := h.fraction
  have hlength := h.length
  have hsmall := h.small
  have hrest := h.rest
  have hbytes := bitsToBytes_eq (length + w.bitPosition)
  have hused : w.usedBytes = w.bytePosition + (w.bitPosition + 7) / 8 := rfl
  have hstored := ofWords_combinedBytes value (w.buffer.getD w.bytePosition 0).toNat hfraction h0 hl
  rw [writePart_eq value h0 hl hfraction (by omega)]
  set bytes := bitsToBytes (length + w.bitPosition)
  set stored := combinedBytes
    (combined value length (w.buffer.getD w.bytePosition 0).toNat w.bitPosition) bytes
  have hcount : stored.length = bytes := by
    have := congrArg List.length hstored
    simp only [length_ofWords, List.length_append, length_bits, List.length_replicate] at this
    omega
  have hall : (written ++ bits length value).length = written.length + length := by
    rw [List.length_append, length_bits]
  have hnow : w.bytePosition + (length + w.bitPosition) / 8 +
      bitsToBytes ((length + w.bitPosition) % 8) = w.bytePosition + bytes := by
    rw [bitsToBytes_eq]
    omega
  have htake : (w.buffer.take w.bytePosition).length = w.bytePosition := by
    rw [List.length_take]
    omega
  have hfront : (w.buffer.take w.bytePosition ++ stored).length = w.bytePosition + bytes := by
    rw [List.length_append, htake, hcount]
  refine ⟨hsmall, ?_, h.limit, Nat.mod_lt _ (by omega), ?_, ?_, ?_, ?_⟩
  · rw [List.length_append, hfront, List.length_drop]
    omega
  · rw [hall]
    dsimp only
    omega
  · rw [hall]
    exact hfits
  · -- the bits in use: those of the full bytes, then those of the merge
    unfold usedBytes
    dsimp only
    have hpad : 8 * bytes - (w.bitPosition + length) =
        8 * (w.bytePosition + bytes) - (written.length + length) := by omega
    rw [hnow, List.take_left' hfront, ofWords_append, hstored, hall, ← hpad]
    conv_rhs => rw [hwritten]
    simp only [List.append_assoc]
  · -- behind the bytes in use the view is as it was
    unfold usedBytes
    dsimp only
    have hmore : w.bytePosition + bytes = w.usedBytes + (w.bytePosition + bytes - w.usedBytes) := by
      omega
    rw [hnow, List.drop_left' hfront, hmore, ← List.drop_drop, hrest, List.drop_drop]

/-- The parts of a word append its bits. -/
theorem Holds.writeParts (parts : ℕ) : ∀ {w : BitWriter} {written : List Bool} (value : ℕ) {length : ℕ},
    w.Holds view written → length ≤ 16 * parts → written.length + length ≤ 8 * view.length →
      (w.writeParts parts value length).Holds view (written ++ bits length value) := by
  induction parts with
  | zero =>
    intro w written value length h hl _
    obtain rfl : length = 0 := by omega
    rw [bits_zero_left, List.append_nil]
    exact h
  | succ parts ih =>
    intro w written value length h hl hfits
    rw [BitWriter.writeParts]
    split
    · rename_i h0
      -- the low word goes first, the rest of the value is shifted down
      have hsplit : length = min length 16 + (length - 16) := by omega
      have h1 : 0 < min length 16 := by omega
      have hpart := h.writePart (value % 2 ^ 16) h1 (by omega) (by omega)
      have hlow : bits (min length 16) (value % 2 ^ 16) = bits (min length 16) value :=
        bits_mod _ (by omega)
      rw [hlow] at hpart
      have h2 : length - 16 ≤ 16 * parts := by omega
      have hroom : (written ++ bits (min length 16) value).length + (length - 16) ≤ 8 * view.length := by
        rw [List.length_append, length_bits]
        omega
      have hrest := ih (value >>> 16) hpart h2 hroom
      have hhigh : bits (length - 16) (value >>> 16) =
          bits (length - 16) (value / 2 ^ min length 16) := by
        rcases Nat.le_total length 16 with hle | hle
        · rw [Nat.sub_eq_zero_of_le hle, bits_zero_left, bits_zero_left]
        · rw [Nat.min_eq_right hle, Nat.shiftRight_eq_div_pow]
      rw [List.append_assoc, hhigh, ← bits_add, ← hsplit] at hrest
      exact hrest
    · obtain rfl : length = 0 := by omega
      rw [bits_zero_left, List.append_nil]
      exact h

/-- A span at a byte boundary is copied. -/
theorem Holds.copy (h : w.Holds view written) (bytes : List Byte) (h0 : w.bitPosition = 0)
    (hfits : written.length + 8 * bytes.length ≤ 8 * view.length) :
    ({ w with
        buffer := storeAt w.buffer w.bytePosition bytes
        bytePosition := (w.bytePosition + bytes.length) % 2 ^ 32 } : BitWriter).Holds view
      (written ++ ofWords bytes) := by
  have hposition := h.position
  have hsmall := h.small
  have hlength := h.length
  have hrest := h.rest
  have hwritten := h.written_eq
  have hused : w.usedBytes = w.bytePosition := by
    rw [usedBytes, h0]
    rfl
  have hmod : (w.bytePosition + bytes.length) % 2 ^ 32 = w.bytePosition + bytes.length := by omega
  have hnow : ∀ n, n + bitsToBytes w.bitPosition = n := by
    intro n
    rw [h0]
    rfl
  have hall : (written ++ ofWords bytes).length = 8 * (w.bytePosition + bytes.length) := by
    rw [List.length_append, length_ofWords]
    omega
  have hfront : (w.buffer.take w.bytePosition ++ bytes).length = w.bytePosition + bytes.length := by
    rw [List.length_append, List.length_take]
    omega
  rw [hmod, storeAt]
  refine ⟨hsmall, ?_, h.limit, h.fraction, ?_, ?_, ?_, ?_⟩
  · rw [List.length_append, hfront, List.length_drop]
    omega
  · rw [hall]
    dsimp only
    omega
  · rw [hall]
    omega
  · unfold usedBytes
    dsimp only
    rw [hnow, hall, Nat.sub_self, List.replicate_zero, List.append_nil, List.take_left' hfront,
      ofWords_append]
    rw [h0, bits_zero_left, List.append_nil] at hwritten
    rw [← hwritten]
  · unfold usedBytes
    dsimp only
    rw [hnow, List.drop_left' hfront, ← List.drop_drop, ← hused, hrest, List.drop_drop]

/-- A span at any other place is merged byte by byte. -/
theorem Holds.merge (bytes : List Byte) : ∀ {w : BitWriter} {written : List Bool},
    w.Holds view written → written.length + 8 * bytes.length ≤ 8 * view.length →
      (bytes.foldl (fun w byte => w.writePart byte.toNat 8) w).Holds view (written ++ ofWords bytes) := by
  induction bytes with
  | nil =>
    intro w written h _
    rw [ofWords_nil, List.append_nil]
    exact h
  | cons byte bytes ih =>
    intro w written h hfits
    rw [List.length_cons] at hfits
    have hfirst := h.writePart byte.toNat (show 0 < 8 by omega) (by omega) (by omega)
    have hroom : (written ++ bits 8 byte.toNat).length + 8 * bytes.length ≤ 8 * view.length := by
      rw [List.length_append, length_bits]
      omega
    have hrest := ih hfirst hroom
    rw [List.append_assoc] at hrest
    exact hrest

/-- The call is one that succeeds. -/
def Accepts (view : List Byte) (written : List Bool) (w : BitWriter) (length lengthLimit : ℕ) : Prop :=
  w.isValid = true ∧ length ≤ lengthLimit ∧ written.length + length ≤ 8 * view.length

/-- A call that fails clears the flag and does nothing else. -/
def failed (w : BitWriter) : BitWriter := { w with isValid := false }

theorem isValid_writeParts (parts : ℕ) : ∀ (w : BitWriter) (value length : ℕ),
    (w.writeParts parts value length).isValid = w.isValid := by
  induction parts with
  | zero =>
    intro w value length
    rfl
  | succ parts ih =>
    intro w value length
    rw [BitWriter.writeParts]
    split
    · rw [ih]
      rfl
    · rfl

theorem isValid_foldl (bytes : List Byte) : ∀ w : BitWriter,
    (bytes.foldl (fun w byte => w.writePart byte.toNat 8) w).isValid = w.isValid := by
  induction bytes with
  | nil =>
    intro w
    rfl
  | cons byte bytes ih =>
    intro w
    rw [List.foldl_cons, ih]
    rfl

theorem Holds.updateStatus_eq_failed (h : w.Holds view written) {length lengthLimit : ℕ}
    (hl : length < 2 ^ 31) (hno : ¬ Accepts view written w length lengthLimit) :
    w.updateStatus length lengthLimit = w.failed := by
  have hfalse : (w.updateStatus length lengthLimit).isValid = false := by
    rw [← Bool.not_eq_true, h.isValid_updateStatus hl]
    exact hno
  have heq : w.updateStatus length lengthLimit =
      { w with isValid := (w.updateStatus length lengthLimit).isValid } := rfl
  rw [heq, hfalse, failed]

theorem Holds.writeBits (h : w.Holds view written) (parts value length : ℕ) (hl : length < 2 ^ 31)
    (hacc : Accepts view written w length (16 * parts)) :
    (w.writeBits parts value length).1 = true ∧ (w.writeBits parts value length).2.isValid = true ∧
      (w.writeBits parts value length).2.Holds view (written ++ bits length value) := by
  have hvalid := (h.isValid_updateStatus hl (16 * parts)).2 hacc
  have heq : w.writeBits parts value length =
      (true, (w.updateStatus length (16 * parts)).writeParts parts value length) := if_pos hvalid
  rw [heq]
  refine ⟨rfl, ?_, ?_⟩
  · rw [isValid_writeParts]
    exact hvalid
  · exact (h.updateStatus _ _).writeParts parts value hacc.2.1 hacc.2.2

theorem Holds.writeBits_failed (h : w.Holds view written) {parts length : ℕ} (value : ℕ)
    (hl : length < 2 ^ 31) (hno : ¬ Accepts view written w length (16 * parts)) :
    w.writeBits parts value length = (false, w.failed) := by
  rw [BitWriter.writeBits, h.updateStatus_eq_failed hl hno]
  rfl

theorem Holds.writeSpan (h : w.Holds view written) {bytes : List Byte} (hb : bytes.length < 2 ^ 28)
    (hacc : Accepts view written w (8 * bytes.length) (8 * bytes.length)) :
    (w.writeSpan bytes).1 = true ∧ (w.writeSpan bytes).2.isValid = true ∧
      (w.writeSpan bytes).2.Holds view (written ++ ofWords bytes) := by
  have hsize : bytes.length * 8 % 2 ^ 32 = 8 * bytes.length := by omega
  have hvalid := (h.isValid_updateStatus (by omega) (8 * bytes.length)).2 hacc
  have hstatus := h.updateStatus (8 * bytes.length) (8 * bytes.length)
  rw [BitWriter.writeSpan, hsize]
  simp only [hvalid, if_true]
  split
  · rename_i h0
    exact ⟨rfl, rfl, (hstatus.copy bytes h0 hacc.2.2).setValid true⟩
  · refine ⟨rfl, ?_, hstatus.merge bytes hacc.2.2⟩
    rw [isValid_foldl]
    exact hvalid

theorem Holds.writeSpan_failed (h : w.Holds view written) {bytes : List Byte} (hb : bytes.length < 2 ^ 28)
    (hno : ¬ Accepts view written w (8 * bytes.length) (8 * bytes.length)) :
    w.writeSpan bytes = (false, w.failed) := by
  have hsize : bytes.length * 8 % 2 ^ 32 = 8 * bytes.length := by omega
  rw [BitWriter.writeSpan, hsize, h.updateStatus_eq_failed (by omega) hno]
  rfl

/-- Every call but that on a span is one on words. -/
theorem perform_cases (w : BitWriter) (op : BitWrite) :
    (∃ bytes, op = .writeSpan bytes) ∨
      ∃ parts value length, w.perform op = w.writeBits parts value length ∧
        op.bits = bits length value ∧ length < 2 ^ 31 ∧ (length ≤ 16 * parts ↔ length ≤ op.width) := by
  cases op with
  | write8 value =>
    refine .inr ⟨1, _, 8, rfl, ?_, by omega, by simp [BitWrite.width]⟩
    rw [BitVec.toNat_setWidth, bits_mod _ (by omega)]
    rfl
  | write16 value => exact .inr ⟨1, _, 16, rfl, rfl, by omega, by simp [BitWrite.width]⟩
  | write32 value => exact .inr ⟨2, _, 32, rfl, rfl, by omega, by simp [BitWrite.width]⟩
  | write64 value => exact .inr ⟨4, _, 64, rfl, rfl, by omega, by simp [BitWrite.width]⟩
  | writeBool value =>
    refine .inr ⟨1, _, 1, rfl, ?_, by omega, by simp [BitWrite.width]⟩
    cases value <;> rfl
  | writeWord value length =>
    have := length.isLt
    exact .inr ⟨1, _, _, rfl, rfl, by omega, Iff.rfl⟩
  | writeDoubleWord value length =>
    have := length.isLt
    exact .inr ⟨2, _, _, rfl, rfl, by omega, Iff.rfl⟩
  | writeQuadWord value length =>
    have := length.isLt
    exact .inr ⟨4, _, _, rfl, rfl, by omega, Iff.rfl⟩
  | writeSpan bytes => exact .inl ⟨bytes, rfl⟩

/-- **A call that succeeds** appends its bits. -/
theorem Holds.perform (h : w.Holds view written) {op : BitWrite} (hop : op.Small)
    (hacc : Accepts view written w op.bits.length op.width) :
    (w.perform op).1 = true ∧ (w.perform op).2.isValid = true ∧
      (w.perform op).2.Holds view (written ++ op.bits) := by
  rcases w.perform_cases op with ⟨bytes, rfl⟩ | ⟨parts, value, length, hperform, hbits, hl, hwidth⟩
  · rw [BitWrite.bits, length_ofWords] at hacc
    exact h.writeSpan hop hacc
  · rw [hbits, length_bits] at hacc
    rw [hperform, hbits]
    exact h.writeBits parts value length hl ⟨hacc.1, hwidth.2 hacc.2.1, hacc.2.2⟩

/-- **A call that fails** only clears the flag. -/
theorem Holds.perform_failed (h : w.Holds view written) {op : BitWrite} (hop : op.Small)
    (hno : ¬ Accepts view written w op.bits.length op.width) :
    w.perform op = (false, w.failed) := by
  rcases w.perform_cases op with ⟨bytes, rfl⟩ | ⟨parts, value, length, hperform, hbits, hl, hwidth⟩
  · rw [BitWrite.bits, length_ofWords] at hno
    exact h.writeSpan_failed hop hno
  · rw [hbits, length_bits] at hno
    rw [hperform]
    refine h.writeBits_failed value hl ?_
    rintro ⟨hvalid, hle, hfits⟩
    exact hno ⟨hvalid, hwidth.1 hle, hfits⟩

/-- A call that returns false leaves the buffer and the positions alone, whatever the call. -/
theorem perform_unchanged {op : BitWrite} (h : (w.perform op).1 = false) :
    (w.perform op).2.buffer = w.buffer ∧ (w.perform op).2.getBitDataLength = w.getBitDataLength := by
  rcases w.perform_cases op with ⟨bytes, rfl⟩ | ⟨parts, value, length, hperform, -⟩
  · rw [BitWriter.perform, BitWriter.writeSpan] at h ⊢
    split at h
    · split at h <;> cases h
    · rename_i hvalid
      rw [if_neg hvalid]
      exact ⟨rfl, rfl⟩
  · rw [hperform, BitWriter.writeBits] at h ⊢
    split at h
    · cases h
    · rename_i hvalid
      rw [if_neg hvalid]
      exact ⟨rfl, rfl⟩

/-- The writer represents the bit string. -/
structure Represents (view : List Byte) (s : BitString) (w : BitWriter) : Prop where
  holds : w.Holds view s.bits
  isValid : w.isValid = !s.failed

/-- **One call**, on the writer and on the bit string. -/
theorem Represents.perform {s : BitString} (h : w.Represents view s) {op : BitWrite} (hop : op.Small) :
    (w.perform op).1 = (s.append (8 * view.length) op).1 ∧
      (w.perform op).2.Represents view (s.append (8 * view.length) op).2 := by
  have hiff : Accepts view s.bits w op.bits.length op.width ↔ s.Accepts (8 * view.length) op := by
    rw [Accepts, BitString.Accepts, h.isValid, Bool.not_eq_true']
  by_cases hacc : s.Accepts (8 * view.length) op
  · obtain ⟨hresult, hvalid, hholds⟩ := h.holds.perform hop (hiff.2 hacc)
    rw [BitString.append, if_pos hacc]
    exact ⟨hresult, hholds, hvalid⟩
  · rw [BitString.append, if_neg hacc, h.holds.perform_failed hop (mt hiff.1 hacc)]
    exact ⟨rfl, h.holds.setValid false, rfl⟩

/-- **Any sequence of calls**, on the writer and on the bit string. -/
theorem Represents.performAll (ops : List BitWrite) : ∀ {w : BitWriter} {s : BitString},
    w.Represents view s → (∀ op ∈ ops, op.Small) →
      (w.performAll ops).1 = (s.appendAll (8 * view.length) ops).1 ∧
        (w.performAll ops).2.Represents view (s.appendAll (8 * view.length) ops).2 := by
  induction ops with
  | nil =>
    intro w s h _
    exact ⟨rfl, h⟩
  | cons op ops ih =>
    intro w s h hops
    obtain ⟨hresult, hnext⟩ := h.perform (hops op List.mem_cons_self)
    obtain ⟨hresults, hend⟩ := ih hnext fun op' hop' => hops op' (List.mem_cons_of_mem op hop')
    refine ⟨?_, hend⟩
    rw [BitWriter.performAll, BitString.appendAll]
    simp only [hresult, hresults]

theorem represents_init (h0 : view ≠ []) (hsmall : view.length < 2 ^ 28) :
    (init view).Represents view ⟨[], false⟩ where
  holds := holds_init hsmall
  isValid := decide_eq_true (List.length_pos_iff.2 h0)

/-- What a writer that represents a bit string captures: its bits, and zeros up to the next
byte. -/
theorem Represents.capture {s : BitString} (h : w.Represents view s) (hs : s.failed = false) :
    ofWords w.capture =
      s.bits ++ List.replicate (8 * w.getByteDataLength - s.bits.length) false := by
  have hvalid : w.isValid = true := by
    rw [h.isValid, hs]
    rfl
  rw [BitWriter.capture, if_pos hvalid, h.holds.getByteDataLength]
  exact h.holds.used

/-- **The bit writer concatenates**, for any sequence of calls. The results are those of the
bit string, and the buffer holds its bits, then zeros up to the next byte, and is unchanged
behind. A call that fails, whichever it is, changes neither the buffer nor the length. -/
theorem writes_concatenate {view : List Byte} (h0 : view ≠ []) (hsmall : view.length < 2 ^ 28)
    (ops : List BitWrite) (hops : ∀ op ∈ ops, op.Small) :
    let r := (init view).performAll ops
    let s := BitString.appendAll (8 * view.length) ⟨[], false⟩ ops
    r.1 = s.1 ∧ r.2.getBitDataLength = s.2.bits.length ∧
      (ofWords r.2.buffer).take r.2.getBitDataLength = s.2.bits ∧
      (∀ i, r.2.getBitDataLength ≤ i → i < 8 * r.2.getByteDataLength →
        (ofWords r.2.buffer)[i]? = some false) ∧
      r.2.buffer.length = view.length ∧
      r.2.buffer.drop r.2.getByteDataLength = view.drop r.2.getByteDataLength ∧
      ∀ op, (r.2.perform op).1 = false →
        (r.2.perform op).2.buffer = r.2.buffer ∧
          (r.2.perform op).2.getBitDataLength = r.2.getBitDataLength := by
  intro r s
  obtain ⟨hresults, hend⟩ := (represents_init h0 hsmall).performAll ops hops
  have h : r.2.Holds view s.2.bits := hend.holds
  have hsplit : ofWords r.2.buffer = s.2.bits ++
      (List.replicate (8 * r.2.usedBytes - s.2.bits.length) false ++
        ofWords (r.2.buffer.drop r.2.usedBytes)) := by
    rw [← List.append_assoc, ← h.used, ← ofWords_append, List.take_append_drop]
  refine ⟨hresults, h.getBitDataLength, ?_, ?_, h.length, ?_, ?_⟩
  · rw [h.getBitDataLength, hsplit, List.take_left]
  · intro i hlow hhigh
    rw [h.getBitDataLength] at hlow
    rw [h.getByteDataLength] at hhigh
    have hpad : i - s.2.bits.length < 8 * r.2.usedBytes - s.2.bits.length := by omega
    rw [hsplit, List.getElem?_append_right hlow,
      List.getElem?_append_left (by rwa [List.length_replicate]), List.getElem?_replicate, if_pos hpad]
  · rw [h.getByteDataLength]
    exact h.rest
  · intro op hfail
    exact perform_unchanged hfail

/-- A byte, five bits of a word, a span over the byte boundary, a word that does not fit. -/
def fourCalls : List BitWrite :=
  [.write8 0xA5, .writeWord 0xFFFF 5, .writeSpan [0x0F, 0xF0], .write16 0x1234]

theorem writes_concatenate_fourCalls :
    let r := (init [1, 2, 3, 4, 5]).performAll fourCalls
    let s := BitString.appendAll (8 * [(1 : Byte), 2, 3, 4, 5].length) ⟨[], false⟩ fourCalls
    r.1 = s.1 ∧ r.2.getBitDataLength = s.2.bits.length ∧
      (ofWords r.2.buffer).take r.2.getBitDataLength = s.2.bits ∧
      (∀ i, r.2.getBitDataLength ≤ i → i < 8 * r.2.getByteDataLength →
        (ofWords r.2.buffer)[i]? = some false) ∧
      r.2.buffer.length = [(1 : Byte), 2, 3, 4, 5].length ∧
      r.2.buffer.drop r.2.getByteDataLength = [1, 2, 3, 4, 5].drop r.2.getByteDataLength ∧
      ∀ op, (r.2.perform op).1 = false →
        (r.2.perform op).2.buffer = r.2.buffer ∧
          (r.2.perform op).2.getBitDataLength = r.2.getBitDataLength := by
  have hsmall : ∀ op ∈ fourCalls, op.Small := by
    simp [fourCalls, BitWrite.Small]
  exact writes_concatenate (by decide) (by decide) fourCalls hsmall

example : ((init [1, 2, 3, 4, 5]).performAll fourCalls).1 = [true, true, true, false] := by decide

/-- The size in bits of a span can wrap to zero, and zero bits fit anywhere. -/
theorem writeSpan_wraps {bytes : List Byte} (h : bytes.length * 8 % 2 ^ 32 = 0) :
    ((init [0]).writeSpan bytes).1 = true := by
  rw [BitWriter.writeSpan, h]
  rfl

theorem long_span_rejected {bytes : List Byte} (h : 1 < bytes.length) :
    ¬ BitString.Accepts 8 ⟨[], false⟩ (.writeSpan bytes) := by
  rintro ⟨-, -, hfits⟩
  rw [BitWrite.bits, length_ofWords, List.length_nil] at hfits
  omega

/-- **A span of 2^29 bytes is accepted** by a writer over one byte. -/
theorem huge_span_accepted :
    ((init [0]).performAll [.writeSpan (List.replicate (2 ^ 29) 0)]).1 = [true] ∧
      (BitString.appendAll 8 ⟨[], false⟩ [.writeSpan (List.replicate (2 ^ 29) 0)]).1 = [false] := by
  constructor
  · have hwrap : (List.replicate (2 ^ 29) (0 : Byte)).length * 8 % 2 ^ 32 = 0 := by
      rw [List.length_replicate]
      norm_num
    rw [BitWriter.performAll, BitWriter.perform, writeSpan_wraps hwrap, BitWriter.performAll]
  · have hlong : 1 < (List.replicate (2 ^ 29) (0 : Byte)).length := by
      rw [List.length_replicate]
      norm_num
    rw [BitString.appendAll, BitString.append, if_neg (long_span_rejected hlong), BitString.appendAll]

end BitWriter

end PWSat2OBC
