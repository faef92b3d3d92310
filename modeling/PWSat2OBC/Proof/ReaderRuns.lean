import PWSat2OBC.Spec.ReaderRuns

/-!
# Reads stay inside the buffer

`Reads r n zero value x`: `x` is what a read of `n` bytes comes to for a valid reader. Every operation
is one of these (`reads`), from one lemma about numbers, one about spans and one about
strings. `clean_iff`: in a session that is still inside its buffer the next read is clean exactly
if it is safe, and `reads_clean` says the same of whole runs.

The position is a `uint16_t` and advanced before it is compared with the size of the buffer:
a reader that skips 65535 bytes steps back by one and stays valid (`skip_steps_back`).
-/

namespace PWSat2OBC

namespace Reader

variable {r : Reader} {n : ℕ}

theorem updateState_of_valid (h : r.isValid = true) : r.updateState n =
    ⟨r.buffer, (r.position + n) % 2 ^ 16, decide ((r.position + n) % 2 ^ 16 ≤ r.buffer.length)⟩ := by
  rw [updateState, if_pos h]

theorem updateState_of_not_valid (h : r.isValid = false) : r.updateState n = r := by
  rw [updateState, h]
  rfl

/-- A reader that failed is not valid after another read. -/
theorem isValid_of_updateState (h : (r.updateState n).isValid = true) : r.isValid = true := by
  by_contra hnot
  rw [updateState, if_neg hnot] at h
  exact hnot h

/-- The reader of the same buffer at another place. -/
def placed (r : Reader) (position : ℕ) (isValid : Bool) : Reader := ⟨r.buffer, position, isValid⟩

theorem updateState_fits (h : r.isValid = true) (hfits : r.position + n ≤ r.buffer.length)
    (h16 : r.position + n < 2 ^ 16) : r.updateState n = r.placed (r.position + n) true := by
  rw [updateState_of_valid h, Nat.mod_eq_of_lt h16, decide_eq_true hfits, placed]

theorem updateState_unfit (h : r.isValid = true) (hunfit : r.buffer.length < r.position + n)
    (h16 : r.position + n < 2 ^ 16) : r.updateState n = r.placed (r.position + n) false := by
  rw [updateState_of_valid h, Nat.mod_eq_of_lt h16, decide_eq_false (by omega), placed]

end Reader

/-- A read of `n` bytes by a valid reader: the value if they are there, else `zero`. Past `2 ^ 16` the
reader is never where it should be. -/
structure Reads {α : Type} (r : Reader) (n : ℕ) (zero value : α) (x : Option (α × Reader)) : Prop where
  fits : r.position + n ≤ r.buffer.length → r.position + n < 2 ^ 16 →
    x = some (value, r.placed (r.position + n) true)
  unfit : r.buffer.length < r.position + n → r.position + n < 2 ^ 16 →
    x = some (zero, r.placed (r.position + n) false)
  wraps : 2 ^ 16 ≤ r.position + n → ∀ y, x = some y → y.2.isValid = true ∧ y.2.position ≠ r.position + n

/-- The result is put into another form. -/
theorem Reads.map {α β : Type} {r : Reader} {n : ℕ} {zero value : α} {x : Option (α × Reader)}
    (h : Reads r n zero value x) (f : α → β) :
    Reads r n (f zero) (f value) (x.map fun y => (f y.1, y.2)) where
  fits hfits h16 := by rw [h.fits hfits h16]; rfl
  unfit hunfit h16 := by rw [h.unfit hunfit h16]; rfl
  wraps h16 y hy := by
    obtain ⟨z, hz, rfl⟩ := Option.map_eq_some_iff.1 hy
    exact h.wraps h16 z hz

namespace SpanReader

variable {r : Reader} {n w : ℕ}

/-! ## Numbers -/

/-- The bytes asked for. -/
def ahead (r : Reader) (n : ℕ) : List Byte := (r.buffer.drop r.position).take n

theorem length_ahead (hfits : r.position + n ≤ r.buffer.length) : (ahead r n).length = n := by
  rw [ahead, List.length_take, List.length_drop]
  omega

/-- Counted back from behind the bytes asked for. -/
theorem back_of_fits (hfits : r.position + n ≤ r.buffer.length) (valid : Bool) {i : ℕ} (h0 : 1 ≤ i) (hi : i ≤ n) :
    back (r.placed (r.position + n) valid) i = some ((ahead r n).getD (n - i) 0) := by
  have hsub : r.position + n - i = r.position + (n - i) := by omega
  have hlt : r.position + (n - i) < r.buffer.length := by omega
  have hle : i ≤ r.position + n := by omega
  have hback : back (r.placed (r.position + n) valid) i = r.buffer[r.position + n - i]? := if_pos hle
  rw [hback, hsub, ahead, List.getD_eq_getElem?_getD, List.getElem?_take_of_lt (by omega), List.getElem?_drop,
    List.getElem?_eq_getElem hlt]
  rfl

/-- The bytes shifted in. -/
def shifted (w : ℕ) (bytes : List Byte) : BitVec w :=
  bytes.foldl (fun value byte => (value <<< 8) + byte.setWidth w) 0#w

/-- Shifting in the highest byte first gives the number of which these are the bytes. -/
theorem shifted_reverse (bytes : List Byte) (hw : 8 * bytes.length ≤ w) :
    shifted w bytes.reverse = BitVec.ofNat w (Endian.value bytes) := by
  rw [shifted, List.foldl_reverse]
  induction bytes with
  | nil => rfl
  | cons byte bytes ih =>
    have hlen : (byte :: bytes).length = bytes.length + 1 := rfl
    rw [List.foldr_cons, ih (by omega), Endian.value_cons]
    apply BitVec.eq_of_toNat_eq
    simp only [BitVec.toNat_add, BitVec.toNat_shiftLeft, BitVec.toNat_setWidth, BitVec.toNat_ofNat,
      Nat.shiftLeft_eq]
    rw [Nat.mod_mul_mod, Nat.mod_add_mod, Nat.add_mod_mod, Nat.add_comm, Nat.mul_comm]

theorem mapM_eq_some_map {f : ℕ → Option Byte} {g : ℕ → Byte} {ds : List ℕ} (h : ∀ d ∈ ds, f d = some (g d)) :
    ds.mapM f = some (ds.map g) := by
  induction ds with
  | nil => rfl
  | cons d ds ih =>
    rw [List.mapM_cons, h d List.mem_cons_self, ih fun d' hd' => h d' (List.mem_cons_of_mem d hd')]
    rfl

theorem mapM_eq_none_of_mem {f : ℕ → Option Byte} {d : ℕ} {ds : List ℕ} (hd : d ∈ ds) (h : f d = none) :
    ds.mapM f = none := by
  induction ds with
  | nil => exact absurd hd List.not_mem_nil
  | cons d' ds ih =>
    rw [List.mapM_cons]
    rcases List.mem_cons.1 hd with rfl | hd
    · rw [h]
      rfl
    · rw [ih hd]
      cases f d' <;> rfl

theorem readNumber_of_valid {ds : List ℕ} (h : (r.updateState n).isValid = true) :
    readNumber r w n ds = (ds.mapM (back (r.updateState n))).map fun bytes => (shifted w bytes, r.updateState n) := by
  unfold readNumber
  dsimp only
  rw [if_pos h]
  cases ds.mapM (back (r.updateState n)) <;> rfl

theorem readNumber_of_not_valid {ds : List ℕ} (h : (r.updateState n).isValid = false) :
    readNumber r w n ds = some (0#w, r.updateState n) := by
  unfold readNumber
  dsimp only
  rw [h]
  rfl

/-- Past `2 ^ 16` the first byte asked for would lie before the buffer. -/
theorem readNumber_eq_none (hvalid : r.isValid = true) (hle : r.position ≤ r.buffer.length)
    (hsmall : r.position < 2 ^ 16) {ds : List ℕ} (hn : n < 2 ^ 16) (hmem : n ∈ ds) (h16 : 2 ^ 16 ≤ r.position + n) :
    readNumber r w n ds = none := by
  have hmod : ¬ n ≤ (r.position + n) % 2 ^ 16 := by omega
  have hnext := Reader.updateState_of_valid (n := n) hvalid
  have hback : back (r.updateState n) n = none := by
    rw [hnext]
    exact if_neg hmod
  have hstays : (r.updateState n).isValid = true := by
    rw [hnext]
    exact decide_eq_true (by omega)
  rw [readNumber_of_valid hstays, mapM_eq_none_of_mem hmem hback]
  rfl

/-- **Numbers.** The bytes at the distances `ds` are shifted in. -/
theorem reads_readNumber (hvalid : r.isValid = true) (hle : r.position ≤ r.buffer.length)
    (hsmall : r.position < 2 ^ 16) {ds : List ℕ} (hn : n < 2 ^ 16) (hmem : n ∈ ds) (hds : ∀ d ∈ ds, 1 ≤ d ∧ d ≤ n) :
    Reads r n 0#w (shifted w (ds.map fun d => (ahead r n).getD (n - d) 0)) (readNumber r w n ds) where
  fits hfits h16 := by
    have hnext := Reader.updateState_fits hvalid hfits h16
    have hback := mapM_eq_some_map fun d hd =>
      back_of_fits (r := r) hfits true (hds d hd).1 (hds d hd).2
    rw [readNumber_of_valid (by rw [hnext]; rfl), hnext, hback]
    rfl
  unfit hunfit h16 := by
    have hnext := Reader.updateState_unfit hvalid hunfit h16
    rw [readNumber_of_not_valid (by rw [hnext]; rfl), hnext]
  wraps h16 y hy := by
    rw [readNumber_eq_none hvalid hle hsmall hn hmem h16] at hy
    exact absurd hy.symm (Option.some_ne_none y)

theorem map_littleEndian {bytes : List Byte} (h : bytes.length = n) :
    (List.range' 1 n).map (fun d => bytes.getD (n - d) 0) = bytes.reverse := by
  apply List.ext_getElem
  · rw [List.length_map, List.length_range', List.length_reverse, h]
  · intro i h1 h2
    rw [List.length_reverse] at h2
    have hlt : n - (1 + 1 * i) < bytes.length := by omega
    rw [List.getElem_map, List.getElem_range', List.getElem_reverse, List.getD_eq_getElem?_getD,
      List.getElem?_eq_getElem hlt, Option.getD_some]
    congr 1
    omega

section

variable (hvalid : r.isValid = true) (hle : r.position ≤ r.buffer.length) (hsmall : r.position < 2 ^ 16)

include hvalid hle hsmall

theorem reads_littleEndian (h0 : 0 < n) (hw : 8 * n ≤ w) (hn : n < 2 ^ 16) :
    Reads r n 0#w (BitVec.ofNat w (Endian.value (ahead r n))) (readNumber r w n (List.range' 1 n)) := by
  have hmem : n ∈ List.range' 1 n := List.mem_range'_1.2 ⟨h0, by omega⟩
  have hds : ∀ d ∈ List.range' 1 n, 1 ≤ d ∧ d ≤ n := by
    intro d hd
    have := List.mem_range'_1.1 hd
    omega
  have hreads := reads_readNumber (w := w) hvalid hle hsmall hn hmem hds
  refine ⟨fun hfits h16 => ?_, hreads.unfit, hreads.wraps⟩
  have hlen := length_ahead hfits
  rw [hreads.fits hfits h16, map_littleEndian hlen, shifted_reverse _ (by rwa [hlen])]

theorem reads_bigEndian (h0 : 0 < n) (hw : 8 * n ≤ w) (hn : n < 2 ^ 16) :
    Reads r n 0#w (BitVec.ofNat w (Endian.value (ahead r n).reverse)) (readNumber r w n (List.range' 1 n).reverse) := by
  have hmem : n ∈ (List.range' 1 n).reverse := List.mem_reverse.2 (List.mem_range'_1.2 ⟨h0, by omega⟩)
  have hds : ∀ d ∈ (List.range' 1 n).reverse, 1 ≤ d ∧ d ≤ n := by
    intro d hd
    have := List.mem_range'_1.1 (List.mem_reverse.1 hd)
    omega
  have hreads := reads_readNumber (w := w) hvalid hle hsmall hn hmem hds
  refine ⟨fun hfits h16 => ?_, hreads.unfit, hreads.wraps⟩
  have hlen := length_ahead hfits
  rw [hreads.fits hfits h16, List.map_reverse, map_littleEndian hlen,
    shifted_reverse _ (by rwa [List.length_reverse, hlen])]

/-! ## Spans -/

omit hvalid hle hsmall in
theorem readArray_of_not_valid (h : (r.updateState n).isValid = false) :
    readArray r n = some ((0, 0), r.updateState n) := by
  unfold readArray
  dsimp only
  rw [h]
  rfl

omit hvalid hle hsmall in
theorem readArray_of_valid (h : (r.updateState n).isValid = true) : readArray r n =
    if n ≤ (r.updateState n).position ∧ (r.updateState n).position ≤ (r.updateState n).buffer.length then
      some (((r.updateState n).position - n, n), r.updateState n)
    else none := by
  unfold readArray
  dsimp only
  rw [if_pos h]

theorem reads_readArray (hn : n < 2 ^ 16) : Reads r n (0, 0) (r.position, n) (readArray r n) where
  fits hfits h16 := by
    have hnext := Reader.updateState_fits hvalid hfits h16
    have hinside : n ≤ r.position + n ∧ r.position + n ≤ r.buffer.length := ⟨Nat.le_add_left _ _, hfits⟩
    have hstart : r.position + n - n = r.position := Nat.add_sub_cancel _ _
    rw [readArray_of_valid (by rw [hnext]; rfl), hnext]
    exact (if_pos hinside).trans (congrArg (fun start => some ((start, n), r.placed (r.position + n) true)) hstart)
  unfit hunfit h16 := by
    have hnext := Reader.updateState_unfit hvalid hunfit h16
    rw [readArray_of_not_valid (by rw [hnext]; rfl), hnext]
  wraps h16 y hy := by
    -- the span would begin before the buffer
    have hmod : ¬ n ≤ (r.position + n) % 2 ^ 16 := by omega
    have hnext := Reader.updateState_of_valid (n := n) hvalid
    have hstays : (r.updateState n).isValid = true := by
      rw [hnext]
      exact decide_eq_true (by omega)
    rw [readArray_of_valid hstays, hnext, if_neg fun hinside => hmod hinside.1] at hy
    exact absurd hy.symm (Option.some_ne_none y)

end

/-! ## Strings -/

/-- The scan counts up to a zero or to the limit. -/
theorem strlenN_eq (s : ℕ → Byte) (maxSize count : ℕ) : strlenN s maxSize count =
    count + (((List.range maxSize).map fun i => s (count + i)).takeWhile (· ≠ 0)).length := by
  induction maxSize generalizing count with
  | zero => rfl
  | succ maxSize ih =>
    have hshift : ((List.range maxSize).map Nat.succ).map (fun i => s (count + i)) =
        (List.range maxSize).map fun i => s (count + 1 + i) := by
      rw [List.map_map]
      apply List.map_congr_left
      intro i _
      rw [Function.comp_apply, Nat.succ_eq_add_one, Nat.add_assoc, Nat.add_comm 1]
    rw [strlenN, List.range_succ_eq_map, List.map_cons, hshift]
    by_cases hzero : s count = 0
    · rw [if_pos hzero, List.takeWhile_cons_of_neg (by simpa using hzero)]
      rfl
    · rw [if_neg hzero, ih, List.takeWhile_cons_of_pos (by simpa using hzero), List.length_cons]
      omega

/-- What is ahead, read from memory. -/
theorem map_memory (p : Placement) {m : ℕ} (hm : r.position + m ≤ r.buffer.length) :
    (List.range m).map (fun i => memory r p (0 + i)) = (r.buffer.drop r.position).take m := by
  apply List.ext_getElem
  · rw [List.length_map, List.length_range, List.length_take, List.length_drop]
    omega
  · intro i h1 h2
    rw [List.length_map, List.length_range] at h1
    have hlt : r.position + i < r.buffer.length := by omega
    rw [List.getElem_map, List.getElem_range, List.getElem_take, List.getElem_drop, Nat.zero_add, memory, if_pos hlt,
      List.getD_eq_getElem?_getD, List.getElem?_eq_getElem hlt, Option.getD_some]

/-- Over a buffer with an address, the string is what stands ahead up to a zero. -/
theorem readString_fst (p : Placement) (maxsize : ℕ) (hle : r.position ≤ r.buffer.length) (haddress : noAddress r p = false) :
    (readString r p maxsize).1 = (r.position, (ReaderOp.stringAhead r maxsize).length) := by
  have hnonneg : 0 ≤ r.remainingSize := by
    unfold Reader.remainingSize
    omega
  have hremaining : sizeT r.remainingSize = r.buffer.length - r.position := by
    rw [sizeT, if_pos hnonneg, Reader.remainingSize]
    exact Int.toNat_sub _ _
  have hlimit : max 0 (min maxsize (r.buffer.length - r.position)) = min maxsize (r.buffer.length - r.position) :=
    Nat.max_eq_right (Nat.zero_le _)
  have htake : (r.buffer.drop r.position).take (min maxsize (r.buffer.length - r.position)) =
      (r.buffer.drop r.position).take maxsize := by
    rw [← List.length_drop, ← List.take_take, List.take_length]
  unfold readString
  dsimp only
  rw [haddress, hremaining, hlimit, if_neg Bool.false_ne_true, strlenN_eq, map_memory p (by omega), htake, Nat.zero_add]
  rfl

theorem length_stringAhead_le (r : Reader) (maxsize : ℕ) :
    (ReaderOp.stringAhead r maxsize).length ≤ r.buffer.length - r.position := by
  have h1 := (List.takeWhile_sublist (l := (r.buffer.drop r.position).take maxsize) (· ≠ 0)).length_le
  have h2 := List.length_take_le' maxsize (r.buffer.drop r.position)
  rw [List.length_drop] at h2
  exact h1.trans h2

theorem reads_readString (p : Placement) (maxsize : ℕ) (hvalid : r.isValid = true) (hle : r.position ≤ r.buffer.length)
    (haddress : noAddress r p = false) :
    Reads r (ReaderOp.stringAhead r maxsize).length (0, 0) (r.position, (ReaderOp.stringAhead r maxsize).length)
      (some (readString r p maxsize)) := by
  have hfst := readString_fst p maxsize hle haddress
  have hsnd : (readString r p maxsize).2 = r.updateState (ReaderOp.stringAhead r maxsize).length := by
    have hlen : (readString r p maxsize).1.2 = (ReaderOp.stringAhead r maxsize).length := by rw [hfst]
    rw [← hlen]
    rfl
  have hlen := length_stringAhead_le r maxsize
  generalize (ReaderOp.stringAhead r maxsize).length = n at hfst hsnd hlen ⊢
  have hstring : readString r p maxsize = ((r.position, n), r.updateState n) := Prod.ext hfst hsnd
  rw [hstring]
  refine ⟨fun hfits h16 => ?_, fun hunfit => ?_, fun h16 y hy => ?_⟩
  · rw [Reader.updateState_fits hvalid hfits h16]
  · omega
  · obtain rfl := Option.some.inj hy
    rw [Reader.updateState_of_valid hvalid]
    exact ⟨decide_eq_true (by omega), by dsimp only; omega⟩

/-! ## The reader without the checks

Up to a position of `2 ^ 16` the operations are those of `Reader`, which assume the bytes to be there. -/

theorem updateState_eq_of_valid (h16 : r.isValid = true → r.position + n < 2 ^ 16)
    (hstays : (r.updateState n).isValid = true) :
    r.updateState n = r.placed (r.position + n) true ∧ r.position + n ≤ r.buffer.length := by
  have hvalid := Reader.isValid_of_updateState hstays
  have hfits : r.position + n ≤ r.buffer.length := by
    rw [Reader.updateState_of_valid hvalid, Nat.mod_eq_of_lt (h16 hvalid)] at hstays
    exact of_decide_eq_true hstays
  exact ⟨Reader.updateState_fits hvalid hfits (h16 hvalid), hfits⟩

theorem readByte_eq (h16 : r.isValid = true → r.position + 1 < 2 ^ 16) : readByte r = some r.readByte := by
  cases hstays : (r.updateState 1).isValid with
  | false =>
    unfold Reader.readByte
    dsimp only
    rw [readByte, readNumber_of_not_valid hstays, hstays]
    rfl
  | true =>
    obtain ⟨hnext, hfits⟩ := updateState_eq_of_valid h16 hstays
    have hback : back (r.updateState 1) 1 = some ((r.updateState 1).at' ((r.updateState 1).position - 1)) := by
      rw [hnext]
      exact (if_pos (Nat.le_add_left 1 _)).trans (by
        rw [Reader.at', Reader.placed]
        dsimp only
        rw [Nat.add_sub_cancel, List.getD_eq_getElem?_getD, List.getElem?_eq_getElem (by omega), Option.getD_some])
    have hshifted : ∀ byte : Byte, shifted 8 [byte] = byte := fun byte => by
      rw [shifted, List.foldl_cons, List.foldl_nil, BitVec.zero_shiftLeft, BitVec.zero_add, BitVec.setWidth_eq]
    unfold Reader.readByte
    dsimp only
    rw [readByte, readNumber_of_valid hstays, if_pos hstays, List.mapM_cons, hback]
    exact congrArg (fun byte => some (byte, r.updateState 1)) (hshifted _)

end SpanReader

/-! ## What an operation does -/

namespace ReaderOp

open SpanReader

variable {r : Reader} {n w : ℕ} {bytes : List Byte}

theorem toNat_value (hw : 8 * bytes.length ≤ w) :
    (BitVec.ofNat w (Endian.value bytes)).toNat = Endian.value bytes := by
  rw [BitVec.toNat_ofNat]
  exact Nat.mod_eq_of_lt ((Endian.value_lt bytes).trans_le (Nat.pow_le_pow_right (by decide) hw))

theorem reads_unsigned {x : Option (BitVec w × Reader)} (hw : 8 * bytes.length ≤ w)
    (h : Reads r n 0#w (BitVec.ofNat w (Endian.value bytes)) x) :
    Reads r n (.number 0) (.number (Endian.value bytes)) (x.map unsigned) := by
  have hmap := h.map fun value => ReaderResult.number value.toNat
  rw [toNat_value hw, BitVec.toNat_ofNat, Nat.zero_mod] at hmap
  exact hmap

theorem reads_signed {x : Option (BitVec w × Reader)} {value : BitVec w} (h : Reads r n 0#w value x) :
    Reads r n (.number 0) (.number value.toInt) (x.map signed) := by
  have hmap := h.map fun value => ReaderResult.number value.toInt
  rw [BitVec.toInt_zero] at hmap
  exact hmap

theorem reads_spanned {start : ℕ} {x : Option ((ℕ × ℕ) × Reader)}
    (hlen : r.position + n ≤ r.buffer.length → bytes.length = n) (h : Reads r n (0, 0) (start, n) x) :
    Reads r n (.span 0 0) (.span start bytes.length) (x.map spanned) := by
  have hmap := h.map fun value => ReaderResult.span value.1 value.2
  refine ⟨fun hfits h16 => ?_, hmap.unfit, hmap.wraps⟩
  rw [hlen hfits]
  exact hmap.fits hfits h16

/-- Two decimal digits, of which the upper one is masked. -/
theorem toNat_bcd (byte mask : Byte) :
    ((byte &&& mask) >>> 4 * 10#8 + (byte &&& 0x0F#8)).toNat =
      (byte.toNat &&& mask.toNat) / 16 * 10 + byte.toNat % 16 := by
  have hand : byte.toNat &&& mask.toNat ≤ byte.toNat := Nat.and_le_left
  have hbyte := byte.isLt
  have hlow : byte.toNat &&& 15 = byte.toNat % 16 := Nat.and_two_pow_sub_one_eq_mod byte.toNat 4
  simp only [BitVec.toNat_add, BitVec.toNat_mul, BitVec.toNat_ushiftRight, BitVec.toNat_and, BitVec.toNat_ofNat,
    Nat.shiftRight_eq_div_pow, Nat.reducePow, Nat.reduceMod, hlow]
  omega

section

variable (hvalid : r.isValid = true) (hle : r.position ≤ r.buffer.length) (hsmall : r.position < 2 ^ 16)

include hvalid hle hsmall

theorem reads_little (n w : ℕ) (h0 : 0 < n) (hw : 8 * n ≤ w) (hn : n < 2 ^ 16) :
    Reads r n (.number 0) (.number (Endian.value (ahead r n))) ((readNumber r w n (List.range' 1 n)).map unsigned) := by
  have hlen : (ahead r n).length ≤ n := List.length_take_le n _
  exact reads_unsigned (by omega) (reads_littleEndian hvalid hle hsmall h0 hw hn)

theorem reads_big (n w : ℕ) (h0 : 0 < n) (hw : 8 * n ≤ w) (hn : n < 2 ^ 16) :
    Reads r n (.number 0) (.number (Endian.value (ahead r n).reverse))
      ((readNumber r w n (List.range' 1 n).reverse).map unsigned) := by
  have hlen : (ahead r n).length ≤ n := List.length_take_le n _
  exact reads_unsigned (by rw [List.length_reverse]; omega) (reads_bigEndian hvalid hle hsmall h0 hw hn)

theorem reads_readByteBCD (mask : Byte) :
    Reads r 1 (.number 0) (value r.position (ahead r 1) (readByteBCD mask))
      ((SpanReader.readByteBCD r mask).map unsigned) := by
  have hlen : (ahead r 1).length ≤ 1 := List.length_take_le 1 _
  have hbyte := ((reads_littleEndian (n := 1) (w := 8) hvalid hle hsmall (by decide) (by decide) (by decide)).map
    fun byte => (byte &&& mask) >>> 4 * 10#8 + (byte &&& 0x0F#8)).map fun byte => ReaderResult.number byte.toNat
  rw [toNat_bcd, toNat_bcd, toNat_value (by omega), BitVec.toNat_ofNat, Nat.zero_mod, Nat.zero_and] at hbyte
  exact hbyte

/-- Lost past `2 ^ 16`, a reader that skips stands before the place it started from, so it stays valid. -/
theorem reads_skip (length : BitVec 16) :
    Reads r length.toNat (ReaderResult.status false) (ReaderResult.status true)
      (some (ReaderResult.status (r.updateState length.toNat).isValid, r.updateState length.toNat)) where
  fits hfits h16 := by rw [Reader.updateState_fits hvalid hfits h16]; rfl
  unfit hunfit h16 := by rw [Reader.updateState_unfit hvalid hunfit h16]; rfl
  wraps h16 y hy := by
    have hn := length.isLt
    have hlt : (r.position + length.toNat) % 2 ^ 16 < 2 ^ 16 := Nat.mod_lt _ (Nat.two_pow_pos 16)
    obtain rfl := Option.some.inj hy
    rw [Reader.updateState_of_valid hvalid]
    exact ⟨decide_eq_true (by omega), fun heq => absurd (heq.symm.trans_lt hlt) (Nat.not_lt.2 h16)⟩

theorem reads_readToEnd : Reads r ((r.buffer.length - r.position) % 2 ^ 16) (ReaderResult.span 0 0)
    (ReaderResult.span r.position (ahead r ((r.buffer.length - r.position) % 2 ^ 16)).length)
      ((SpanReader.readToEnd r).map spanned) := by
  have hsize : (r.remainingSize % 2 ^ 16).toNat = (r.buffer.length - r.position) % 2 ^ 16 := by
    unfold Reader.remainingSize
    omega
  have hlt : (r.buffer.length - r.position) % 2 ^ 16 < 2 ^ 16 := Nat.mod_lt _ (Nat.two_pow_pos 16)
  rw [SpanReader.readToEnd, hsize]
  exact reads_spanned (fun hfits => length_ahead hfits) (reads_readArray hvalid hle hsmall hlt)

/-- **Every operation is a read** of as many bytes as it asks for. -/
theorem reads (p : Placement) (op : ReaderOp) (haddress : noAddress r p = false) :
    ∃ zero, zero.isEmpty = true ∧
      Reads r (op.size r) zero (op.value r.position (ahead r (op.size r))) (op.perform p r) := by
  have little := reads_little hvalid hle hsmall
  have big := reads_big hvalid hle hsmall
  cases op with
  | skip length => exact ⟨_, rfl, reads_skip hvalid hle hsmall length⟩
  | readByte => exact ⟨_, rfl, little 1 8 (by decide) (by decide) (by decide)⟩
  | readByteBCD mask => exact ⟨_, rfl, reads_readByteBCD hvalid hle hsmall mask⟩
  | readWordLE => exact ⟨_, rfl, little 2 16 (by decide) (by decide) (by decide)⟩
  | readWordBE => exact ⟨_, rfl, big 2 16 (by decide) (by decide) (by decide)⟩
  | readWordAndHalfLE => exact ⟨_, rfl, little 3 32 (by decide) (by decide) (by decide)⟩
  | readWordAndHalfBE => exact ⟨_, rfl, big 3 32 (by decide) (by decide) (by decide)⟩
  | readDoubleWordLE => exact ⟨_, rfl, little 4 32 (by decide) (by decide) (by decide)⟩
  | readDoubleWordBE => exact ⟨_, rfl, big 4 32 (by decide) (by decide) (by decide)⟩
  | readQuadWordLE => exact ⟨_, rfl, little 8 64 (by decide) (by decide) (by decide)⟩
  | readSignedWordLE =>
    exact ⟨_, rfl, reads_signed
      (reads_littleEndian (n := 2) (w := 16) hvalid hle hsmall (by decide) (by decide) (by decide))⟩
  | readSignedWordBE =>
    exact ⟨_, rfl, reads_signed
      (reads_bigEndian (n := 2) (w := 16) hvalid hle hsmall (by decide) (by decide) (by decide))⟩
  | readSignedDoubleWordLE =>
    exact ⟨_, rfl, reads_signed
      (reads_littleEndian (n := 4) (w := 32) hvalid hle hsmall (by decide) (by decide) (by decide))⟩
  | readArray length =>
    exact ⟨_, rfl, reads_spanned (fun hfits => length_ahead hfits) (reads_readArray hvalid hle hsmall length.isLt)⟩
  | readToEnd => exact ⟨_, rfl, reads_readToEnd hvalid hle hsmall⟩
  | readString maxsize =>
    exact ⟨_, rfl, reads_spanned (fun hfits => length_ahead hfits) (reads_readString p maxsize hvalid hle haddress)⟩

end

/-- A reader that is not valid stays as it is, and its numbers and spans are empty. -/
theorem perform_of_not_valid (p : Placement) (op : ReaderOp) (hstring : op.isString = false) (h : r.isValid = false) :
    ∃ result, op.perform p r = some (result, r) ∧ result.isEmpty = true := by
  have hsame : ∀ n, r.updateState n = r := fun n => Reader.updateState_of_not_valid h
  have number : ∀ w n ds, readNumber r w n ds = some (0#w, r) := fun w n ds => by
    rw [readNumber_of_not_valid (by rw [hsame, h]), hsame]
  have array : ∀ n, SpanReader.readArray r n = some ((0, 0), r) := fun n => by
    rw [readArray_of_not_valid (by rw [hsame, h]), hsame]
  cases op with
  | skip length =>
    refine ⟨.status false, ?_, rfl⟩
    rw [perform, hsame, h]
  | readByteBCD mask =>
    refine ⟨.number 0, ?_, rfl⟩
    rw [perform, SpanReader.readByteBCD, SpanReader.readByte, number, Option.map_some, Option.map_some, unsigned]
    dsimp only
    rw [BitVec.zero_and, BitVec.zero_and]
    rfl
  | readArray length =>
    refine ⟨.span 0 0, ?_, rfl⟩
    rw [perform, array]
    rfl
  | readToEnd =>
    refine ⟨.span 0 0, ?_, rfl⟩
    rw [perform, SpanReader.readToEnd, array]
    rfl
  | readString maxsize => exact absurd hstring Bool.false_ne_true.symm
  | readSignedWordLE | readSignedWordBE | readSignedDoubleWordLE =>
    exact ⟨.number 0, congrArg (Option.map signed) (number _ _ _), rfl⟩
  | _ => exact ⟨.number 0, congrArg (Option.map unsigned) (number _ _ _), rfl⟩

theorem reader_of_not_valid {p : Placement} {op : ReaderOp} {result : ReaderResult} {r' : Reader}
    (h : r.isValid = false) (hperform : op.perform p r = some (result, r')) : r' = r := by
  cases hstring : op.isString with
  | false =>
    obtain ⟨result', hsame, -⟩ := perform_of_not_valid p op hstring h
    exact congrArg Prod.snd (Option.some.inj (hperform.symm.trans hsame))
  | true =>
    cases op with
    | readString maxsize =>
      have hnext : (SpanReader.readString r p maxsize).2 = r := Reader.updateState_of_not_valid h
      exact (congrArg Prod.snd (Option.some.inj hperform)).symm.trans hnext
    | _ => exact absurd hstring Bool.false_ne_true

/-- Only strings are looked at around the span. -/
theorem looked_of_not_string {p : Placement} {op : ReaderOp} (h : op.isString = false) : op.looked p r = (0, 0) := by
  cases op with
  | readString maxsize => exact absurd h Bool.false_ne_true.symm
  | _ => rfl

/-- A string with a byte behind it. -/
theorem looked_of_string {p : Placement} {op : ReaderOp} (h : op.isString = true)
    (hle : r.position ≤ r.buffer.length) (haddress : noAddress r p = false) :
    op.looked p r = (r.position, op.size r + 1) := by
  cases op with
  | readString maxsize =>
    have hfst := readString_fst p maxsize hle haddress
    unfold looked
    dsimp only
    rw [haddress, hfst]
    rfl
  | _ => exact absurd h Bool.false_ne_true

/-- Without an address nothing is looked at, and strings are empty as well. -/
theorem idle (p : Placement) (op : ReaderOp) (h : r.isValid = false)
    (hquiet : op.isString = true → noAddress r p = true ∧ r.position = 0) :
    ∃ result, op.perform p r = some (result, r) ∧ result.isEmpty = true ∧ op.looked p r = (0, 0) := by
  cases hstring : op.isString with
  | false =>
    obtain ⟨result, hperform, hempty⟩ := perform_of_not_valid p op hstring h
    exact ⟨result, hperform, hempty, looked_of_not_string hstring⟩
  | true =>
    obtain ⟨haddress, hposition⟩ := hquiet hstring
    cases op with
    | readString maxsize =>
      have hread : SpanReader.readString r p maxsize = ((0, 0), r) := by
        unfold SpanReader.readString
        dsimp only
        rw [haddress, if_pos rfl, hposition, Reader.updateState_of_not_valid h]
      refine ⟨.span 0 0, ?_, rfl, ?_⟩
      · rw [perform, hread]
        rfl
      · unfold looked
        dsimp only
        rw [haddress, if_pos rfl, hposition]
    | _ => exact absurd hstring Bool.false_ne_true

/-- With an address, at least the byte at the position is. -/
theorem looks_ahead {p : Placement} {op : ReaderOp} (hstring : op.isString = true)
    (haddress : noAddress r p = false) : r.position < (op.looked p r).1 + (op.looked p r).2 := by
  cases op with
  | readString maxsize =>
    unfold looked
    dsimp only
    rw [haddress, if_neg Bool.false_ne_true]
    dsimp only
    omega
  | _ => exact absurd hstring Bool.false_ne_true

end ReaderOp

/-! ## Sessions -/

namespace ReaderSession

open Runs SpanReader

/-- A session over a buffer whose reader has stayed inside it while it was valid. -/
structure Inside (s : ReaderSession) (view : List Byte) : Prop where
  buffer : s.reader.buffer = view
  small : s.reader.position < 2 ^ 16
  valid : s.reader.isValid = true → view ≠ [] ∧ s.reader.position = s.ended ∧ s.ended ≤ view.length
  behind : s.reader.isValid = false →
    (view = [] ∧ s.reader.position = 0) ∨ (view ≠ [] ∧ view.length < s.reader.position)

variable {p : Placement} {s t : ReaderSession} {view : List Byte} {op : ReaderOp}

theorem inside_init (view : List Byte) : (init view).Inside view where
  buffer := rfl
  small := Nat.two_pow_pos 16
  valid hvalid := by
    refine ⟨?_, rfl, Nat.zero_le _⟩
    rintro rfl
    exact Bool.false_ne_true hvalid
  behind hnot := by
    cases view with
    | nil => exact .inl ⟨rfl, rfl⟩
    | cons byte view => exact absurd hnot Bool.false_ne_true.symm

/-- A valid reader has a buffer with an address. -/
theorem Inside.address (h : s.Inside view) (hvalid : s.reader.isValid = true) : noAddress s.reader p = false := by
  rw [noAddress, h.buffer, Bool.and_eq_false_iff]
  exact .inr (by simpa using (h.valid hvalid).1)

/-- A reader that is valid reads what it asks for, or fails, or is lost past `2 ^ 16`. -/
theorem Inside.reads (h : s.Inside view) (hvalid : s.reader.isValid = true) (op : ReaderOp) :
    ∃ zero, zero.isEmpty = true ∧
      Reads s.reader (op.size s.reader) zero (op.value s.ended (s.bytes op)) (op.perform p s.reader) := by
  obtain ⟨-, hended, hle⟩ := h.valid hvalid
  rw [bytes, ← hended]
  exact ReaderOp.reads hvalid (by rwa [hended, h.buffer]) h.small p op (h.address hvalid)

theorem Inside.fits_iff (h : s.Inside view) (hvalid : s.reader.isValid = true) :
    s.Fits op ↔ s.reader.position + op.size s.reader ≤ s.reader.buffer.length := by
  rw [Fits, (h.valid hvalid).2.1]
  exact ⟨fun hfits => hfits.2, fun hfits => ⟨hvalid, hfits⟩⟩

/-- What is looked at lies inside: for a valid reader, as there is a byte behind the string. -/
theorem Inside.looked_iff (h : s.Inside view) (hvalid : s.reader.isValid = true) :
    (op.looked p s.reader).1 + (op.looked p s.reader).2 ≤ s.reader.buffer.length ↔
      (op.isString = true → s.reader.position + op.size s.reader < s.reader.buffer.length) := by
  obtain ⟨-, hended, hle⟩ := h.valid hvalid
  cases hstring : op.isString with
  | false =>
    rw [ReaderOp.looked_of_not_string hstring]
    exact ⟨fun _ htrue => absurd htrue Bool.false_ne_true, fun _ => Nat.zero_le _⟩
  | true =>
    rw [ReaderOp.looked_of_string hstring (by rwa [hended, h.buffer]) (h.address hvalid)]
    exact ⟨fun hlooked _ => hlooked, fun hroom => hroom rfl⟩

/-- **The exact condition**, for a reader that is valid. -/
theorem Inside.clean_iff_of_valid (h : s.Inside view) (hvalid : s.reader.isValid = true) :
    s.Clean p op ↔ s.reader.position + op.size s.reader < 2 ^ 16 ∧
      (op.isString = true → s.reader.position + op.size s.reader < s.reader.buffer.length) := by
  obtain ⟨zero, hzero, hreads⟩ := h.reads (p := p) hvalid op
  obtain ⟨hne, hended, hle⟩ := h.valid hvalid
  have hfits : s.Fits op ↔ _ := h.fits_iff hvalid
  have hlooked : (op.looked p s.reader).1 + (op.looked p s.reader).2 ≤ _ ↔ _ := h.looked_iff hvalid
  constructor
  · rintro ⟨result, r, hperform, hclean⟩
    refine ⟨?_, hlooked.1 hclean.looked⟩
    by_contra h16
    obtain ⟨hstays, hlost⟩ := hreads.wraps (Nat.not_lt.1 h16) (result, r) hperform
    by_cases hroom : s.Fits op
    · have hposition := (hclean.success hroom).2.1
      rw [← hended] at hposition
      exact hlost hposition
    · have hfailed := (hclean.failure hroom).1
      rw [hstays] at hfailed
      exact Bool.false_ne_true hfailed.symm
  · rintro ⟨h16, hstring⟩
    by_cases hroom : s.reader.position + op.size s.reader ≤ s.reader.buffer.length
    · refine ⟨_, _, hreads.fits hroom h16, rfl, hlooked.2 hstring, fun _ => Nat.le_add_right _ _, fun _ => ?_,
        fun hnot => absurd (hfits.2 hroom) hnot⟩
      rw [← hended]
      exact ⟨rfl, rfl, rfl⟩
    · refine ⟨_, _, hreads.unfit (Nat.not_le.1 hroom) h16, rfl, hlooked.2 hstring, fun _ => Nat.le_add_right _ _,
        fun hyes => absurd (hfits.1 hyes) hroom, fun _ => ⟨rfl, hzero⟩⟩

/-- **The exact condition**, for a reader that is not valid: the memory behind the buffer is not looked at. -/
theorem Inside.clean_iff_of_not_valid (h : s.Inside view) (hnot : s.reader.isValid = false) :
    s.Clean p op ↔ (op.isString = true → noAddress s.reader p = true) := by
  have hbehind := h.behind hnot
  rw [← h.buffer] at hbehind
  constructor
  · -- the reader stands behind the bytes, and a string is looked at from there on
    rintro ⟨result, r, -, hclean⟩ hstring
    by_contra haddress
    have hlooks := ReaderOp.looks_ahead hstring (Bool.not_eq_true _ ▸ haddress)
    have hlooked := hclean.looked
    rcases hbehind with ⟨hempty, hposition⟩ | ⟨-, hlt⟩
    · rw [hempty, List.length_nil] at hlooked
      omega
    · omega
  · intro hquiet
    have hstart : op.isString = true → noAddress s.reader p = true ∧ s.reader.position = 0 := by
      intro hstring
      have haddress := hquiet hstring
      rcases hbehind with ⟨-, hposition⟩ | ⟨hne, -⟩
      · exact ⟨haddress, hposition⟩
      · rw [noAddress, Bool.and_eq_true, List.isEmpty_iff] at haddress
        exact absurd haddress.2 hne
    obtain ⟨result, hperform, hempty, hlooked⟩ := ReaderOp.idle p op hnot hstart
    have hunfit : ¬ s.Fits op := fun hfits => absurd (hnot.symm.trans hfits.1) Bool.false_ne_true
    refine ⟨result, s.reader, hperform, rfl, ?_, fun _ => Nat.le_refl _, fun hfits => absurd hfits hunfit,
      fun _ => ⟨hnot, hempty⟩⟩
    rw [hlooked]
    exact Nat.zero_le _

/-- **The exact condition** for one read. -/
theorem Inside.clean_iff (h : s.Inside view) : s.Clean p op ↔ s.SafeRead p op := by
  unfold SafeRead
  by_cases hvalid : s.reader.isValid = true
  · rw [if_pos hvalid]
    exact h.clean_iff_of_valid hvalid
  · rw [if_neg hvalid]
    exact h.clean_iff_of_not_valid (Bool.not_eq_true _ ▸ hvalid)

/-- A reader that is valid is still inside after a read that ends below `2 ^ 16`, or behind its buffer. -/
theorem Inside.advance (h : s.Inside view) (hvalid : s.reader.isValid = true)
    (hsmall : s.reader.position + op.size s.reader < 2 ^ 16) {result : ReaderResult} {r : Reader}
    (hperform : op.perform p s.reader = some (result, r)) :
    Inside ⟨r, if s.Fits op then s.ended + op.size s.reader else s.ended⟩ view := by
  obtain ⟨zero, -, hreads⟩ := h.reads (p := p) hvalid op
  obtain ⟨hne, hended, -⟩ := h.valid hvalid
  have hfits : s.Fits op ↔ _ := h.fits_iff hvalid
  by_cases hroom : s.reader.position + op.size s.reader ≤ s.reader.buffer.length
  · have hr := congrArg Prod.snd (Option.some.inj (hperform.symm.trans (hreads.fits hroom hsmall)))
    dsimp only at hr
    rw [if_pos (hfits.2 hroom), hr, ← hended]
    rw [h.buffer] at hroom
    exact ⟨h.buffer, hsmall, fun _ => ⟨hne, rfl, hroom⟩, fun hnot => absurd hnot Bool.false_ne_true.symm⟩
  · have hr := congrArg Prod.snd (Option.some.inj (hperform.symm.trans (hreads.unfit (Nat.not_le.1 hroom) hsmall)))
    dsimp only at hr
    rw [if_neg fun hyes => hroom (hfits.1 hyes), hr]
    rw [h.buffer, Nat.not_le] at hroom
    exact ⟨h.buffer, hsmall, fun hnot => absurd hnot Bool.false_ne_true, fun _ => .inr ⟨hne, hroom⟩⟩

/-- Clean reads keep a session inside. -/
theorem Inside.step (h : s.Inside view) {e : ReaderEvent} (hsafe : s.Safe p e) (hs : s.step p e = some t) :
    t.Inside view := by
  cases e with
  | reset =>
    obtain rfl := Option.some.inj hs
    rw [h.buffer]
    exact inside_init view
  | read op =>
    obtain ⟨⟨result, r⟩, hperform, rfl⟩ := Option.map_eq_some_iff.1 hs
    cases hvalid : s.reader.isValid with
    | true =>
      have hsafe := h.clean_iff.2 hsafe
      exact h.advance hvalid ((h.clean_iff_of_valid hvalid).1 hsafe).1 hperform
    | false =>
      have hunfit : ¬ s.Fits op := fun hfits => absurd (hvalid.symm.trans hfits.1) Bool.false_ne_true
      change Inside ⟨r, if s.Fits op then s.ended + op.size s.reader else s.ended⟩ view
      rw [ReaderOp.reader_of_not_valid hvalid hperform, if_neg hunfit]
      exact ⟨h.buffer, h.small, h.valid, h.behind⟩

theorem inside_of_run {es : List ReaderEvent} (h : Run (step p) (Safe p) (init view) es s) : s.Inside view :=
  h.inv (I := fun s => s.Inside view) (inside_init view) fun _ _ _ hin hsafe hs => hin.step hsafe hs

/-- Once an operation did not fit, the reader stays as it is until it is reset. -/
theorem failed_stays {es : List ReaderEvent} (h : Run (step p) (Safe p) s es t) (hfailed : s.reader.isValid = false)
    (hreset : .reset ∉ es) : t.reader.isValid = false := by
  induction h with
  | nil => exact hfailed
  | @snoc es u t e hrun hok hs ih =>
    have hu := ih fun hmem => hreset (List.mem_append_left _ hmem)
    cases e with
    | reset => exact absurd (List.mem_append_right es (List.mem_singleton_self _)) hreset
    | read op =>
      obtain ⟨⟨result, r⟩, hperform, rfl⟩ := Option.map_eq_some_iff.1 hs
      rw [ReaderOp.reader_of_not_valid hu hperform]
      exact hu

/-- **Readers stay inside their buffer and fail for good.** As long as the reads are safe, a reader that is
valid stands where the last successful operation ended, inside its buffer. Each read so far was clean,
and if it did not fit, the reader has not been valid since, unless it was reset. The next read is clean
exactly if it is safe. -/
theorem reads_clean {es : List ReaderEvent} (h : Run (step p) (Safe p) (init view) es s) :
    (s.reader.isValid = true → s.reader.position = s.ended ∧ s.ended ≤ view.length) ∧
      (∀ pre op post, es = pre ++ .read op :: post → ∃ t, Run (step p) (Safe p) (init view) pre t ∧ t.Clean p op ∧
        (¬ t.Fits op → .reset ∉ post → s.reader.isValid = false)) ∧
      ∀ op, s.Clean p op ↔ s.SafeRead p op := by
  have hin := inside_of_run h
  refine ⟨fun hvalid => (hin.valid hvalid).2, fun pre op post hes => ?_, fun op => hin.clean_iff⟩
  rw [hes] at h
  obtain ⟨t, hpre, hpost⟩ := h.split
  obtain ⟨u, hsafe, hs, hafter⟩ := hpost.uncons
  have hclean := (inside_of_run hpre).clean_iff.2 hsafe
  refine ⟨t, hpre, hclean, fun hunfit hreset => failed_stays hafter ?_ hreset⟩
  obtain ⟨result, r, hperform, houtcome⟩ := hclean
  rw [step, hperform] at hs
  obtain rfl := Option.some.inj hs
  exact (houtcome.failure hunfit).1

/-- Memory in which the byte behind the buffer is not zero. -/
def behindEleven : Placement := ⟨fun _ => 11#8, false⟩

/-- A word, a string with its zero, and a double word for which there are too few bytes. -/
theorem reads_clean_short : ∃ s, Run (step behindEleven) (Safe behindEleven) (init [0x34, 0x12, 65, 66, 0, 7])
    [.read .readWordLE, .read (.readString 10), .read (.skip 1), .read .readDoubleWordLE] s ∧
      (s.Clean behindEleven (.readString 3) ↔ s.SafeRead behindEleven (.readString 3)) := by
  have hrun : Run (step behindEleven) (Safe behindEleven) (init [0x34, 0x12, 65, 66, 0, 7])
      [.read .readWordLE, .read (.readString 10), .read (.skip 1), .read .readDoubleWordLE] _ := run_of_exec _ rfl
  exact ⟨_, hrun, (reads_clean hrun).2.2 _⟩

/-- **Skipping 65535 bytes** behind the first of ten: the reader is at 0 again, and valid. -/
theorem skip_steps_back : ¬ ∀ (p : Placement) (view : List Byte) (es : List ReaderEvent) (s : ReaderSession)
    (op : ReaderOp), Run (step p) always (init view) es s → s.Clean p op := by
  intro hall
  have hrun : Run (step behindEleven) always (init (List.replicate 10 0)) [.read .readByte] _ := run_of_exec _ rfl
  have hsafe : Run (step behindEleven) (Safe behindEleven) (init (List.replicate 10 0)) [.read .readByte] _ :=
    run_of_exec _ rfl
  have hclean := (inside_of_run hsafe).clean_iff.1 (hall _ _ _ _ (.skip 65535#16) hrun)
  revert hclean
  decide +kernel

end ReaderSession

end PWSat2OBC
