import Mathlib.Data.List.GetD
import PWSat2OBC.Spec.Ecc

/-!
# The error correction code corrects one error and detects two

`getLsbD_eccCalc`: the bits the loops of `EccCalc` shuffle together are the check bits of
the code of `PairParity`, over the data bits by address. `getLsbD_syndrome`: so the syndrome
is that of the errors. The rest relates the three tests of `EccCorrect` to `AllOdd` and
`Alone`, and the address it extracts to the one the syndrome spells.
-/

namespace PWSat2OBC

namespace Ecc

open PairParity

/-! ### Words of one bit -/

/-- The word 0 or 1. -/
def ofBit (c : Bool) : BitVec 32 := (BitVec.ofBool c).setWidth 32

@[simp] theorem getLsbD_ofBit (c : Bool) (m : ℕ) : (ofBit c).getLsbD m = (decide (m = 0) && c) := by
  unfold ofBit
  rw [BitVec.getLsbD_setWidth]
  cases m with
  | zero => cases c <;> rfl
  | succ m => simp

theorem ofBit_xor (a b : Bool) : ofBit a ^^^ ofBit b = ofBit (a ^^ b) := by
  cases a <;> cases b <;> rfl

theorem bit_eq (b : Byte) {n : ℕ} (hn : n < 8) : bit b n = ofBit (b.getLsbD n) := by
  apply BitVec.eq_of_getLsbD_eq
  intro m hm
  unfold bit
  have hone : 1#32 = BitVec.twoPow 32 0 := by decide
  rw [hone, BitVec.getLsbD_and, BitVec.getLsbD_twoPow, BitVec.getLsbD_ushiftRight,
    BitVec.getLsbD_setWidth, getLsbD_ofBit]
  cases m with
  | zero => simp; omega
  | succ m => simp

/-- One bit shifted to its place. -/
theorem getLsbD_ofBit_shift (a : Bool) {c m : ℕ} (hm : m < 32) :
    (ofBit a <<< c).getLsbD m = (decide (m = c) && a) := by
  rw [BitVec.getLsbD_shiftLeft, getLsbD_ofBit]
  by_cases h : m = c
  · subst h
    simp [hm]
  · by_cases hlt : m < c
    · simp [h, hlt]
    · have hne : m - c ≠ 0 := by omega
      simp [h, hne]

/-! ### The parities of one byte -/

/-- The parity of the bits of a byte whose place has bit `t` equal to `v`. -/
def bytePart (b : Byte) (t : ℕ) (v : Bool) : Bool :=
  parity ((List.range 8).map fun j => b.getLsbD j && (j.testBit t == v))

/-- The parity of a byte. -/
def byteParity (b : Byte) : Bool := parity ((List.range 8).map b.getLsbD)

theorem builtinParity_eq (b : Byte) : builtinParity b = ofBit (byteParity b) := by
  have hcount : ((List.range 8).map b.getLsbD).count true = popcount b := by
    rw [popcount, List.count, List.countP_map]
    congr 1
    funext i
    simp
  rw [byteParity, parity_eq_count, hcount, builtinParity]
  rcases Nat.mod_two_eq_zero_or_one (popcount b) with h | h
  · rw [h]
    rfl
  · rw [h]
    rfl

/-- The six sums of the places in a byte. -/
theorem addByte_eq (power i : ℕ) (b : Byte) (a0 a1 a2 a3 a4 a5 : Bool) (p : BitVec 32) :
    addByte power ⟨ofBit a0, ofBit a1, ofBit a2, ofBit a3, ofBit a4, ofBit a5, p⟩ i b =
      ⟨ofBit (a0 ^^ bytePart b 0 false), ofBit (a1 ^^ bytePart b 0 true),
        ofBit (a2 ^^ bytePart b 1 false), ofBit (a3 ^^ bytePart b 1 true),
        ofBit (a4 ^^ bytePart b 2 false), ofBit (a5 ^^ bytePart b 2 true),
        rowParities i (ofBit (byteParity b)) (power - 3) p⟩ := by
  have hrange : List.range 8 = [0, 1, 2, 3, 4, 5, 6, 7] := by decide
  unfold addByte bytePart
  rw [builtinParity_eq, hrange]
  simp only [bit_eq b (show 0 < 8 by decide), bit_eq b (show 1 < 8 by decide),
    bit_eq b (show 2 < 8 by decide), bit_eq b (show 3 < 8 by decide),
    bit_eq b (show 4 < 8 by decide), bit_eq b (show 5 < 8 by decide),
    bit_eq b (show 6 < 8 by decide), bit_eq b (show 7 < 8 by decide), ofBit_xor, List.map_cons,
    List.map_nil, parity_cons, parity_nil]
  generalize b.getLsbD 0 = b0
  generalize b.getLsbD 1 = b1
  generalize b.getLsbD 2 = b2
  generalize b.getLsbD 3 = b3
  generalize b.getLsbD 4 = b4
  generalize b.getLsbD 5 = b5
  generalize b.getLsbD 6 = b6
  generalize b.getLsbD 7 = b7
  simp [Bool.xor_comm, Bool.xor_left_comm, Nat.testBit]

/-- The bits of the row parities: byte `i` changes one bit of each pair if its parity is odd. -/
theorem getLsbD_rowParities (i : ℕ) (c : Bool) (count : ℕ) (p : BitVec 32) {m : ℕ} (hm : m < 32) :
    (rowParities i (ofBit c) count p).getLsbD m =
      (p.getLsbD m ^^ (decide (m / 2 < count) && c && (i.testBit (m / 2) == decide (m % 2 = 1)))) := by
  induction count with
  | zero => simp [rowParities]
  | succ count ih =>
    have hbit : ((i >>> count) &&& 1 ≠ 0) ↔ i.testBit count = true := by
      rw [Nat.testBit, Nat.and_comm]
      simp
    unfold rowParities at ih ⊢
    rw [List.range_succ, List.foldl_append, List.foldl_cons, List.foldl_nil]
    by_cases hcount : m / 2 = count
    · -- the pair of this bit is that of the last turn
      have hlast : decide (m / 2 < count + 1) = true := decide_eq_true (by omega)
      have hbefore : decide (m / 2 < count) = false := decide_eq_false (by omega)
      rw [hbefore] at ih
      rw [hlast, hcount]
      split
      · rename_i h
        have hset : i.testBit count = true := hbit.1 h
        rw [BitVec.getLsbD_xor, ih, getLsbD_ofBit_shift c hm, hset]
        have hodd : decide (m = 2 * count + 1) = decide (m % 2 = 1) := by
          congr 1
          apply propext
          omega
        rw [hodd]
        cases c <;> simp
      · rename_i h
        have hclear : i.testBit count = false := by
          rw [hbit] at h
          simpa using h
        rw [BitVec.getLsbD_xor, ih, getLsbD_ofBit_shift c hm, hclear]
        have heven : decide (m = 2 * count + 0) = !decide (m % 2 = 1) := by
          rw [← decide_not]
          congr 1
          apply propext
          omega
        rw [heven]
        cases c <;> simp
    · have hsame : decide (m / 2 < count + 1) = decide (m / 2 < count) := by
        congr 1
        apply propext
        omega
      rw [hsame, ← ih]
      split
      · rw [BitVec.getLsbD_xor, getLsbD_ofBit_shift c hm, decide_eq_false (by omega)]
        simp
      · rw [BitVec.getLsbD_xor, getLsbD_ofBit_shift c hm, decide_eq_false (by omega)]
        simp

/-! ### The loop over the data -/

/-- The exclusive or of `f` over the bytes, numbered from `i` on. -/
def total (f : ℕ → Byte → Bool) (i : ℕ) : List Byte → Bool
  | [] => false
  | b :: bs => f i b ^^ total f (i + 1) bs

theorem total_eq_parity (f : ℕ → Byte → Bool) (i : ℕ) (bs : List Byte) :
    total f i bs = parity ((List.range bs.length).map fun q => f (i + q) (bs.getD q 0)) := by
  induction bs generalizing i with
  | nil => rfl
  | cons b bs ih =>
    rw [total, ih, List.length_cons, List.range_succ_eq_map, List.map_cons, List.map_map, parity_cons]
    congr 2
    apply List.map_congr_left
    intro q _
    have hindex : i + 1 + q = i + q.succ := by omega
    rw [Function.comp_apply, List.getD_cons_succ, hindex]

/-- What byte `i` adds to bit `m` of the row parities. -/
def rowPart (count m : ℕ) (i : ℕ) (b : Byte) : Bool :=
  decide (m / 2 < count) && byteParity b && (i.testBit (m / 2) == decide (m % 2 = 1))

/-- **The loop of `EccCalc`**: each sum gains the parity of its part of the bytes. -/
theorem loop_eq (power i : ℕ) (bs : List Byte) (a0 a1 a2 a3 a4 a5 : Bool) (p : BitVec 32) :
    ∃ p', loop power ⟨ofBit a0, ofBit a1, ofBit a2, ofBit a3, ofBit a4, ofBit a5, p⟩ i bs =
      ⟨ofBit (a0 ^^ total (fun _ b => bytePart b 0 false) i bs),
        ofBit (a1 ^^ total (fun _ b => bytePart b 0 true) i bs),
        ofBit (a2 ^^ total (fun _ b => bytePart b 1 false) i bs),
        ofBit (a3 ^^ total (fun _ b => bytePart b 1 true) i bs),
        ofBit (a4 ^^ total (fun _ b => bytePart b 2 false) i bs),
        ofBit (a5 ^^ total (fun _ b => bytePart b 2 true) i bs), p'⟩ ∧
      ∀ m < 32, p'.getLsbD m = (p.getLsbD m ^^ total (rowPart (power - 3) m) i bs) := by
  induction bs generalizing i a0 a1 a2 a3 a4 a5 p with
  | nil =>
    refine ⟨p, ?_, ?_⟩
    · simp only [loop, total, Bool.xor_false]
    · intro m _
      rw [total, Bool.xor_false]
  | cons b bs ih =>
    obtain ⟨p', hloop, hbits⟩ := ih (i + 1) (a0 ^^ bytePart b 0 false) (a1 ^^ bytePart b 0 true)
      (a2 ^^ bytePart b 1 false) (a3 ^^ bytePart b 1 true) (a4 ^^ bytePart b 2 false)
      (a5 ^^ bytePart b 2 true) (rowParities i (ofBit (byteParity b)) (power - 3) p)
    refine ⟨p', ?_, ?_⟩
    · rw [loop, addByte_eq, hloop]
      simp only [total, Bool.xor_assoc]
    · intro m hm
      rw [hbits m hm, getLsbD_rowParities i _ _ p hm, total, rowPart, Bool.xor_assoc]

/-! ### The code is that of the pairs of parities -/

/-- The addresses byte by byte. -/
theorem parity_addresses (g : ℕ → Bool) (len : ℕ) :
    parity ((List.range (8 * len)).map g) =
      parity ((List.range len).map fun q => parity ((List.range 8).map fun j => g (8 * q + j))) := by
  induction len with
  | zero => rfl
  | succ len ih =>
    rw [Nat.mul_succ, List.range_add, List.map_append, parity_append, ih,
      List.range_succ (n := len), List.map_append, parity_append, List.map_map, List.map_singleton, parity_cons, parity_nil,
      Bool.xor_false]
    rfl

theorem testBit_address {q j : ℕ} (hj : j < 8) (t : ℕ) :
    (8 * q + j).testBit t = if t < 3 then j.testBit t else q.testBit (t - 3) := by
  have h8 : 8 = 2 ^ 3 := rfl
  rw [h8, Nat.testBit_two_pow_mul_add q (h8 ▸ hj)]

theorem dataBit_address (data : List Byte) (q : ℕ) {j : ℕ} (hj : j < 8) :
    dataBit data (8 * q + j) = (data.getD q 0).getLsbD j := by
  have hdiv : (8 * q + j) / 8 = q := by omega
  have hmod : (8 * q + j) % 8 = j := by omega
  rw [dataBit, hdiv, hmod]

variable {data : List Byte} {k : ℕ}

/-- A check bit, byte by byte. -/
theorem check_eq_total (hlen : data.length = 2 ^ k) {c : ℕ} {v : Bool} {f : ℕ → Byte → Bool}
    (hf : ∀ q, parity ((List.range 8).map fun j => dataBit data (8 * q + j) && ((8 * q + j).testBit c == v)) =
      f (0 + q) (data.getD q 0)) : check (k + 3) (dataBit data) c v = total f 0 data := by
  have hsize : 2 ^ (k + 3) = 8 * data.length := by
    rw [hlen, Nat.pow_add, Nat.mul_comm]
  rw [check, hsize, parity_addresses, total_eq_parity]
  congr 1
  apply List.map_congr_left
  intro q _
  exact hf q

/-- A check bit for a place in the byte. -/
theorem check_column (hlen : data.length = 2 ^ k) {t : ℕ} (ht : t < 3) (v : Bool) :
    check (k + 3) (dataBit data) t v = total (fun _ b => bytePart b t v) 0 data := by
  apply check_eq_total hlen
  intro q
  unfold bytePart
  congr 1
  apply List.map_congr_left
  intro j hj
  have hj := List.mem_range.1 hj
  rw [dataBit_address data q hj, testBit_address hj, if_pos ht]

/-- A check bit for a bit of the byte's address. -/
theorem check_row (hlen : data.length = 2 ^ k) {m : ℕ} (hm : m / 2 < k) :
    check (k + 3) (dataBit data) (m / 2 + 3) (decide (m % 2 = 1)) = total (rowPart k m) 0 data := by
  apply check_eq_total hlen
  intro q
  have hrow : ∀ j ∈ List.range 8, (dataBit data (8 * q + j) &&
      ((8 * q + j).testBit (m / 2 + 3) == decide (m % 2 = 1))) =
        ((data.getD q 0).getLsbD j && (q.testBit (m / 2) == decide (m % 2 = 1))) := by
    intro j hj
    have hj := List.mem_range.1 hj
    rw [dataBit_address data q hj, testBit_address hj, if_neg (by omega), Nat.add_sub_cancel]
  rw [List.map_congr_left hrow, parity_map_and_const, rowPart, decide_eq_true hm, Bool.true_and,
    Nat.zero_add]
  rfl

theorem power_eq (hk : k ≤ 9) : power (2 ^ k) = k + 3 := by
  unfold power
  interval_cases k <;> decide +kernel

/-- **The code of a block**: the used bits are the check bits. -/
theorem getLsbD_eccCalc (hk : k ≤ 9) (hlen : data.length = 2 ^ k) {m : ℕ} (hm : m < 2 * (k + 3)) :
    (eccCalc data).getLsbD m = check (k + 3) (dataBit data) (m / 2) (decide (m % 2 = 1)) := by
  have hzero : (0 : BitVec 32) = ofBit false := by decide
  obtain ⟨p', hloop, hbits⟩ := loop_eq (k + 3) 0 data false false false false false false 0
  have hloop' : loop (power data.length) ⟨0, 0, 0, 0, 0, 0, 0⟩ 0 data =
      loop (k + 3) ⟨ofBit false, ofBit false, ofBit false, ofBit false, ofBit false, ofBit false, 0⟩ 0 data := by
    rw [hlen, power_eq hk, ← hzero]
  unfold eccCalc
  rw [hloop', hloop]
  have hm32 : m < 32 := by omega
  simp only [BitVec.getLsbD_or, getLsbD_ofBit_shift _ hm32, Bool.false_xor]
  rcases Nat.lt_or_ge m 6 with hcolumn | hrow
  · -- the six sums for the places in a byte
    have hnone : (p' <<< 6).getLsbD m = false := by
      rw [BitVec.getLsbD_shiftLeft]
      simp [hcolumn]
    rw [hnone, check_column hlen (by omega)]
    interval_cases m <;> simp
  · have hshift : (p' <<< 6).getLsbD m = p'.getLsbD (m - 6) := by
      rw [BitVec.getLsbD_shiftLeft]
      simp [hm32, Nat.not_lt.2 hrow]
    have hpair : m / 2 = (m - 6) / 2 + 3 ∧ m % 2 = (m - 6) % 2 := by omega
    rw [hshift, hbits (m - 6) (by omega), hpair.1, hpair.2, check_row hlen (by omega),
      Nat.add_sub_cancel, decide_eq_false (by omega), decide_eq_false (by omega),
      decide_eq_false (by omega), decide_eq_false (by omega), decide_eq_false (by omega),
      decide_eq_false (by omega)]
    simp

/-! ### The syndrome of the errors -/

theorem dataBit_corrupt {errors : List Byte} (hlen : errors.length = data.length) (a : ℕ) :
    dataBit (corrupt data errors) a = (dataBit data a ^^ dataBit errors a) := by
  unfold dataBit corrupt
  rw [← BitVec.getLsbD_xor]
  congr 1
  rcases Nat.lt_or_ge (a / 8) data.length with h | h
  · rw [List.getD_eq_getElem _ _ (by rw [List.length_zipWith]; omega), List.getElem_zipWith,
      List.getD_eq_getElem _ _ h, List.getD_eq_getElem _ _ (by omega)]
  · rw [List.getD_eq_default _ _ (by rw [List.length_zipWith]; omega),
      List.getD_eq_default _ _ h, List.getD_eq_default _ _ (by omega)]
    decide

theorem getLsbD_eccBits {n : ℕ} (hn : n ≤ 12) (m : ℕ) :
    (eccBits n).getLsbD m = decide (m < 2 * n) := by
  have hpow : 2 ^ (2 * n) ≤ 2 ^ 24 := Nat.pow_le_pow_right (by decide) (by omega)
  have hpos : 0 < 2 ^ (2 * n) := Nat.pow_pos (by decide)
  have htoNat : (eccBits n).toNat = 2 ^ (2 * n) - 1 := by
    unfold eccBits
    rw [BitVec.toNat_sub, BitVec.toNat_shiftLeft]
    simp only [BitVec.toNat_ofNat, Nat.shiftLeft_eq]
    omega
  rw [BitVec.getLsbD, htoNat, Nat.testBit_two_pow_sub_one]

/-- **The syndrome `EccCorrect` sees is that of the errors**, on the used bits. -/
theorem getLsbD_syndrome (hk : k ≤ 9) (hlen : data.length = 2 ^ k) {errors : List Byte}
    (herrors : errors.length = 2 ^ k) (eccErrors : BitVec 32) (m : ℕ) :
    ((eccCalc (corrupt data errors) ^^^ (eccCalc data ^^^ eccErrors)) &&& eccBits (k + 3)).getLsbD m =
      (decide (m < 2 * (k + 3)) && syndrome (k + 3) (dataBit errors) eccErrors.getLsbD m) := by
  have hcorrupt : (corrupt data errors).length = 2 ^ k := by
    rw [corrupt, List.length_zipWith, hlen, herrors, Nat.min_self]
  rw [BitVec.getLsbD_and, getLsbD_eccBits (by omega), Bool.and_comm]
  rcases Nat.lt_or_ge m (2 * (k + 3)) with hm | hm
  · have hword : dataBit (corrupt data errors) = fun a => dataBit data a ^^ dataBit errors a := by
      funext a
      exact dataBit_corrupt (herrors.trans hlen.symm) a
    rw [BitVec.getLsbD_xor, BitVec.getLsbD_xor, getLsbD_eccCalc hk hcorrupt hm,
      getLsbD_eccCalc hk hlen hm, hword, syndrome_eq]
  · rw [decide_eq_false (by omega), Bool.false_and, Bool.false_and]

/-! ### The tests of `EccCorrect` -/

section Tests

variable {n : ℕ} {s : BitVec 32} {S : ℕ → Bool}

/-- The first places of the pairs. -/
theorem getLsbD_correctableMask (hn : n ≤ 12) (m : ℕ) :
    (correctableMask n).getLsbD m = (decide (m % 2 = 0) && decide (m < 2 * n)) := by
  rw [correctableMask, BitVec.getLsbD_and, getLsbD_eccBits hn]
  rcases Nat.lt_or_ge m (2 * n) with hm | hm
  · have hm24 : m < 24 := by omega
    have hpattern : (0x55555555#32).getLsbD m = decide (m % 2 = 0) := by
      interval_cases m <;> decide
    rw [hpattern]
  · rw [decide_eq_false (by omega), Bool.and_false, Bool.and_false]

/-- The second places of the pairs, moved to the first ones. -/
theorem getLsbD_eccP (hn : n ≤ 12) (hs : ∀ m, s.getLsbD m = (decide (m < 2 * n) && S m)) (m : ℕ) :
    ((s >>> 1) &&& correctableMask n).getLsbD m =
      (decide (m % 2 = 0) && decide (m < 2 * n) && S (m + 1)) := by
  rw [BitVec.getLsbD_and, BitVec.getLsbD_ushiftRight, hs, getLsbD_correctableMask hn, Nat.add_comm 1 m]
  by_cases heven : m % 2 = 0
  · by_cases hm : m < 2 * n
    · rw [decide_eq_true (show m + 1 < 2 * n by omega), decide_eq_true heven, decide_eq_true hm]
      cases S (m + 1) <;> rfl
    · rw [decide_eq_false hm, Bool.and_false, Bool.and_false, Bool.false_and]
  · rw [decide_eq_false heven, Bool.false_and, Bool.false_and, Bool.and_false]

theorem syndrome_eq_zero_iff (hs : ∀ m, s.getLsbD m = (decide (m < 2 * n) && S m)) :
    s = 0 ↔ ∀ m < 2 * n, S m = false := by
  constructor
  · rintro rfl m hm
    have hbit := hs m
    rw [decide_eq_true hm, Bool.true_and] at hbit
    rw [← hbit]
    simp
  · intro h
    apply BitVec.eq_of_getLsbD_eq
    intro m _
    rw [hs]
    by_cases hm : m < 2 * n
    · rw [h m hm]
      simp
    · simp [hm]

/-- **The first test**: every pair is odd. -/
theorem correctable_iff (hn : n ≤ 12) (hs : ∀ m, s.getLsbD m = (decide (m < 2 * n) && S m)) :
    (s &&& correctableMask n) ^^^ ((s >>> 1) &&& correctableMask n) = correctableMask n ↔ AllOdd n S := by
  have hbit (m : ℕ) : ((s &&& correctableMask n) ^^^ ((s >>> 1) &&& correctableMask n)).getLsbD m =
      (decide (m % 2 = 0) && decide (m < 2 * n) && (S m ^^ S (m + 1))) := by
    rw [BitVec.getLsbD_xor, getLsbD_eccP hn hs, BitVec.getLsbD_and, hs, getLsbD_correctableMask hn]
    cases decide (m % 2 = 0) <;> cases decide (m < 2 * n) <;> simp
  constructor
  · intro h t ht
    have hpair := congrArg (BitVec.getLsbD · (2 * t)) h
    simp only [hbit, getLsbD_correctableMask hn] at hpair
    rw [decide_eq_true (by omega), decide_eq_true (by omega)] at hpair
    simpa using hpair
  · intro h
    apply BitVec.eq_of_getLsbD_eq
    intro m _
    rw [hbit, getLsbD_correctableMask hn]
    by_cases hm : m % 2 = 0 ∧ m < 2 * n
    · have hpair := h (m / 2) (by omega)
      have heven : 2 * (m / 2) = m := by omega
      rw [heven] at hpair
      rw [hpair, Bool.and_true]
    · have hout : (decide (m % 2 = 0) && decide (m < 2 * n)) = false := by
        rw [← Bool.decide_and]
        exact decide_eq_false hm
      rw [hout, Bool.false_and]

/-- The loop counts the bits from its mask downwards. -/
theorem countOnes_twoPow (s : BitVec 32) {j : ℕ} (hj : j < 32) (count : BitVec 8) :
    countOnes s (BitVec.twoPow 32 j) count =
      count + BitVec.ofNat 8 (changed (j + 1) s.getLsbD).length := by
  have hstep (j : ℕ) (hj : j < 32) (count : BitVec 8) :
      countOnes s (BitVec.twoPow 32 j) count =
        countOnes s (BitVec.twoPow 32 j >>> 1) (if s.getLsbD j then count + 1#8 else count) := by
    have hne : BitVec.twoPow 32 j ≠ 0 := by
      intro h
      have hbit := congrArg (BitVec.getLsbD · j) h
      simp [hj] at hbit
    have hset : s &&& BitVec.twoPow 32 j ≠ 0 ↔ s.getLsbD j = true := by
      rw [BitVec.and_twoPow]
      cases s.getLsbD j with
      | false => simp
      | true => simpa using hne
    rw [countOnes, if_neg hne]
    simp only [hset]
  have hchanged (j : ℕ) : (changed (j + 1) s.getLsbD).length =
      (changed j s.getLsbD).length + (s.getLsbD j).toNat := by
    rw [changed, List.range_succ, List.filter_append, List.length_append]
    cases hbit : s.getLsbD j with
    | false => simp [changed, hbit]
    | true => simp [changed, hbit]
  induction j generalizing count with
  | zero =>
    have hlast : BitVec.twoPow 32 0 >>> 1 = 0 := by decide
    rw [hstep 0 hj, hlast, countOnes, if_pos rfl, hchanged 0]
    cases s.getLsbD 0 with
    | false => simp [changed]
    | true => simp [changed]
  | succ j ih =>
    have hnext : BitVec.twoPow 32 (j + 1) >>> 1 = BitVec.twoPow 32 j := by
      apply BitVec.eq_of_getLsbD_eq
      intro m hm
      rw [BitVec.getLsbD_ushiftRight, BitVec.getLsbD_twoPow, BitVec.getLsbD_twoPow]
      have hsame : (j + 1 = 1 + m) ↔ j = m := by omega
      have hj' : j < 32 := by omega
      simp [hj, hj', hsame]
    rw [hstep (j + 1) hj, hnext, ih (by omega), hchanged (j + 1)]
    cases s.getLsbD (j + 1) with
    | false => simp
    | true =>
      have hone : 1#8 = BitVec.ofNat 8 1 := rfl
      rw [if_pos rfl, hone, BitVec.add_assoc, Bool.toNat_true, ← BitVec.ofNat_add, Nat.add_comm 1]

/-- **The second test**: exactly one bit of the syndrome is set. -/
theorem countOnes_eq_one_iff (hn : n ≤ 12) (hs : ∀ m, s.getLsbD m = (decide (m < 2 * n) && S m)) :
    countOnes s 0x00800000#32 0#8 = 1#8 ↔ Alone (2 * n) S := by
  have hmask : 0x00800000#32 = BitVec.twoPow 32 23 := by decide
  have hused : changed 24 s.getLsbD = changed (2 * n) S := by
    have hunused : changed 24 s.getLsbD = changed (2 * n) s.getLsbD := by
      apply changed_eq_of_le (by omega)
      intro i hi _
      rw [hs, decide_eq_false (by omega), Bool.false_and]
    rw [hunused, changed, changed]
    apply List.filter_congr
    intro m hm
    rw [hs, decide_eq_true (List.mem_range.1 hm), Bool.true_and]
  have hbound : (changed (2 * n) S).length ≤ 24 := by
    refine Nat.le_trans (List.length_filter_le _ _) ?_
    rw [List.length_range]
    omega
  rw [hmask, countOnes_twoPow s (by decide), hused, alone_iff]
  rw [BitVec.zero_add]
  constructor
  · intro h
    have htoNat := congrArg BitVec.toNat h
    simp only [BitVec.toNat_ofNat] at htoNat
    omega
  · intro h
    rw [h]

end Tests

/-- **`EccCorrect` by its syndrome.** -/
theorem eccCorrect_spec {generated read : BitVec 32} {received : List Byte} {n : ℕ} {S : ℕ → Bool}
    (hpower : power received.length = n) (hn : n ≤ 12)
    (hs : ∀ m, ((generated ^^^ read) &&& eccBits n).getLsbD m = (decide (m < 2 * n) && S m)) :
    ((∀ m < 2 * n, S m = false) → eccCorrect generated read received = (.noError, received)) ∧
    ((∃ m < 2 * n, S m = true) → AllOdd n S →
      ∃ eccP, (∀ t < 12, eccP.getLsbD (2 * t) = (decide (t < n) && S (2 * t + 1))) ∧
        eccCorrect generated read received =
          (.corrected, received.modify (byteAddr eccP).toNat (· ^^^ (1#8 <<< (bitNum eccP).toNat)))) ∧
    ((∃ m < 2 * n, S m = true) → ¬ AllOdd n S → Alone (2 * n) S →
      eccCorrect generated read received = (.corrupted, received)) ∧
    ((∃ m < 2 * n, S m = true) → ¬ AllOdd n S → ¬ Alone (2 * n) S →
      eccCorrect generated read received = (.notCorrected, received)) := by
  have hzero := syndrome_eq_zero_iff hs
  have hodd := correctable_iff hn hs
  have hcount := countOnes_eq_one_iff hn hs
  have hnonzero : (∃ m < 2 * n, S m = true) → ¬ (generated ^^^ read) &&& eccBits n = 0 := by
    rintro ⟨m, hm, hset⟩ h
    rw [hzero.1 h m hm] at hset
    exact absurd hset (by decide)
  unfold eccCorrect
  simp only [hpower]
  refine ⟨?_, ?_, ?_, ?_⟩
  · intro h
    rw [if_pos (hzero.2 h)]
  · intro h hall
    refine ⟨((generated ^^^ read) &&& eccBits n) >>> 1 &&& correctableMask n, ?_, ?_⟩
    · intro t _
      rw [getLsbD_eccP hn hs]
      have heven : decide (2 * t % 2 = 0) = true := decide_eq_true (by omega)
      have hlt : decide (2 * t < 2 * n) = decide (t < n) := by
        congr 1
        apply propext
        omega
      rw [heven, hlt, Bool.true_and]
    · rw [if_neg (hnonzero h), if_pos (hodd.2 hall)]
  · intro h hall halone
    rw [if_neg (hnonzero h), if_neg (fun hmask => hall (hodd.1 hmask)), if_pos (hcount.2 halone)]
  · intro h hall halone
    rw [if_neg (hnonzero h), if_neg (fun hmask => hall (hodd.1 hmask)),
      if_neg (fun hone => halone (hcount.1 hone))]

/-! ### The address -/

/-- The bit mask of place `c`, moved there from place `i`. -/
theorem getLsbD_shift_and_twoPow (x : BitVec 32) (i c m : ℕ) :
    ((x >>> i) &&& BitVec.twoPow 32 c).getLsbD m =
      (decide (m = c) && decide (c < 32) && x.getLsbD (i + c)) := by
  rw [BitVec.getLsbD_and, BitVec.getLsbD_ushiftRight, BitVec.getLsbD_twoPow]
  by_cases h : m = c
  · subst h
    cases x.getLsbD (i + m) <;> simp
  · simp [h, Ne.symm h]

theorem getLsbD_bitNum (x : BitVec 32) (c : ℕ) :
    (bitNum x).getLsbD c = (decide (c < 3) && x.getLsbD (2 * c)) := by
  have h0 : 0x01#32 = BitVec.twoPow 32 0 := by decide
  have h1 : 0x02#32 = BitVec.twoPow 32 1 := by decide
  have h2 : 0x04#32 = BitVec.twoPow 32 2 := by decide
  have hshift : x = x >>> 0 := by simp
  unfold bitNum
  rw [h0, h1, h2]
  nth_rewrite 1 [hshift]
  simp only [BitVec.getLsbD_or, getLsbD_shift_and_twoPow]
  rcases Nat.lt_or_ge c 3 with hc | hc
  · interval_cases c <;> simp
  · rw [decide_eq_false (show ¬ c = 0 by omega), decide_eq_false (show ¬ c = 1 by omega),
      decide_eq_false (show ¬ c = 2 by omega), decide_eq_false (show ¬ c < 3 by omega)]
    simp

theorem getLsbD_byteAddr (x : BitVec 32) (c : ℕ) :
    (byteAddr x).getLsbD c = (decide (c < 9) && x.getLsbD (2 * (c + 3))) := by
  have h0 : 0x001#32 = BitVec.twoPow 32 0 := by decide
  have h1 : 0x002#32 = BitVec.twoPow 32 1 := by decide
  have h2 : 0x004#32 = BitVec.twoPow 32 2 := by decide
  have h3 : 0x008#32 = BitVec.twoPow 32 3 := by decide
  have h4 : 0x010#32 = BitVec.twoPow 32 4 := by decide
  have h5 : 0x020#32 = BitVec.twoPow 32 5 := by decide
  have h6 : 0x040#32 = BitVec.twoPow 32 6 := by decide
  have h7 : 0x080#32 = BitVec.twoPow 32 7 := by decide
  have h8 : 0x100#32 = BitVec.twoPow 32 8 := by decide
  unfold byteAddr
  rw [h0, h1, h2, h3, h4, h5, h6, h7, h8]
  simp only [BitVec.getLsbD_or, getLsbD_shift_and_twoPow]
  rcases Nat.lt_or_ge c 9 with hc | hc
  · interval_cases c <;> simp
  · rw [decide_eq_false (show ¬ c = 0 by omega), decide_eq_false (show ¬ c = 1 by omega),
      decide_eq_false (show ¬ c = 2 by omega), decide_eq_false (show ¬ c = 3 by omega),
      decide_eq_false (show ¬ c = 4 by omega), decide_eq_false (show ¬ c = 5 by omega),
      decide_eq_false (show ¬ c = 6 by omega), decide_eq_false (show ¬ c = 7 by omega),
      decide_eq_false (show ¬ c = 8 by omega), decide_eq_false (show ¬ c < 9 by omega)]
    simp

/-- **The extracted address** is the one spelt by the even places. -/
theorem address_eq {x : BitVec 32} {a : ℕ} (ha : a < 2 ^ 12)
    (hx : ∀ t < 12, x.getLsbD (2 * t) = a.testBit t) :
    (bitNum x).toNat = a % 8 ∧ (byteAddr x).toNat = a / 8 := by
  constructor
  · apply Nat.eq_of_testBit_eq
    intro c
    have hmod : (a % 8).testBit c = (decide (c < 3) && a.testBit c) := Nat.testBit_mod_two_pow a 3 c
    rw [hmod]
    refine (getLsbD_bitNum x c).trans ?_
    rcases Nat.lt_or_ge c 3 with hc | hc
    · rw [hx c (by omega)]
    · rw [decide_eq_false (by omega), Bool.false_and, Bool.false_and]
  · apply Nat.eq_of_testBit_eq
    intro c
    have hdiv : (a / 8).testBit c = a.testBit (c + 3) := by
      have h := Nat.testBit_div_two_pow (n := 3) a c
      exact h
    rw [hdiv]
    refine (getLsbD_byteAddr x c).trans ?_
    rcases Nat.lt_or_ge c 9 with hc | hc
    · rw [decide_eq_true hc, Bool.true_and, hx (c + 3) (by omega)]
    · have hle : 2 ^ 12 ≤ 2 ^ (c + 3) := Nat.pow_le_pow_right (by decide) (by omega)
      rw [decide_eq_false (by omega), Bool.false_and,
        Nat.testBit_lt_two_pow (Nat.lt_of_lt_of_le ha hle)]

theorem length_corrupt {errors : List Byte} (hlen : errors.length = data.length) :
    (corrupt data errors).length = data.length := by
  rw [corrupt, List.length_zipWith, hlen, Nat.min_self]

theorem getElem_corrupt {errors : List Byte} {q : ℕ} (h : q < (corrupt data errors).length)
    (hdata : q < data.length) (herrors : q < errors.length) :
    (corrupt data errors)[q] = data[q] ^^^ errors[q] :=
  List.getElem_zipWith

/-- **Flipping the bit of a single error back** restores the data. -/
theorem modify_corrupt {errors : List Byte} (hlen : errors.length = data.length) {a : ℕ}
    (he : changed (8 * errors.length) (dataBit errors) = [a]) :
    (corrupt data errors).modify (a / 8) (· ^^^ (1#8 <<< (a % 8))) = data := by
  -- a bit of the mask is set exactly at `a`
  have hmask {q j : ℕ} (hq : q < errors.length) (hj : j < 8) :
      errors[q].getLsbD j = decide (8 * q + j = a) := by
    have hbit := eq_of_changed he (show 8 * q + j < 8 * errors.length by omega)
    rw [dataBit_address errors q hj, List.getD_eq_getElem _ _ hq] at hbit
    rw [hbit]
    simp
  apply List.ext_getElem
  · rw [List.length_modify, length_corrupt hlen]
  · intro q hq1 hq2
    have hq : q < errors.length := by omega
    rw [List.getElem_modify, getElem_corrupt _ hq2 hq]
    apply BitVec.eq_of_getLsbD_eq
    intro j hj
    by_cases hbyte : a / 8 = q
    · rw [if_pos hbyte, BitVec.getLsbD_xor, BitVec.getLsbD_xor, hmask hq hj]
      have hone : 1#8 = BitVec.twoPow 8 0 := by decide
      have hbit : (1#8 <<< (a % 8)).getLsbD j = decide (8 * q + j = a) := by
        rw [hone, BitVec.getLsbD_shiftLeft, BitVec.getLsbD_twoPow]
        by_cases hplace : 8 * q + j = a
        · have hj' : j - a % 8 = 0 := by omega
          have hlt : ¬ j < a % 8 := by omega
          simp [hplace, hj', hlt, hj]
        · rw [decide_eq_false hplace]
          by_cases hlt : j < a % 8
          · simp [hlt]
          · have hne : ¬ 0 = j - a % 8 := by omega
            simp [hne]
      rw [hbit]
      cases data[q].getLsbD j <;> cases decide (8 * q + j = a) <;> rfl
    · rw [if_neg hbyte, BitVec.getLsbD_xor, hmask hq hj, decide_eq_false (by omega), Bool.xor_false]

/-- A mask without a bit changes nothing. -/
theorem corrupt_eq_self {errors : List Byte} (hlen : errors.length = data.length)
    (he : changed (8 * errors.length) (dataBit errors) = []) : corrupt data errors = data := by
  apply List.ext_getElem
  · exact length_corrupt hlen
  · intro q hq1 hq2
    have hq : q < errors.length := by omega
    rw [getElem_corrupt _ hq2 hq]
    apply BitVec.eq_of_getLsbD_eq
    intro j hj
    have hbit := eq_false_of_changed_nil he (show 8 * q + j < 8 * errors.length by omega)
    rw [dataBit_address errors q hj, List.getD_eq_getElem _ _ hq] at hbit
    rw [BitVec.getLsbD_xor, hbit, Bool.xor_false]

/-! ### Single errors corrected, double errors detected -/

/-- An error mask for the used bits changes only these. -/
theorem changed_used {n : ℕ} (hn : n ≤ 12) {eccErrors : BitVec 32} (hused : eccErrors.toNat < 2 ^ (2 * n)) :
    changed 32 eccErrors.getLsbD = changed (2 * n) eccErrors.getLsbD := by
  apply changed_eq_of_le (by omega)
  intro i hi _
  have hle : 2 ^ (2 * n) ≤ 2 ^ i := Nat.pow_le_pow_right (by decide) hi
  exact Nat.testBit_lt_two_pow (Nat.lt_of_lt_of_le hused hle)

/-- **Single errors are corrected and double errors are detected**, for blocks of up to 512
bytes and errors in the data and the used bits of the stored code. -/
theorem eccCorrect_secDed {k : ℕ} (hk : k ≤ 9) {data errors : List Byte} (hlen : data.length = 2 ^ k)
    (herrors : errors.length = 2 ^ k) {eccErrors : BitVec 32}
    (hused : eccErrors.toNat < 2 ^ (2 * (k + 3))) :
    let received := corrupt data errors
    let outcome := eccCorrect (eccCalc received) (eccCalc data ^^^ eccErrors) received
    (changedData errors = 0 → changedEcc eccErrors = 0 → outcome = (.noError, data)) ∧
    (changedData errors = 1 → changedEcc eccErrors = 0 → outcome = (.corrected, data)) ∧
    (changedData errors = 0 → changedEcc eccErrors = 1 → outcome = (.corrupted, data)) ∧
    (changedData errors + changedEcc eccErrors = 2 → outcome = (.notCorrected, received)) := by
  have hsame : errors.length = data.length := herrors.trans hlen.symm
  have hpower : power (corrupt data errors).length = k + 3 := by
    rw [length_corrupt hsame, hlen, power_eq hk]
  have hsize : 8 * errors.length = 2 ^ (k + 3) := by
    rw [herrors, Nat.pow_add, Nat.mul_comm]
  obtain ⟨hnone, hcorrected, hcorrupted, hdetected⟩ :=
    eccCorrect_spec hpower (by omega) (getLsbD_syndrome hk hlen herrors eccErrors)
  -- from the numbers of changed bits to their places
  have hdata : changedData errors = (changed (2 ^ (k + 3)) (dataBit errors)).length := by
    rw [changedData, hsize]
  have hecc : changedEcc eccErrors = (changed (2 * (k + 3)) eccErrors.getLsbD).length := by
    rw [changedEcc, changed_used (by omega) hused]
  simp only [hdata, hecc]
  refine ⟨?_, ?_, ?_, ?_⟩
  · intro h0 h0'
    have he := List.length_eq_zero_iff.1 h0
    have hf := List.length_eq_zero_iff.1 h0'
    have hself := corrupt_eq_self hsame (hsize ▸ he)
    rw [hnone fun m hm => syndrome_none he hf hm, hself]
  · intro h1 h0
    obtain ⟨a, he⟩ := List.length_eq_one_iff.1 h1
    have hf := List.length_eq_zero_iff.1 h0
    obtain ⟨hall, hspell⟩ := syndrome_data he hf
    have hset : ∃ m < 2 * (k + 3), syndrome (k + 3) (dataBit errors) eccErrors.getLsbD m = true := by
      have hpair := hall 0 (by omega)
      rw [Bool.xor_iff_ne] at hpair
      cases hfirst : syndrome (k + 3) (dataBit errors) eccErrors.getLsbD (2 * 0) with
      | true => exact ⟨0, by omega, hfirst⟩
      | false =>
        refine ⟨1, by omega, ?_⟩
        rw [hfirst] at hpair
        simpa using hpair
    obtain ⟨eccP, hbits, houtcome⟩ := hcorrected hset hall
    have ha : a < 2 ^ (k + 3) := (mem_changed.1 (he ▸ List.mem_singleton_self a)).1
    have hle : 2 ^ (k + 3) ≤ 2 ^ 12 := Nat.pow_le_pow_right (by decide) (by omega)
    have haddress : ∀ t < 12, eccP.getLsbD (2 * t) = a.testBit t := by
      intro t ht
      rw [hbits t ht]
      rcases Nat.lt_or_ge t (k + 3) with hlt | hge
      · rw [decide_eq_true hlt, Bool.true_and, hspell t hlt]
      · have hpow : 2 ^ (k + 3) ≤ 2 ^ t := Nat.pow_le_pow_right (by decide) hge
        rw [decide_eq_false (by omega), Bool.false_and,
          Nat.testBit_lt_two_pow (Nat.lt_of_lt_of_le ha hpow)]
    obtain ⟨hbit, hbyte⟩ := address_eq (Nat.lt_of_lt_of_le ha hle) haddress
    rw [houtcome, hbit, hbyte, modify_corrupt hsame (hsize ▸ he)]
  · intro h0 h1
    have he := List.length_eq_zero_iff.1 h0
    obtain ⟨j, hf⟩ := List.length_eq_one_iff.1 h1
    obtain ⟨halone, hall⟩ := syndrome_check (by omega) he hf
    have hset : ∃ m < 2 * (k + 3), syndrome (k + 3) (dataBit errors) eccErrors.getLsbD m = true := by
      obtain ⟨p, hp, hsp, -⟩ := halone
      exact ⟨p, hp, hsp⟩
    have hself := corrupt_eq_self hsame (hsize ▸ he)
    rw [hcorrupted hset hall halone, hself]
  · intro h2
    have hcases : (changed (2 ^ (k + 3)) (dataBit errors)).length = 2 ∧
          (changed (2 * (k + 3)) eccErrors.getLsbD).length = 0 ∨
        (changed (2 ^ (k + 3)) (dataBit errors)).length = 1 ∧
          (changed (2 * (k + 3)) eccErrors.getLsbD).length = 1 ∨
        (changed (2 ^ (k + 3)) (dataBit errors)).length = 0 ∧
          (changed (2 * (k + 3)) eccErrors.getLsbD).length = 2 := by
      omega
    rcases hcases with ⟨he, hf⟩ | ⟨he, hf⟩ | ⟨he, hf⟩
    · obtain ⟨a, b, he⟩ := List.length_eq_two.1 he
      obtain ⟨hset, halone, hall⟩ := syndrome_data_data (by omega) he (List.length_eq_zero_iff.1 hf)
      exact hdetected hset hall halone
    · obtain ⟨a, he⟩ := List.length_eq_one_iff.1 he
      obtain ⟨j, hf⟩ := List.length_eq_one_iff.1 hf
      obtain ⟨hset, halone, hall⟩ := syndrome_data_check (by omega) he hf
      exact hdetected hset hall halone
    · obtain ⟨i, j, hf⟩ := List.length_eq_two.1 hf
      obtain ⟨hset, halone, hall⟩ := syndrome_check_check (by omega) (List.length_eq_zero_iff.1 he) hf
      exact hdetected hset hall halone

/-- A flipped bit in a block of two bytes is put right. -/
theorem eccCorrect_two_bytes :
    eccCorrect (eccCalc [0x5A, 0x13]) (eccCalc [0x5A, 0x33] ^^^ 0#32) [0x5A, 0x13] =
      (.corrected, [0x5A, 0x33]) :=
  (@eccCorrect_secDed 1 (by decide) [0x5A, 0x33] [0x00, 0x20] rfl rfl 0#32
    (by decide)).2.1 (by decide) (by decide)

end Ecc

end PWSat2OBC
