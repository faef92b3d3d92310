import Mathlib.Tactic

/-!
# Bit strings

A number as the list of its bits, least significant bit first, and a list of words as the
list of their bits. `value` reads a bit string back (`value_bits`).
-/

namespace Bits

/-- The `n` low bits of `v`. -/
def bits (n v : ℕ) : List Bool := (List.range n).map v.testBit

/-- The number whose bits are given. -/
def value : List Bool → ℕ
  | [] => 0
  | b :: bs => b.toNat + 2 * value bs

/-- The bits of a list of words. -/
def ofWords {w : ℕ} (words : List (BitVec w)) : List Bool := words.flatMap fun x => bits w x.toNat

@[simp] theorem length_bits (n v : ℕ) : (bits n v).length = n := by simp [bits]

@[simp] theorem bits_zero_left (v : ℕ) : bits 0 v = [] := rfl

@[simp] theorem bits_zero_right (n : ℕ) : bits n 0 = List.replicate n false := by
  unfold bits
  rw [List.eq_replicate_iff]
  simp

theorem bits_succ (n v : ℕ) : bits (n + 1) v = v.testBit 0 :: bits n (v / 2) := by
  unfold bits
  rw [List.range_succ_eq_map, List.map_cons, List.map_map]
  congr 1
  apply List.map_congr_left
  intro i _
  rw [Function.comp_apply, Nat.testBit_succ]

theorem bits_add (m n v : ℕ) : bits (m + n) v = bits m v ++ bits n (v / 2 ^ m) := by
  unfold bits
  rw [List.range_add, List.map_append, List.map_map]
  congr 1
  apply List.map_congr_left
  intro i _
  rw [Function.comp_apply, Nat.testBit_div_two_pow, Nat.add_comm]

theorem bits_congr {n a b : ℕ} (h : a % 2 ^ n = b % 2 ^ n) : bits n a = bits n b := by
  unfold bits
  apply List.map_congr_left
  intro i hi
  have hi := List.mem_range.1 hi
  have ha := Nat.testBit_mod_two_pow a n i
  have hb := Nat.testBit_mod_two_pow b n i
  simp only [hi, decide_true, Bool.true_and] at ha hb
  rw [← ha, ← hb, h]

/-- The bits of a number do not see what is above them. -/
theorem bits_mod {n m : ℕ} (v : ℕ) (h : n ≤ m) : bits n (v % 2 ^ m) = bits n v :=
  bits_congr (Nat.mod_mod_of_dvd v (pow_dvd_pow 2 h))

/-- **Two fields packed into one number.** -/
theorem bits_pack {m a : ℕ} (n b : ℕ) (ha : a < 2 ^ m) :
    bits (m + n) (a + 2 ^ m * b) = bits m a ++ bits n b := by
  have hlow : bits m (a + 2 ^ m * b) = bits m a := bits_congr (Nat.add_mul_mod_self_left _ _ _)
  have hhigh : (a + 2 ^ m * b) / 2 ^ m = b := by
    rw [Nat.add_mul_div_left _ _ (by positivity), Nat.div_eq_of_lt ha, Nat.zero_add]
  rw [bits_add, hlow, hhigh]

/-- The bits above a number are zero. -/
theorem bits_of_lt {m v : ℕ} (n : ℕ) (h : v < 2 ^ m) :
    bits (m + n) v = bits m v ++ List.replicate n false := by
  rw [bits_add, Nat.div_eq_of_lt h, bits_zero_right]

theorem value_append (xs ys : List Bool) : value (xs ++ ys) = value xs + 2 ^ xs.length * value ys := by
  induction xs with
  | nil => simp [value]
  | cons b xs ih =>
    rw [List.cons_append, value, ih, value, List.length_cons, Nat.pow_succ]
    ring

/-- **A number read back from its bits.** -/
theorem value_bits (n v : ℕ) : value (bits n v) = v % 2 ^ n := by
  induction n generalizing v with
  | zero => simp [value, Nat.mod_one]
  | succ n ih =>
    rw [bits_succ, value, ih, Nat.toNat_testBit, Nat.pow_succ, Nat.mul_comm (2 ^ n) 2, Nat.mod_mul,
      Nat.pow_zero, Nat.div_one]

theorem value_bits_of_lt {n v : ℕ} (h : v < 2 ^ n) : value (bits n v) = v := by
  rw [value_bits, Nat.mod_eq_of_lt h]

/-- One bit singled out by a mask. -/
theorem and_two_pow_ne_zero (v i : ℕ) : v &&& 2 ^ i ≠ 0 ↔ v.testBit i = true := by
  constructor
  · intro h
    obtain ⟨j, hj⟩ := Nat.exists_testBit_of_ne_zero h
    rw [Nat.testBit_and, Nat.testBit_two_pow, Bool.and_eq_true, decide_eq_true_eq] at hj
    obtain ⟨hv, rfl⟩ := hj
    exact hv
  · intro h h0
    have hi := congrArg (Nat.testBit · i) h0
    simp [Nat.testBit_and, h] at hi

section Words

variable {w : ℕ}

@[simp] theorem ofWords_nil : ofWords ([] : List (BitVec w)) = [] := rfl

@[simp] theorem ofWords_cons (x : BitVec w) (xs : List (BitVec w)) :
    ofWords (x :: xs) = bits w x.toNat ++ ofWords xs := rfl

@[simp] theorem ofWords_append (xs ys : List (BitVec w)) :
    ofWords (xs ++ ys) = ofWords xs ++ ofWords ys := by
  simp [ofWords]

@[simp] theorem length_ofWords (xs : List (BitVec w)) : (ofWords xs).length = w * xs.length := by
  induction xs with
  | nil => rfl
  | cons x xs ih =>
    rw [ofWords_cons, List.length_append, length_bits, ih, List.length_cons, Nat.mul_succ, Nat.add_comm]

/-- **A number cut into words.** -/
theorem ofWords_parts (k v : ℕ) :
    ofWords ((List.range k).map fun i => BitVec.ofNat w (v / 2 ^ (w * i))) = bits (w * k) v := by
  induction k generalizing v with
  | zero => rfl
  | succ k ih =>
    have hrest : ((List.range k).map fun i => BitVec.ofNat w (v / 2 ^ (w * (i + 1)))) =
        (List.range k).map fun i => BitVec.ofNat w (v / 2 ^ w / 2 ^ (w * i)) := by
      apply List.map_congr_left
      intro i _
      rw [Nat.div_div_eq_div_mul, ← Nat.pow_add, Nat.mul_succ, Nat.add_comm w]
    have hsize : w * (k + 1) = w + w * k := by rw [Nat.mul_succ, Nat.add_comm]
    rw [List.range_succ_eq_map, List.map_cons, List.map_map, ofWords_cons, Nat.mul_zero, Nat.pow_zero,
      Nat.div_one, BitVec.toNat_ofNat, bits_mod v le_rfl, hsize, bits_add, ← ih, ← hrest]
    rfl

end Words

end Bits
