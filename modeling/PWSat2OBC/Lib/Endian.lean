import Mathlib.Data.Nat.Digits.Lemmas
import Mathlib.Tactic

/-!
# Numbers as words

`little n v` are the `n` low words of `v`, the lowest first, `big n v` the same words with
the highest first. `value` is the number that words with the lowest first stand for.
-/

namespace Endian

variable {w : ℕ}

/-- The `n` low words of `v`, the lowest first. -/
def little (n v : ℕ) : List (BitVec w) := (List.range n).map fun i => BitVec.ofNat w (v / 2 ^ (w * i))

/-- The `n` low words of `v`, the highest first. -/
def big (n v : ℕ) : List (BitVec w) := (little n v).reverse

/-- The number of which these are the words, the lowest first. -/
def value (words : List (BitVec w)) : ℕ := Nat.ofDigits (2 ^ w) (words.map BitVec.toNat)

@[simp] theorem length_little (n v : ℕ) : (little n v : List (BitVec w)).length = n := by
  rw [little, List.length_map, List.length_range]

@[simp] theorem length_big (n v : ℕ) : (big n v : List (BitVec w)).length = n := by
  rw [big, List.length_reverse, length_little]

/-- The highest of the words comes first. -/
theorem big_succ (n v : ℕ) : (big (n + 1) v : List (BitVec w)) = BitVec.ofNat w (v / 2 ^ (w * n)) :: big n v := by
  rw [big, big, little, little, List.range_succ, List.map_append, List.reverse_append]
  rfl

/-- A word of a number, cut out of its bits. -/
theorem extractLsb'_eq {m : ℕ} (x : BitVec m) (i : ℕ) :
    x.extractLsb' (w * i) w = BitVec.ofNat w (x.toNat / 2 ^ (w * i)) := by
  apply BitVec.eq_of_toNat_eq
  rw [BitVec.extractLsb'_toNat, BitVec.toNat_ofNat, Nat.shiftRight_eq_div_pow]

theorem map_extractLsb' {m : ℕ} (x : BitVec m) (n : ℕ) :
    (List.range n).map (fun i => x.extractLsb' (w * i) w) = little n x.toNat := by
  rw [little]
  apply List.map_congr_left
  intro i _
  exact extractLsb'_eq x i

theorem value_cons (x : BitVec w) (words : List (BitVec w)) :
    value (x :: words) = x.toNat + 2 ^ w * value words := by
  rw [value, List.map_cons, Nat.ofDigits_cons, value]

theorem value_lt (words : List (BitVec w)) : value words < 2 ^ (w * words.length) := by
  induction words with
  | nil =>
    rw [List.length_nil, Nat.mul_zero]
    exact Nat.one_pos
  | cons x words ih =>
    have hx := x.isLt
    have hpow : 2 ^ (w * (x :: words).length) = 2 ^ w * 2 ^ (w * words.length) := by
      rw [List.length_cons, Nat.mul_add, Nat.mul_one, pow_add, Nat.mul_comm]
    have hle : 2 ^ w * (value words + 1) ≤ 2 ^ w * 2 ^ (w * words.length) := Nat.mul_le_mul_left _ ih
    rw [value_cons, hpow]
    rw [Nat.mul_add] at hle
    omega

end Endian
