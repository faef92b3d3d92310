import Mathlib.Tactic

/-!
# Codes with a pair of parities for each address bit

The words of the code have `2 ^ n` bits. For each bit `t` of an address there are two check
bits, `2t` and `2t + 1`: the parities of the word over the addresses with bit `t` clear and
with bit `t` set. A changed data bit changes one check bit of each pair, so the syndrome of
one data error has an odd number of ones in every pair (`AllOdd`) and spells its address.
No other pattern of at most two errors in the word and the check bits has such a syndrome
when there are at least three pairs, and only a single changed check bit leaves exactly one
bit in it (`Alone`).
-/

namespace PairParity

/-! ### Parities -/

/-- The exclusive or of a list. -/
def parity (l : List Bool) : Bool := l.foldr xor false

@[simp] theorem parity_nil : parity [] = false := rfl

@[simp] theorem parity_cons (b : Bool) (l : List Bool) : parity (b :: l) = (b ^^ parity l) := rfl

theorem parity_append (l l' : List Bool) : parity (l ++ l') = (parity l ^^ parity l') := by
  induction l with
  | nil => simp
  | cons b l ih => rw [List.cons_append, parity_cons, parity_cons, ih, Bool.xor_assoc]

/-- Parity is linear. -/
theorem parity_map_xor {α : Type*} (f g : α → Bool) (l : List α) :
    parity (l.map fun a => f a ^^ g a) = (parity (l.map f) ^^ parity (l.map g)) := by
  induction l with
  | nil => rfl
  | cons a l ih =>
    simp only [List.map_cons, parity_cons, ih, Bool.xor_assoc, Bool.xor_left_comm (g a)]

/-- Only the elements a mask selects count. -/
theorem parity_map_and {α : Type*} (e p : α → Bool) (l : List α) :
    parity (l.map fun a => e a && p a) = parity ((l.filter e).map p) := by
  induction l with
  | nil => rfl
  | cons a l ih =>
    rw [List.map_cons, parity_cons, ih]
    cases ha : e a with
    | true => rw [List.filter_cons_of_pos ha, List.map_cons, parity_cons, Bool.true_and]
    | false => rw [List.filter_cons_of_neg (by simp [ha]), Bool.false_and, Bool.false_xor]

/-- A constant factor. -/
theorem parity_map_and_const {α : Type*} (f : α → Bool) (c : Bool) (l : List α) :
    parity (l.map fun a => f a && c) = (parity (l.map f) && c) := by
  induction l with
  | nil => rfl
  | cons a l ih => rw [List.map_cons, parity_cons, ih, List.map_cons, parity_cons, Bool.and_xor_distrib_right]

theorem parity_eq_count (l : List Bool) : parity l = decide (l.count true % 2 = 1) := by
  induction l with
  | nil => rfl
  | cons b l ih =>
    rw [parity_cons, ih]
    cases b with
    | false => rw [List.count_cons_of_ne (by decide), Bool.false_xor]
    | true =>
      rw [List.count_cons_self, Bool.true_xor, ← decide_not]
      congr 1
      apply propext
      omega

/-! ### The check bits and their syndrome -/

variable {n : ℕ}

/-- The check bit of the word `x` for address bit `t` and its value `v`. -/
def check (n : ℕ) (x : ℕ → Bool) (t : ℕ) (v : Bool) : Bool :=
  parity ((List.range (2 ^ n)).map fun i => x i && (i.testBit t == v))

theorem check_xor (x y : ℕ → Bool) (t : ℕ) (v : Bool) :
    check n (fun i => x i ^^ y i) t v = (check n x t v ^^ check n y t v) := by
  unfold check
  rw [← parity_map_xor]
  congr 1
  apply List.map_congr_left
  intro i _
  exact Bool.and_xor_distrib_right _ _ _

/-- The places below `n` an error pattern changes. -/
def changed (n : ℕ) (e : ℕ → Bool) : List ℕ := (List.range n).filter e

theorem mem_changed {e : ℕ → Bool} {i : ℕ} : i ∈ changed n e ↔ i < n ∧ e i = true := by
  rw [changed, List.mem_filter, List.mem_range]

theorem nodup_changed (e : ℕ → Bool) : (changed n e).Nodup := List.nodup_range.filter e

/-- Nothing is changed from place `n` on. -/
theorem changed_eq_of_le {n k : ℕ} (hle : n ≤ k) {e : ℕ → Bool}
    (h : ∀ i, n ≤ i → i < k → e i = false) : changed k e = changed n e := by
  obtain ⟨d, rfl⟩ := Nat.exists_eq_add_of_le hle
  have hhigh : ((List.range d).map (n + ·)).filter e = [] := by
    rw [List.filter_eq_nil_iff]
    intro m hm
    obtain ⟨i, hi, rfl⟩ := List.mem_map.1 hm
    have hlt := List.mem_range.1 hi
    simp [h (n + i) (by omega) (by omega)]
  rw [changed, List.range_add, List.filter_append, hhigh, List.append_nil, changed]

theorem check_eq_changed (e : ℕ → Bool) (t : ℕ) (v : Bool) :
    check n e t v = parity ((changed (2 ^ n) e).map fun i => i.testBit t == v) :=
  parity_map_and e _ _

/-- What the errors `e` in the word and `f` in the check bits leave in the syndrome. -/
def syndrome (n : ℕ) (e f : ℕ → Bool) (m : ℕ) : Bool :=
  check n e (m / 2) (decide (m % 2 = 1)) ^^ f m

/-- The syndrome is that of the errors, whatever the word. -/
theorem syndrome_eq (x e f : ℕ → Bool) (m : ℕ) :
    (check n (fun i => x i ^^ e i) (m / 2) (decide (m % 2 = 1)) ^^
      (check n x (m / 2) (decide (m % 2 = 1)) ^^ f m)) = syndrome n e f m := by
  rw [check_xor, syndrome]
  generalize check n x (m / 2) (decide (m % 2 = 1)) = c
  generalize check n e (m / 2) (decide (m % 2 = 1)) = d
  cases c <;> cases d <;> cases f m <;> rfl

/-- Every pair has an odd number of ones. -/
def AllOdd (n : ℕ) (s : ℕ → Bool) : Prop := ∀ t < n, (s (2 * t) ^^ s (2 * t + 1)) = true

/-- Exactly one place below `n` is set. -/
def Alone (n : ℕ) (s : ℕ → Bool) : Prop := ∃ p < n, s p = true ∧ ∀ q < n, s q = true → q = p

theorem not_alone {s : ℕ → Bool} {p q : ℕ} (hp : p < n) (hq : q < n) (hsp : s p = true)
    (hsq : s q = true) (hne : p ≠ q) : ¬ Alone n s := by
  rintro ⟨r, -, -, hunique⟩
  exact hne ((hunique p hp hsp).trans (hunique q hq hsq).symm)

theorem alone_iff {s : ℕ → Bool} : Alone n s ↔ (changed n s).length = 1 := by
  constructor
  · rintro ⟨p, hp, hsp, hunique⟩
    have hsingle : changed n s = [p] := by
      apply List.Perm.eq_singleton
      apply (List.perm_ext_iff_of_nodup (nodup_changed s) (List.nodup_singleton p)).2
      intro q
      rw [mem_changed, List.mem_singleton]
      constructor
      · rintro ⟨hq, hsq⟩
        exact hunique q hq hsq
      · rintro rfl
        exact ⟨hp, hsp⟩
    rw [hsingle, List.length_singleton]
  · intro h
    obtain ⟨p, hp⟩ := List.length_eq_one_iff.1 h
    have hmem (q : ℕ) : q ∈ changed n s ↔ q = p := by rw [hp, List.mem_singleton]
    obtain ⟨hpn, hsp⟩ := mem_changed.1 ((hmem p).2 rfl)
    exact ⟨p, hpn, hsp, fun q hq hsq => (hmem q).1 (mem_changed.2 ⟨hq, hsq⟩)⟩

/-! ### The patterns of at most two errors -/

section Patterns

variable {e f : ℕ → Bool}

/-- Places that an error pattern does not change are as they were. -/
theorem eq_false_of_changed_nil {k : ℕ} (h : changed k f = []) {m : ℕ} (hm : m < k) : f m = false := by
  have hmem : m ∉ changed k f := h ▸ List.not_mem_nil
  rw [mem_changed] at hmem
  simpa [hm] using hmem

/-- The check bits that a list of changed ones gives. -/
theorem eq_of_changed {k : ℕ} {js : List ℕ} (h : changed k f = js) {m : ℕ} (hm : m < k) :
    f m = decide (m ∈ js) := by
  rw [← h, Bool.eq_iff_iff, decide_eq_true_iff, mem_changed]
  simp only [hm, true_and]

theorem syndrome_of_data {is : List ℕ} (he : changed (2 ^ n) e = is) (m : ℕ) :
    syndrome n e f m = (parity (is.map fun i => i.testBit (m / 2) == decide (m % 2 = 1)) ^^ f m) := by
  rw [syndrome, check_eq_changed, he]

/-- Both places of pair `t`. -/
theorem syndrome_pair {is : List ℕ} (he : changed (2 ^ n) e = is) (t : ℕ) :
    syndrome n e f (2 * t) = (parity (is.map fun i => !i.testBit t) ^^ f (2 * t)) ∧
      syndrome n e f (2 * t + 1) = (parity (is.map fun i => i.testBit t) ^^ f (2 * t + 1)) := by
  have heven : 2 * t / 2 = t ∧ 2 * t % 2 = 0 := by omega
  have hodd : (2 * t + 1) / 2 = t ∧ (2 * t + 1) % 2 = 1 := by omega
  rw [syndrome_of_data he, syndrome_of_data he, heven.1, heven.2, hodd.1, hodd.2]
  simp

/-- **No error**: the syndrome is zero. -/
theorem syndrome_none (he : changed (2 ^ n) e = []) (hf : changed (2 * n) f = []) {m : ℕ}
    (hm : m < 2 * n) : syndrome n e f m = false := by
  rw [syndrome_of_data he, eq_false_of_changed_nil hf hm]
  rfl

/-- **One data error**: every pair is odd, and its second places spell the address. -/
theorem syndrome_data {a : ℕ} (he : changed (2 ^ n) e = [a]) (hf : changed (2 * n) f = []) :
    AllOdd n (syndrome n e f) ∧ ∀ t < n, syndrome n e f (2 * t + 1) = a.testBit t := by
  have hpair (t : ℕ) (ht : t < n) :
      syndrome n e f (2 * t) = !a.testBit t ∧ syndrome n e f (2 * t + 1) = a.testBit t := by
    obtain ⟨heven, hodd⟩ := syndrome_pair (f := f) he t
    rw [heven, hodd, eq_false_of_changed_nil hf (by omega), eq_false_of_changed_nil hf (by omega)]
    simp
  constructor
  · intro t ht
    rw [(hpair t ht).1, (hpair t ht).2]
    cases a.testBit t <;> rfl
  · intro t ht
    exact (hpair t ht).2

/-- With no data error the syndrome is the errors of the check bits. -/
theorem syndrome_checks {js : List ℕ} (he : changed (2 ^ n) e = []) (hf : changed (2 * n) f = js)
    {m : ℕ} (hm : m < 2 * n) : syndrome n e f m = decide (m ∈ js) := by
  rw [syndrome_of_data he, eq_of_changed hf hm]
  exact Bool.false_xor _

/-- **One check bit**: it stands alone, and some pair is empty. -/
theorem syndrome_check {j : ℕ} (hn : 2 ≤ n) (he : changed (2 ^ n) e = [])
    (hf : changed (2 * n) f = [j]) :
    Alone (2 * n) (syndrome n e f) ∧ ¬ AllOdd n (syndrome n e f) := by
  have hj : j < 2 * n := (mem_changed.1 (hf ▸ List.mem_singleton_self j)).1
  have hset {m : ℕ} (hm : m < 2 * n) : syndrome n e f m = decide (m = j) := by
    rw [syndrome_checks he hf hm]
    simp
  constructor
  · refine ⟨j, hj, ?_, ?_⟩
    · rw [hset hj]
      exact decide_eq_true rfl
    · intro q hq hsq
      rw [hset hq] at hsq
      exact of_decide_eq_true hsq
  · intro hall
    -- a pair other than that of `j`
    have hother : ∃ t < 2, t ≠ j / 2 := by
      rcases Nat.eq_zero_or_pos (j / 2) with h | h
      · exact ⟨1, by omega, by omega⟩
      · exact ⟨0, by omega, by omega⟩
    obtain ⟨t, ht, hne⟩ := hother
    have hodd := hall t (by omega)
    rw [hset (by omega), hset (by omega), decide_eq_false (by omega), decide_eq_false (by omega)] at hodd
    exact absurd hodd (by decide)

/-- **Two data errors**: every pair is even, and one of them is full. -/
theorem syndrome_data_data {a b : ℕ} (hn : 0 < n) (he : changed (2 ^ n) e = [a, b])
    (hf : changed (2 * n) f = []) :
    (∃ m < 2 * n, syndrome n e f m = true) ∧ ¬ Alone (2 * n) (syndrome n e f) ∧
      ¬ AllOdd n (syndrome n e f) := by
  have hpair (t : ℕ) (ht : t < n) : syndrome n e f (2 * t) = (a.testBit t ^^ b.testBit t) ∧
      syndrome n e f (2 * t + 1) = (a.testBit t ^^ b.testBit t) := by
    obtain ⟨heven, hodd⟩ := syndrome_pair (f := f) he t
    rw [heven, hodd, eq_false_of_changed_nil hf (by omega), eq_false_of_changed_nil hf (by omega)]
    simp only [List.map_cons, List.map_nil, parity_cons, parity_nil, Bool.xor_false]
    cases a.testBit t <;> cases b.testBit t <;> simp
  -- two addresses below `2 ^ n` differ in one of their `n` bits
  have hdiff : ∃ t < n, a.testBit t ≠ b.testBit t := by
    have ha : a < 2 ^ n := (mem_changed.1 (he ▸ List.mem_cons_self)).1
    have hb : b < 2 ^ n := (mem_changed.1 (he ▸ List.mem_cons_of_mem _ List.mem_cons_self)).1
    have hne : a ≠ b := by
      have hnodup := nodup_changed (n := 2 ^ n) e
      rw [he, List.nodup_cons, List.mem_singleton] at hnodup
      exact hnodup.1
    by_contra hsame
    push Not at hsame
    apply hne
    apply Nat.eq_of_testBit_eq
    intro t
    rcases Nat.lt_or_ge t n with ht | ht
    · exact hsame t ht
    · have hle : 2 ^ n ≤ 2 ^ t := Nat.pow_le_pow_right (by decide) ht
      rw [Nat.testBit_lt_two_pow (Nat.lt_of_lt_of_le ha hle),
        Nat.testBit_lt_two_pow (Nat.lt_of_lt_of_le hb hle)]
  obtain ⟨t, ht, hne⟩ := hdiff
  have hset : (a.testBit t ^^ b.testBit t) = true := Bool.xor_iff_ne.2 hne
  refine ⟨⟨2 * t, by omega, ?_⟩, ?_, ?_⟩
  · rw [(hpair t ht).1, hset]
  · refine not_alone (p := 2 * t) (q := 2 * t + 1) (by omega) (by omega) ?_ ?_ (by omega)
    · rw [(hpair t ht).1, hset]
    · rw [(hpair t ht).2, hset]
  · intro hall
    have hodd := hall 0 hn
    rw [(hpair 0 hn).1, (hpair 0 hn).2, Bool.xor_self] at hodd
    exact absurd hodd (by decide)

/-- **A data error and a check bit**: the pair of the check bit is even, every other pair has
one bit. -/
theorem syndrome_data_check {a j : ℕ} (hn : 3 ≤ n) (he : changed (2 ^ n) e = [a])
    (hf : changed (2 * n) f = [j]) :
    (∃ m < 2 * n, syndrome n e f m = true) ∧ ¬ Alone (2 * n) (syndrome n e f) ∧
      ¬ AllOdd n (syndrome n e f) := by
  have hj : j < 2 * n := (mem_changed.1 (hf ▸ List.mem_singleton_self j)).1
  have hpair (t : ℕ) (ht : t < n) :
      syndrome n e f (2 * t) = (!a.testBit t ^^ decide (2 * t = j)) ∧
        syndrome n e f (2 * t + 1) = (a.testBit t ^^ decide (2 * t + 1 = j)) := by
    obtain ⟨heven, hodd⟩ := syndrome_pair (f := f) he t
    rw [heven, hodd, eq_of_changed hf (by omega), eq_of_changed hf (by omega)]
    simp
  -- the bit of a pair without `j`
  have hone (t : ℕ) (ht : t < n) (hne : t ≠ j / 2) :
      ∃ m, m / 2 = t ∧ syndrome n e f m = true := by
    obtain ⟨heven, hodd⟩ := hpair t ht
    rw [decide_eq_false (by omega)] at heven hodd
    cases ha : a.testBit t with
    | false =>
      rw [ha] at heven
      exact ⟨2 * t, by omega, heven⟩
    | true =>
      rw [ha] at hodd
      exact ⟨2 * t + 1, by omega, hodd⟩
  have hothers : ∃ t u, t < 3 ∧ u < 3 ∧ t ≠ u ∧ t ≠ j / 2 ∧ u ≠ j / 2 := by
    rcases Nat.lt_trichotomy (j / 2) 1 with h | h | h
    · exact ⟨1, 2, by omega, by omega, by omega, by omega, by omega⟩
    · exact ⟨0, 2, by omega, by omega, by omega, by omega, by omega⟩
    · exact ⟨0, 1, by omega, by omega, by omega, by omega, by omega⟩
  obtain ⟨t, u, ht, hu, htu, htj, huj⟩ := hothers
  obtain ⟨p, hp, hsp⟩ := hone t (by omega) htj
  obtain ⟨q, hq, hsq⟩ := hone u (by omega) huj
  refine ⟨⟨p, by omega, hsp⟩, not_alone (by omega) (by omega) hsp hsq (by omega), ?_⟩
  intro hall
  have hodd := hall (j / 2) (by omega)
  obtain ⟨heven, hodd'⟩ := hpair (j / 2) (by omega)
  rw [heven, hodd'] at hodd
  rcases Nat.mod_two_eq_zero_or_one j with h | h
  · rw [decide_eq_true (by omega), decide_eq_false (by omega)] at hodd
    cases ha : a.testBit (j / 2) <;> rw [ha] at hodd <;> exact absurd hodd (by decide)
  · rw [decide_eq_false (by omega), decide_eq_true (by omega)] at hodd
    cases ha : a.testBit (j / 2) <;> rw [ha] at hodd <;> exact absurd hodd (by decide)

/-- **Two check bits**: both are set, and one of three pairs is empty. -/
theorem syndrome_check_check {i j : ℕ} (hn : 3 ≤ n) (he : changed (2 ^ n) e = [])
    (hf : changed (2 * n) f = [i, j]) :
    (∃ m < 2 * n, syndrome n e f m = true) ∧ ¬ Alone (2 * n) (syndrome n e f) ∧
      ¬ AllOdd n (syndrome n e f) := by
  have hi : i < 2 * n := (mem_changed.1 (hf ▸ List.mem_cons_self)).1
  have hj : j < 2 * n := (mem_changed.1 (hf ▸ List.mem_cons_of_mem _ List.mem_cons_self)).1
  have hne : i ≠ j := by
    have hnodup := nodup_changed (n := 2 * n) f
    rw [hf, List.nodup_cons, List.mem_singleton] at hnodup
    exact hnodup.1
  have hset {m : ℕ} (hm : m < 2 * n) : syndrome n e f m = decide (m = i ∨ m = j) := by
    rw [syndrome_checks he hf hm]
    simp
  have hsi : syndrome n e f i = true := by
    rw [hset hi]
    exact decide_eq_true (.inl rfl)
  have hsj : syndrome n e f j = true := by
    rw [hset hj]
    exact decide_eq_true (.inr rfl)
  refine ⟨⟨i, hi, hsi⟩, not_alone hi hj hsi hsj hne, ?_⟩
  intro hall
  have hempty : ∃ t < 3, t ≠ i / 2 ∧ t ≠ j / 2 := by
    by_cases h0 : 0 ≠ i / 2 ∧ 0 ≠ j / 2
    · exact ⟨0, by omega, h0⟩
    · by_cases h1 : 1 ≠ i / 2 ∧ 1 ≠ j / 2
      · exact ⟨1, by omega, h1⟩
      · exact ⟨2, by omega, by omega, by omega⟩
  obtain ⟨t, ht, hti, htj⟩ := hempty
  have hodd := hall t (by omega)
  rw [hset (by omega), hset (by omega), decide_eq_false (by omega), decide_eq_false (by omega)] at hodd
  exact absurd hodd (by decide)

end Patterns

end PairParity
