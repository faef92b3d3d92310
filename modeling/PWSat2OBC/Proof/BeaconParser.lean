import PWSat2OBC.Spec.BeaconParser

/-!
# What the beacon parser reads

`parseAll_eq`: from a concatenation of bit strings of the lengths of its fields, the parser
reads them field by field, and shows what `decoded` makes of each.
-/

namespace PWSat2OBC

open Bits

namespace BeaconParser

/-- What a field shows of the bits it reads; `none` where its type raises. -/
def decoded (f : Field) (bits : List Bool) : Option Value :=
  f.valueType.convert (if f.twoComplement then decodeTwoComplement (value bits) f.length else value bits)

/-- An entry without the place in its key. -/
def Entry.shown (e : Entry) : String × String × Value := (e.category, e.name, e.value)

/-- The values, if none is missing. -/
def collect {α : Type} : List (Option α) → Option (List α)
  | [] => some []
  | x :: xs => do
    let first ← x
    let rest ← collect xs
    return first :: rest

theorem collect_eq_some {α : Type} {xs : List (Option α)} {vs : List α} :
    collect xs = some vs ↔ xs = vs.map some := by
  induction xs generalizing vs with
  | nil => cases vs <;> simp [collect]
  | cons x xs ih =>
    cases x with
    | none => cases vs <;> simp [collect]
    | some a =>
      cases h : collect xs with
      | none =>
        cases vs with
        | nil => simp [collect, h]
        | cons v vs =>
          have hne : xs ≠ vs.map some := by
            intro heq
            rw [ih.2 heq] at h
            cases h
          simp [collect, h, hne]
      | some rest =>
        have hxs := ih.1 h
        cases vs with
        | nil => simp [collect, h]
        | cons v vs =>
          have hinj : rest = vs ↔ xs = vs.map some := by
            rw [hxs, List.map_inj_right (fun _ _ => Option.some.inj)]
          simp [collect, h, hinj]

/-- The fields of the categories, in the order they are read. -/
def rows (parsers : List CategoryParser) : List (String × Field) :=
  parsers.flatMap fun p => p.fields.map fun f => (p.category, f)

/-- All fields in one loop. -/
def parseAll : List (String × Field) → BitReader → Option (List Entry × BitReader)
  | [], reader => some ([], reader)
  | row :: rows, reader => do
    let first ← append row.1 row.2 reader
    let rest ← parseAll rows first.2
    return (first.1 :: rest.1, rest.2)

theorem parseAll_append (xs ys : List (String × Field)) (reader : BitReader) :
    parseAll (xs ++ ys) reader = (do
      let first ← parseAll xs reader
      let rest ← parseAll ys first.2
      return (first.1 ++ rest.1, rest.2)) := by
  induction xs generalizing reader with
  | nil => simp [parseAll]
  | cons x xs ih => simp [parseAll, ih, Option.bind_assoc]

theorem parseFields_eq (category : String) (fs : List Field) (reader : BitReader) :
    parseFields category fs reader = parseAll (fs.map fun f => (category, f)) reader := by
  induction fs generalizing reader with
  | nil => rfl
  | cons f fs ih => simp [parseFields, parseAll, ih]

theorem parseCategories_eq (ps : List CategoryParser) (reader : BitReader) :
    parseCategories ps reader = parseAll (rows ps) reader := by
  induction ps generalizing reader with
  | nil => rfl
  | cons p ps ih =>
    have hrows : rows (p :: ps) = (p.fields.map fun f => (p.category, f)) ++ rows ps := rfl
    rw [hrows, parseAll_append, parseCategories, parseFields_eq]
    simp only [ih]

theorem value_replicate_false (n : ℕ) : value (List.replicate n false) = 0 := by
  induction n with
  | zero => rfl
  | succ n ih => simp [List.replicate_succ, value, ih]

theorem value_append_zeros (bits : List Bool) (n : ℕ) :
    value (bits ++ List.replicate n false) = value bits := by
  induction bits with
  | nil => exact value_replicate_false n
  | cons b bits ih => rw [List.cons_append, value, value, ih]

theorem converter_eq (length : ℕ) (bits : List Bool) : converter length bits = value bits := by
  unfold converter padBits
  split_ifs <;> exact value_append_zeros _ _

/-- **One field**, from the bits at the reader. -/
theorem append_eq (category : String) (f : Field) (before bits after : List Bool)
    (h : bits.length = f.length) :
    append category f ⟨before ++ (bits ++ after), before.length⟩ =
      (decoded f bits).map fun value =>
        (⟨category, before.length, f.name, value⟩,
          ⟨(before ++ bits) ++ after, (before ++ bits).length⟩) := by
  have hslice : ((before ++ (bits ++ after)).drop before.length).take f.length = bits := by
    rw [List.drop_left, List.take_left' h]
  have hread : BitReader.read ⟨before ++ (bits ++ after), before.length⟩ f.length =
      (some (value bits), ⟨(before ++ bits) ++ after, (before ++ bits).length⟩) := by
    unfold BitReader.read
    simp only [hslice, h, lt_irrefl, if_false, converter_eq, List.append_assoc, List.length_append]
  have hstart : (before ++ bits).length - f.length = before.length := by
    rw [List.length_append, h]
    omega
  rw [append, hread]
  simp only [decoded, hstart]

/-- **All fields**, from a concatenation of bit strings of their lengths. -/
theorem parseAll_eq (rs : List (String × Field)) : ∀ (segments : List (List Bool)) (before after : List Bool),
    segments.map List.length = rs.map (fun row => row.2.length) →
      (parseAll rs ⟨before ++ (segments.flatten ++ after), before.length⟩).map
          (fun r => (r.1.map Entry.shown, r.2.offset)) =
        (collect (List.zipWith (fun row bits => (decoded row.2 bits).map fun v => (row.1, row.2.name, v))
          rs segments)).map fun shown => (shown, before.length + segments.flatten.length) := by
  induction rs with
  | nil =>
    intro segments before after h
    obtain rfl := List.map_eq_nil_iff.1 h
    simp [parseAll, collect]
  | cons row rs ih =>
    intro segments before after h
    cases segments with
    | nil => cases h
    | cons bits segments =>
      obtain ⟨hlen, hrest⟩ := List.cons.inj h
      have hsplit : before ++ ((bits :: segments).flatten ++ after) =
          before ++ (bits ++ (segments.flatten ++ after)) := by
        rw [List.flatten_cons, List.append_assoc]
      have ih := ih segments (before ++ bits) after hrest
      -- the first field, and the rest behind its bits
      rw [hsplit, parseAll, append_eq row.1 row.2 before bits _ hlen, List.zipWith_cons_cons, collect]
      cases hd : decoded row.2 bits with
      | none => rfl
      | some v =>
        simp only [Option.map_some, Option.bind_eq_bind, Option.bind_some]
        cases hp : parseAll rs ⟨before ++ bits ++ (segments.flatten ++ after), (before ++ bits).length⟩ with
        | none =>
          rw [hp, Option.map_none] at ih
          have hc := Option.map_eq_none_iff.1 ih.symm
          rw [hc]
          rfl
        | some r =>
          rw [hp, Option.map_some] at ih
          obtain ⟨shown, hc, heq⟩ := Option.map_eq_some_iff.1 ih.symm
          obtain ⟨h1, h2⟩ := Prod.mk.inj heq
          rw [hc]
          simp only [Option.bind_some, Option.pure_def, Option.map_some, List.map_cons, ← h1, ← h2]
          simp [Entry.shown, Nat.add_assoc]

section Decoded

variable (name : String) (n : ℕ) (bits : List Bool)

@[simp] theorem decoded_field : decoded (field name n) bits = some (.number (value bits)) := rfl

@[simp] theorem decoded_signed :
    decoded (signed name n) bits = some (.number (decodeTwoComplement (value bits) n)) := rfl

/-- A number in range is kept. -/
theorem decoded_clamped {max : ℤ} (h : (value bits : ℤ) ≤ max) :
    decoded (converted name n (.clamped max)) bits = some (.number (value bits)) := by
  have hno : ¬ (max < (value bits : ℤ) ∨ (value bits : ℤ) < 0) := by omega
  unfold decoded converted ValueType.convert
  simp only [Bool.false_eq_true, if_false, if_neg hno]

/-- A time Python can hold is kept, any other raises. -/
theorem decoded_milliseconds :
    decoded (converted name n timeFromMilliseconds) bits =
      if (value bits : ℤ) < 86400000 * 1000000000 then some (.number (value bits)) else none := rfl

/-- **The two's complement** of a word is its signed value. -/
theorem decodeTwoComplement_toNat {n : ℕ} (x : BitVec n) : decodeTwoComplement x.toNat n = x.toInt := by
  have hbit : x.toNat &&& (1 <<< (n - 1)) ≠ 0 ↔ x.msb = true := by
    rw [Nat.one_shiftLeft, and_two_pow_ne_zero, BitVec.msb_eq_getLsbD_last,
      BitVec.testBit_toNat]
  rw [decodeTwoComplement, BitVec.toInt_eq_msb_cond]
  simp only [hbit]
  rw [Nat.one_shiftLeft]

end Decoded

end BeaconParser

end PWSat2OBC
