import PWSat2OBC.Spec.TimePoint

/-!
# Points in time lose nothing

`represented` is the mixed-radix value of the five fields. It never comes near `2^64`, so
`toTimeSpan` computes it exactly; `fromDuration` takes it apart again as long as the days
fit 16 bits.
-/

namespace PWSat2OBC

namespace TimePoint

/-! ### The two conversions in the natural numbers -/

theorem represented_lt (p : TimePoint) : p.represented < 2 ^ 63 := by
  have hday := p.day.isLt
  have hhour := p.hour.isLt
  have hminute := p.minute.isLt
  have hsecond := p.second.isLt
  have hmilisecond := p.milisecond.isLt
  unfold represented
  omega

/-- No carry is lost on the way up. -/
theorem toNat_toTimeSpan (p : TimePoint) : p.toTimeSpan.toNat = p.represented := by
  have hday := p.day.isLt
  have hhour := p.hour.isLt
  have hminute := p.minute.isLt
  have hsecond := p.second.isLt
  have hmilisecond := p.milisecond.isLt
  simp only [toTimeSpan, represented, BitVec.toNat_add, BitVec.toNat_mul, BitVec.toNat_setWidth,
    BitVec.ofNat_eq_ofNat, BitVec.toNat_ofNat]
  omega

/-- The fields of a decoded span, before the day counter is cut to 16 bits. -/
theorem fromDuration_fields (t : Milliseconds) :
    (fromDuration t).milisecond.toNat = t.toNat % 1000 ∧
      (fromDuration t).second.toNat = t.toNat / 1000 % 60 ∧
      (fromDuration t).minute.toNat = t.toNat / 1000 / 60 % 60 ∧
      (fromDuration t).hour.toNat = t.toNat / 1000 / 60 / 60 % 24 ∧
      (fromDuration t).day.toNat = t.toNat / 1000 / 60 / 60 / 24 % 2 ^ 16 := by
  simp only [fromDuration, BitVec.toNat_setWidth, BitVec.toNat_umod, BitVec.toNat_udiv,
    BitVec.ofNat_eq_ofNat, BitVec.toNat_ofNat, Nat.reducePow, Nat.reduceMod]
  refine ⟨?_, ?_, ?_, ?_, trivial⟩
  · omega
  · omega
  · omega
  · omega

/-- Decoding yields normal fields, whatever the span. -/
theorem fromDuration_normal (t : Milliseconds) : (fromDuration t).Normal := by
  obtain ⟨hmilisecond, hsecond, hminute, hhour, -⟩ := fromDuration_fields t
  refine ⟨?_, ?_, ?_, ?_⟩
  · omega
  · omega
  · omega
  · omega

/-- Only whole multiples of 65536 days are lost on the way down. -/
theorem represented_fromDuration (t : Milliseconds) :
    (fromDuration t).represented = t.toNat % (65536 * perDay) := by
  obtain ⟨hmilisecond, hsecond, hminute, hhour, hday⟩ := fromDuration_fields t
  simp only [represented, hmilisecond, hsecond, hminute, hhour, hday, perDay]
  omega

theorem toTimeSpan_fromDuration {t : Milliseconds} (ht : t.toNat < 65536 * perDay) :
    (fromDuration t).toTimeSpan = t := by
  apply BitVec.eq_of_toNat_eq
  rw [toNat_toTimeSpan, represented_fromDuration, Nat.mod_eq_of_lt ht]

theorem toTimeSpan_normalize {p : TimePoint} (hp : p.represented < 65536 * perDay) :
    p.normalize.toTimeSpan = p.toTimeSpan := by
  apply toTimeSpan_fromDuration
  rw [toNat_toTimeSpan]
  exact hp

/-! ### What the comparisons say -/

theorem equal_iff (p q : TimePoint) : equal p q = true ↔ p.represented = q.represented := by
  rw [equal, beq_iff_eq, ← toNat_toTimeSpan, ← toNat_toTimeSpan]
  constructor
  · intro h
    rw [h]
  · intro h
    exact BitVec.eq_of_toNat_eq h

/-- The counts are never negative, so the signed comparison is that of the values. -/
theorem lessThan_iff (p q : TimePoint) :
    lessThan p q = true ↔ p.represented < q.represented := by
  have toInt_eq (r : TimePoint) : r.toTimeSpan.toInt = (r.represented : ℤ) := by
    have hlt := r.represented_lt
    rw [BitVec.toInt_eq_toNat_cond, toNat_toTimeSpan, if_pos (by omega)]
  rw [lessThan, BitVec.slt, decide_eq_true_iff, toInt_eq, toInt_eq, Int.ofNat_lt]

/-- Normal fields are the digits of the value: they are determined by it. -/
theorem Normal.eq_of_represented {p q : TimePoint} (hp : p.Normal) (hq : q.Normal)
    (h : p.represented = q.represented) : p = q := by
  obtain ⟨pm, ps, pmin, ph⟩ := hp
  obtain ⟨qm, qs, qmin, qh⟩ := hq
  unfold represented at h
  ext1
  all_goals
    apply BitVec.eq_of_toNat_eq
    omega

/-- Any two points compare. -/
theorem trichotomy (p q : TimePoint) :
    lessThan p q = true ∨ equal p q = true ∨ lessThan q p = true := by
  rw [lessThan_iff, equal_iff, lessThan_iff]
  exact lt_trichotomy _ _

/-- `build` keeps the value it is given, in normal fields. -/
theorem build_spec (day : BitVec 16) (hour minute second : BitVec 8) (millisecond : BitVec 16)
    (h : TimePoint.represented ⟨second, minute, hour, day, millisecond⟩ < 65536 * perDay) :
    (build day hour minute second millisecond).Normal ∧
      (build day hour minute second millisecond).represented =
        TimePoint.represented ⟨second, minute, hour, day, millisecond⟩ := by
  refine ⟨fromDuration_normal _, ?_⟩
  rw [build, normalize, represented_fromDuration, toNat_toTimeSpan, Nat.mod_eq_of_lt h]

/-! ### Losslessness -/

/-- **Conversion is lossless** for spans of at least 0 and less than 65536 days, and
normalising keeps the span and makes the fields canonical. -/
theorem conversion_lossless :
    (∀ t : Milliseconds, 0 ≤ t.toInt → t.toInt < 65536 * (perDay : ℤ) →
      (fromDuration t).toTimeSpan = t ∧ (fromDuration t).Normal) ∧
    (∀ p : TimePoint, p.represented < 65536 * perDay →
      p.normalize.represented = p.represented ∧ p.normalize.toTimeSpan = p.toTimeSpan ∧
        p.normalize.Normal) ∧
    ∀ p q : TimePoint, p.represented < 65536 * perDay → q.represented < 65536 * perDay →
      (equal p q = true ↔ p.normalize = q.normalize) := by
  refine ⟨?_, ?_, ?_⟩
  · intro t hnonneg hlt
    have hnat : t.toNat < 65536 * perDay := by
      have hbound := t.isLt
      rw [BitVec.toInt_eq_toNat_cond] at hnonneg hlt
      unfold perDay at hlt ⊢
      omega
    exact ⟨toTimeSpan_fromDuration hnat, fromDuration_normal t⟩
  · intro p hp
    have hspan := toTimeSpan_normalize hp
    refine ⟨?_, hspan, fromDuration_normal _⟩
    rw [← toNat_toTimeSpan, hspan, toNat_toTimeSpan]
  · intro p q hp hq
    rw [equal_iff]
    constructor
    · intro h
      have hspan : p.toTimeSpan = q.toTimeSpan := by
        apply BitVec.eq_of_toNat_eq
        rw [toNat_toTimeSpan, toNat_toTimeSpan, h]
      rw [normalize, normalize, hspan]
    · intro h
      have hspan : p.toTimeSpan = q.toTimeSpan := by
        rw [← toTimeSpan_normalize hp, ← toTimeSpan_normalize hq, h]
      rw [← toNat_toTimeSpan, ← toNat_toTimeSpan, hspan]

/-- 200 minutes are 3 hours and 20 minutes. -/
theorem two_hundred_minutes :
    equal ⟨0, 200, 0, 65535, 0⟩ ⟨0, 20, 3, 65535, 0⟩ = true ∧
      normalize ⟨0, 200, 0, 65535, 0⟩ = normalize ⟨0, 20, 3, 65535, 0⟩ := by
  have hequal : equal ⟨0, 200, 0, 65535, 0⟩ ⟨0, 20, 3, 65535, 0⟩ = true := by decide
  exact ⟨hequal, (conversion_lossless.2.2 ⟨0, 200, 0, 65535, 0⟩ ⟨0, 20, 3, 65535, 0⟩
    (by decide) (by decide)).1 hequal⟩

end TimePoint

end PWSat2OBC
