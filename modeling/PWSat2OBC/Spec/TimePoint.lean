import Mathlib.Tactic

/-!
# Points in time (`libs/time/TimePoint.cpp`, `libs/time/include/time/TimePoint.h`)

A time span is a count of milliseconds in a signed 64-bit integer; a time point is the
same in five fields of their own widths, which may be out of their normal ranges. The
conversions compute in unsigned 64-bit arithmetic.
-/

namespace PWSat2OBC

/-- `TimePoint`. -/
@[ext]
structure TimePoint where
  second : BitVec 8
  minute : BitVec 8
  hour : BitVec 8
  day : BitVec 16
  milisecond : BitVec 16
deriving DecidableEq, Repr

/-- The count of a `std::chrono::milliseconds`. -/
abbrev Milliseconds := BitVec 64

namespace TimePoint

/-- `TimePointFromDuration`: every field keeps the low bits of what it is assigned. -/
def fromDuration (timeSpan : Milliseconds) : TimePoint :=
  let span := timeSpan
  let milisecond := span % 1000
  let span := span / 1000
  let second := span % 60
  let span := span / 60
  let minute := span % 60
  let span := span / 60
  let hour := span % 24
  let day := span / 24
  { second := second.setWidth 8, minute := minute.setWidth 8, hour := hour.setWidth 8,
    day := day.setWidth 16, milisecond := milisecond.setWidth 16 }

/-- `TimePointToTimeSpan`. -/
def toTimeSpan (point : TimePoint) : Milliseconds :=
  let result := point.day.setWidth 64
  let result := result * 24
  let result := result + point.hour.setWidth 64
  let result := result * 60
  let result := result + point.minute.setWidth 64
  let result := result * 60
  let result := result + point.second.setWidth 64
  let result := result * 1000
  result + point.milisecond.setWidth 64

/-- `TimePointNormalize`. -/
def normalize (point : TimePoint) : TimePoint := fromDuration (toTimeSpan point)

/-- `TimePointBuild`. -/
def build (day : BitVec 16) (hour minute second : BitVec 8) (millisecond : BitVec 16) :
    TimePoint :=
  normalize { second, minute, hour, day, milisecond := millisecond }

/-- `TimePointEqual`. -/
def equal (left right : TimePoint) : Bool := left.toTimeSpan == right.toTimeSpan

/-- `TimePointLessThan`, the comparison of signed counts. -/
def lessThan (left right : TimePoint) : Bool := left.toTimeSpan.slt right.toTimeSpan

/-- The milliseconds of a day. -/
def perDay : ℕ := 24 * 60 * 60 * 1000

/-- The fields are in the ranges the documentation of `TimePointNormalize` gives. -/
structure Normal (point : TimePoint) : Prop where
  milisecond : point.milisecond.toNat ≤ 999
  second : point.second.toNat ≤ 59
  minute : point.minute.toNat ≤ 59
  hour : point.hour.toNat ≤ 23

/-- The milliseconds the five fields stand for, with no bound on the result. -/
def represented (point : TimePoint) : ℕ :=
  (((point.day.toNat * 24 + point.hour.toNat) * 60 + point.minute.toNat) * 60 +
    point.second.toNat) * 1000 + point.milisecond.toNat

end TimePoint

end PWSat2OBC
