import PWSat2OBC.Lib.PairParity
import PWSat2OBC.Spec.Redundancy

/-!
# Error correction code (`libs/base/ecc.cpp`)

24 bits for up to 512 bytes: two parities for each bit of a bit's address, computed over
the bytes in one pass. All sums are 32-bit words; the values the source keeps in `int`s are
0, 1 or shifted by less than 24 places.
-/

namespace PWSat2OBC

/-- `EccResult`. -/
inductive EccResult
  | noError
  | corrected
  | notCorrected
  | corrupted
deriving DecidableEq, Repr

namespace Ecc

/-- The running parities of `EccCalc`; `p_` are those of the address bits that are set. -/
structure Sums where
  p1p : BitVec 32
  p1_ : BitVec 32
  p2p : BitVec 32
  p2_ : BitVec 32
  p4p : BitVec 32
  p4_ : BitVec 32
  p : BitVec 32
deriving DecidableEq, Repr

/-- `(b >> n) & 1`. -/
def bit (b : Byte) (n : ℕ) : BitVec 32 := (b.setWidth 32 >>> n) &&& 1#32

/-- `__builtin_parity`. -/
def builtinParity (b : Byte) : BitVec 32 := BitVec.ofNat 32 (popcount b % 2)

/-- The inner loop over `j < count`. -/
def rowParities (i : ℕ) (rp : BitVec 32) (count : ℕ) (p : BitVec 32) : BitVec 32 :=
  (List.range count).foldl
    (fun p j => if (i >>> j) &&& 1 ≠ 0 then p ^^^ (rp <<< (2 * j + 1)) else p ^^^ (rp <<< (2 * j + 0))) p

/-- The body of the loop over the data, for byte `b` at `i`. -/
def addByte (power : ℕ) (s : Sums) (i : ℕ) (b : Byte) : Sums where
  p1p := bit b 6 ^^^ bit b 4 ^^^ bit b 2 ^^^ bit b 0 ^^^ s.p1p
  p1_ := bit b 7 ^^^ bit b 5 ^^^ bit b 3 ^^^ bit b 1 ^^^ s.p1_
  p2p := bit b 5 ^^^ bit b 4 ^^^ bit b 1 ^^^ bit b 0 ^^^ s.p2p
  p2_ := bit b 7 ^^^ bit b 6 ^^^ bit b 3 ^^^ bit b 2 ^^^ s.p2_
  p4p := bit b 3 ^^^ bit b 2 ^^^ bit b 1 ^^^ bit b 0 ^^^ s.p4p
  p4_ := bit b 7 ^^^ bit b 6 ^^^ bit b 5 ^^^ bit b 4 ^^^ s.p4_
  p := rowParities i (builtinParity b) (power - 3) s.p

/-- The loop over the data, from index `i` on. -/
def loop (power : ℕ) (s : Sums) (i : ℕ) : List Byte → Sums
  | [] => s
  | b :: bs => loop power (addByte power s i b) (i + 1) bs

/-- `__builtin_ctz(dataLen * 8)`. -/
def power (dataLen : ℕ) : ℕ := (BitVec.ofNat 32 (dataLen * 8)).ctz.toNat

/-- `EccCalc`. -/
def eccCalc (data : List Byte) : BitVec 32 :=
  let s := loop (power data.length) ⟨0, 0, 0, 0, 0, 0, 0⟩ 0 data
  let ecc := (s.p1p <<< 0) ||| (s.p1_ <<< 1) ||| (s.p2p <<< 2) ||| (s.p2_ <<< 3) |||
    (s.p4p <<< 4) ||| (s.p4_ <<< 5)
  ecc ||| (s.p <<< 6)

/-- The loop that counts the ones, with `mask` moving down to zero. -/
def countOnes (syndrome mask : BitVec 32) (count : BitVec 8) : BitVec 8 :=
  if mask = 0 then count
  else
    countOnes syndrome (mask >>> 1) (if syndrome &&& mask ≠ 0 then count + 1#8 else count)
termination_by mask.toNat
decreasing_by
  have hne : mask.toNat ≠ 0 := fun h => by
    apply ‹¬ mask = 0›
    exact BitVec.eq_of_toNat_eq h
  rw [BitVec.toNat_ushiftRight, Nat.shiftRight_eq_div_pow]
  omega

/-- `eccBits`: the used bits of the code. -/
def eccBits (power : ℕ) : BitVec 32 := (1#32 <<< (2 * power)) - 1#32

/-- `correctableMask`: the first places of the pairs. -/
def correctableMask (power : ℕ) : BitVec 32 := 0x55555555#32 &&& eccBits power

/-- `bitNum`. -/
def bitNum (eccP : BitVec 32) : BitVec 32 :=
  (eccP &&& 0x01#32) ||| ((eccP >>> 1) &&& 0x02#32) ||| ((eccP >>> 2) &&& 0x04#32)

/-- `byteAddr`. -/
def byteAddr (eccP : BitVec 32) : BitVec 32 :=
  ((eccP >>> 6) &&& 0x001#32) ||| ((eccP >>> 7) &&& 0x002#32) ||| ((eccP >>> 8) &&& 0x004#32) |||
    ((eccP >>> 9) &&& 0x008#32) ||| ((eccP >>> 10) &&& 0x010#32) ||| ((eccP >>> 11) &&& 0x020#32) |||
    ((eccP >>> 12) &&& 0x040#32) ||| ((eccP >>> 13) &&& 0x080#32) ||| ((eccP >>> 14) &&& 0x100#32)

/-- `EccCorrect`: the result and the data it leaves. -/
def eccCorrect (generated read : BitVec 32) (data : List Byte) : EccResult × List Byte :=
  let power := power data.length
  let eccBits := eccBits power
  let correctableMask := correctableMask power
  let syndrome := (generated ^^^ read) &&& eccBits
  if syndrome = 0 then (.noError, data)
  else
    let eccPn := syndrome &&& correctableMask
    let eccP := (syndrome >>> 1) &&& correctableMask
    if eccPn ^^^ eccP = correctableMask then
      (.corrected, data.modify (byteAddr eccP).toNat (· ^^^ (1#8 <<< (bitNum eccP).toNat)))
    else if countOnes syndrome 0x00800000#32 0#8 = 1#8 then (.corrupted, data)
    else (.notCorrected, data)

/-- The data bits by their addresses. -/
def dataBit (data : List Byte) (a : ℕ) : Bool := (data.getD (a / 8) 0).getLsbD (a % 8)

/-- The data with the errors of a mask of the same length. -/
def corrupt (data errors : List Byte) : List Byte := List.zipWith (· ^^^ ·) data errors

/-- How many data bits a mask changes. -/
def changedData (errors : List Byte) : ℕ := (PairParity.changed (8 * errors.length) (dataBit errors)).length

/-- How many bits of the code a mask changes. -/
def changedEcc (errors : BitVec 32) : ℕ := (PairParity.changed 32 errors.getLsbD).length

end Ecc

end PWSat2OBC
