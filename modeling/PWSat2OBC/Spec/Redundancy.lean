import PWSat2OBC.Lib.Vote

/-!
# Redundancy support (`libs/base/redundancy.cpp`)

Bitwise majority votes on integers and on whole buffers. A buffer is a `Span`: its
bytes and the address of the first one. The buffer votes read both: they work on
32-bit words, so they refuse buffers whose length or address is not a multiple of 4,
and then leave the output as it was.
-/

namespace PWSat2OBC

open Voting

/-- A byte of memory. -/
abbrev Byte := BitVec 8

/-- `__builtin_popcount` of a byte. -/
def popcount (mask : Byte) : ℕ := (List.range 8).countP fun i => mask.getLsbD i

/-- `gsl::span` of bytes: the address of the first byte and the bytes. -/
structure Span where
  addr : ℕ
  bytes : List Byte
deriving DecidableEq, Repr

namespace Span

/-- `span::length`. -/
def length (s : Span) : ℕ := s.bytes.length

/-- `span::subspan`. -/
def subspan (s : Span) (offset count : ℕ) : Span :=
  ⟨s.addr + offset, (s.bytes.drop offset).take count⟩

end Span

/-- `IsAligned<4>`. -/
def isAligned4 (ptr : ℕ) : Bool := ptr &&& 3 == 0

namespace Redundancy

variable {w : ℕ}

/-- `Correct` on three inputs. -/
def correct (a b c : BitVec w) : BitVec w := (a &&& b) ||| (b &&& c) ||| (a &&& c)

/-- The 32-bit word at four consecutive bytes (the MCU is little endian). -/
def loadWord (b0 b1 b2 b3 : Byte) : BitVec 32 := b3 ++ (b2 ++ (b1 ++ b0))

/-- The four bytes of a 32-bit word in memory order. -/
def storeWord (x : BitVec 32) : List Byte :=
  [x.extractLsb' 0 8, x.extractLsb' 8 8, x.extractLsb' 16 8, x.extractLsb' 24 8]

/-- The loop of `CorrectBuffer`: `a[i] = Correct(a[i], b[i], c[i])` on 32-bit words. -/
def correctWords : List Byte → List Byte → List Byte → List Byte
  | a0 :: a1 :: a2 :: a3 :: as, b0 :: b1 :: b2 :: b3 :: bs, c0 :: c1 :: c2 :: c3 :: cs =>
    storeWord (correct (loadWord a0 a1 a2 a3) (loadWord b0 b1 b2 b3) (loadWord c0 c1 c2 c3)) ++
      correctWords as bs cs
  | _, _, _ => []

/-- `CorrectBuffer(buffer1, buffer2, buffer3)`: the returned flag and the new contents
of `buffer1`. -/
def correctBuffer (buffer1 buffer2 buffer3 : Span) : Bool × List Byte :=
  if buffer1.length ≠ buffer2.length ∨ buffer2.length ≠ buffer3.length then (false, buffer1.bytes)
  else if buffer1.length % 4 ≠ 0 then (false, buffer1.bytes)
  else if !(isAligned4 buffer1.addr && isAligned4 buffer2.addr && isAligned4 buffer3.addr) then
    (false, buffer1.bytes)
  else (true, correctWords buffer1.bytes buffer2.bytes buffer3.bytes)

/-- `CorrectBuffer(output, buffer1, buffer2, buffer3)`: the flag and the new contents of
`output`. The alignment of `output` is not looked at. -/
def correctBufferTo (output buffer1 buffer2 buffer3 : Span) : Bool × List Byte :=
  if output.length ≠ buffer1.length ∨ buffer1.length ≠ buffer2.length ∨
      buffer2.length ≠ buffer3.length then (false, output.bytes)
  else if output.length % 4 ≠ 0 then (false, output.bytes)
  else if !(isAligned4 buffer1.addr && isAligned4 buffer2.addr && isAligned4 buffer3.addr) then
    (false, output.bytes)
  else (true, correctWords buffer1.bytes buffer2.bytes buffer3.bytes)

/-- `Correct` on five inputs. -/
def correct5 (a b c d e : BitVec w) : BitVec w :=
  (c &&& d &&& e) ||| (b &&& d &&& e) ||| (b &&& c &&& e) ||| (b &&& c &&& d) |||
    (a &&& d &&& e) ||| (a &&& c &&& e) ||| (a &&& c &&& d) ||| (a &&& b &&& e) |||
    (a &&& b &&& d) ||| (a &&& b &&& c)

/-- The word at index `i` of a buffer seen as 32-bit words. -/
def wordAt (bytes : List Byte) (i : ℕ) : BitVec 32 :=
  loadWord (bytes.getD (4 * i) 0) (bytes.getD (4 * i + 1) 0) (bytes.getD (4 * i + 2) 0)
    (bytes.getD (4 * i + 3) 0)

/-- The loop of `CorrectBuffer`: `r[i] = Correct(a[i], b[i], c[i], d[i], e[i])` on `length`
32-bit words. -/
def correctWords5 (length : ℕ) (a b c d e : List Byte) : List Byte :=
  (List.range length).flatMap fun i =>
    storeWord (correct5 (wordAt a i) (wordAt b i) (wordAt c i) (wordAt d i) (wordAt e i))

/-- `CorrectBuffer(result, buffers)` on five buffers: the flag and the new contents of
`result`. The alignment of `result` is not looked at. -/
def correctBuffer5 (result a b c d e : Span) : Bool × List Byte :=
  if a.length ≠ b.length ∨ b.length ≠ c.length ∨ c.length ≠ d.length ∨ d.length ≠ e.length ∨
      result.length ≠ a.length then (false, result.bytes)
  else if result.length % 4 ≠ 0 then (false, result.bytes)
  else if !(isAligned4 a.addr && isAligned4 b.addr && isAligned4 c.addr && isAligned4 d.addr &&
      isAligned4 e.addr) then (false, result.bytes)
  else (true, correctWords5 (result.length / 4) a.bytes b.bytes c.bytes d.bytes e.bytes)

end Redundancy

end PWSat2OBC
