import PWSat2OBC.Lib.Chunks
import PWSat2OBC.Spec.Redundancy

/-!
# FRAM drivers (`libs/drivers/fm25w/fm25w.cpp`)

One FM25W chip is what it returns at each 16-bit address. The redundant driver holds
three of them, reads in chunks of 1 KB, and votes only when chips 0 and 1 differ.
-/

namespace PWSat2OBC

/-- `fm25w::Address`. -/
abbrev Address := BitVec 16

/-- One FM25W chip: the byte at each address. -/
abbrev Fm25w := Address → Byte

namespace Fm25w

/-- `FM25WDriver::Read`: the chip's address counter runs on through the buffer. -/
def read (chip : Fm25w) (address : Address) (length : ℕ) : List Byte :=
  (List.range length).map fun i => chip (address + BitVec.ofNat 16 i)

/-- `FM25WDriver::Write`. -/
def write (chip : Fm25w) (address : Address) (buffer : List Byte) : Fm25w :=
  fun a => buffer.getD (a - address).toNat (chip a)

end Fm25w

/-- A call on the error counter. -/
inductive ErrorCall
  | success
  | failure
deriving DecidableEq, Repr

/-- The address of an `alignas(4)` object. -/
structure Aligned4 where
  addr : ℕ
  aligned : addr % 4 = 0

/-- `RedundantFM25WDriver`: the three chips. -/
structure RedundantFm25w where
  chip0 : Fm25w
  chip1 : Fm25w
  chip2 : Fm25w

namespace RedundantFm25w

/-- `1_KB`, the size of the two buffers on the stack. -/
def chunkSize : ℕ := 1024

variable (d : RedundantFm25w)

/-- `RedundantFM25WDriver::Read` on one chunk: `output` is the address of the output
buffer, `redundantBuffer1` and `redundantBuffer2` those of the buffers on the stack. The
result of `CorrectBuffer` is not looked at. -/
def readChunk (redundantBuffer1 redundantBuffer2 : Aligned4) (address : Address)
    (output length : ℕ) : List Byte × ErrorCall :=
  let normalizedOutput := d.chip0.read address length
  let normalizedRedundant1 := d.chip1.read address length
  if normalizedOutput = normalizedRedundant1 then (normalizedOutput, .success)
  else
    let normalizedRedundant2 := d.chip2.read address length
    ((Redundancy.correctBuffer ⟨output, normalizedOutput⟩
      ⟨redundantBuffer1.addr, normalizedRedundant1⟩
      ⟨redundantBuffer2.addr, normalizedRedundant2⟩).2, .failure)

/-- The length of the chunk that starts at `offset`. -/
def chunkLength (length offset : ℕ) : ℕ := min (length - offset) chunkSize

/-- `RedundantFM25WDriver::Read`: what ends up in the output buffer at address `output`,
and the calls on the error counter. -/
def read (redundantBuffer1 redundantBuffer2 : Aligned4) (address : Address)
    (output length : ℕ) : List Byte × List ErrorCall :=
  let results := (List.range (Chunks.count length chunkSize)).map fun i =>
    let offset := i * chunkSize
    d.readChunk redundantBuffer1 redundantBuffer2 (address + BitVec.ofNat 16 offset)
      (output + offset) (chunkLength length offset)
  (results.flatMap Prod.fst, results.map Prod.snd)

/-- `RedundantFM25WDriver::Write`. -/
def write (address : Address) (buffer : List Byte) : RedundantFm25w :=
  ⟨d.chip0.write address buffer, d.chip1.write address buffer, d.chip2.write address buffer⟩

end RedundantFm25w

end PWSat2OBC
