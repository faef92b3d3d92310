import PWSat2OBC.Proof.BitWriter
import PWSat2OBC.Proof.Writer
import PWSat2OBC.Spec.Downlink

/-!
# What the ground reads from a downlink frame

`Carries f apid seq payload`: the header of the frame is that of the APID and the sequence
number, and the payload is what was written so far. It begins with `carries_init`, each
operation that fits appends its bytes (`Carries.write`), and the ground reads the frame back
(`Carries.parse`): the APID modulo 2^6 and the sequence number modulo 2^18.
-/

namespace PWSat2OBC

open Bits

/-! ## Headers -/

namespace DownlinkFrame

/-- The 24 bits of a header. -/
def headerBits (apid : Byte) (seq : BitVec 32) : List Bool := bits 6 apid.toNat ++ bits 18 seq.toNat

variable {view : List Byte}

/-- The array after the header has been written. -/
theorem writeHeader_holds (hview : view.length = maxDownlinkFrameSize) (apid : Byte) (seq : BitVec 32) :
    (writeHeader view apid seq).Holds view (headerBits apid seq) := by
  unfold maxDownlinkFrameSize at hview
  have hsmall : view.length < 2 ^ 28 := by omega
  have h0 := BitWriter.holds_init hsmall
  obtain ⟨-, hvalid, h1⟩ := h0.writeBits 1 (apid.setWidth 16).toNat 6 (by omega)
    ⟨by simpa [BitWriter.init] using (by omega : 0 < view.length), by omega, by
      rw [List.length_nil]
      omega⟩
  obtain ⟨-, -, h2⟩ := h1.writeBits 2 seq.toNat 18 (by omega)
    ⟨hvalid, by omega, by
      rw [List.length_append, length_bits, List.length_nil]
      omega⟩
  have hapid : (apid.setWidth 16).toNat = apid.toNat := by
    rw [BitVec.toNat_setWidth]
    exact Nat.mod_eq_of_lt (by have := apid.isLt; omega)
  rw [hapid, List.nil_append] at h2
  exact h2

theorem length_headerBits (apid : Byte) (seq : BitVec 32) : (headerBits apid seq).length = 24 := by
  rw [headerBits, List.length_append, length_bits, length_bits]

/-- The header is full: three bytes with the 24 bits. -/
theorem ofWords_take_writeHeader (hview : view.length = maxDownlinkFrameSize) (apid : Byte)
    (seq : BitVec 32) : ofWords ((writeHeader view apid seq).buffer.take headerSize) = headerBits apid seq := by
  have h := writeHeader_holds hview apid seq
  have hbytes : (writeHeader view apid seq).usedBytes = headerSize := by
    rw [h.usedBytes_eq, length_headerBits]
    rfl
  have hbits := h.used
  rw [hbytes, length_headerBits] at hbits
  exact hbits.trans (List.append_nil _)

theorem ofWords_header (apid : Byte) (seq : BitVec 32) :
    ofWords (init apid seq).header = headerBits apid seq := by
  unfold init
  dsimp only
  have hview : (List.replicate maxDownlinkFrameSize (0 : Byte)).length = maxDownlinkFrameSize :=
    List.length_replicate
  generalize List.replicate maxDownlinkFrameSize (0 : Byte) = view at *
  exact ofWords_take_writeHeader hview apid seq

theorem length_header (apid : Byte) (seq : BitVec 32) : (init apid seq).header.length = 3 := by
  have h := congrArg List.length (ofWords_header apid seq)
  rw [length_ofWords, length_headerBits] at h
  omega

/-- The bytes behind the header are those of the array. -/
theorem drop_writeHeader (hview : view.length = maxDownlinkFrameSize) (apid : Byte) (seq : BitVec 32) :
    (writeHeader view apid seq).buffer.drop headerSize = view.drop headerSize := by
  have h := writeHeader_holds hview apid seq
  have hbytes : (writeHeader view apid seq).usedBytes = headerSize := by
    rw [h.usedBytes_eq, length_headerBits]
    rfl
  rw [← hbytes]
  exact h.rest

theorem payload_init (apid : Byte) (seq : BitVec 32) :
    (init apid seq).payloadWriter.buffer = List.replicate maxPayloadSize 0 := by
  unfold init Writer.init
  dsimp only
  rw [drop_writeHeader List.length_replicate, List.drop_replicate]
  rfl

/-- The writer for the payload is over the other bytes of the array. -/
theorem holds_init (apid : Byte) (seq : BitVec 32) :
    (init apid seq).payloadWriter.Holds maxPayloadSize [] := by
  unfold init
  dsimp only
  have hview : (List.replicate maxDownlinkFrameSize (0 : Byte)).length = maxDownlinkFrameSize :=
    List.length_replicate
  generalize List.replicate maxDownlinkFrameSize (0 : Byte) = view at *
  have h := (writeHeader_holds hview apid seq).length
  apply Writer.holds_init
  · rw [List.length_drop, h, hview]
    rfl
  · unfold maxPayloadSize maxDownlinkFrameSize headerSize
    omega
  · unfold maxPayloadSize maxDownlinkFrameSize headerSize
    omega

/-! ## Frames -/

/-- The frame carries a payload. -/
structure Carries (f : DownlinkFrame) (apid : Byte) (seq : BitVec 32) (payload : List Byte) : Prop where
  header : f.header = (init apid seq).header
  holds : f.payloadWriter.Holds maxPayloadSize payload
  /-- The rest of the array has not been touched. -/
  rest : f.payloadWriter.buffer.drop payload.length = List.replicate (maxPayloadSize - payload.length) 0

theorem carries_init (apid : Byte) (seq : BitVec 32) : (init apid seq).Carries apid seq [] where
  header := rfl
  holds := holds_init apid seq
  rest := payload_init apid seq

variable {f : DownlinkFrame} {apid : Byte} {seq : BitVec 32} {payload : List Byte}

/-- The operations on the payload all append bytes, if there is room. -/
theorem Carries.write (h : f.Carries apid seq payload) (bytes : List Byte)
    (hfits : payload.length + bytes.length ≤ maxPayloadSize) :
    (f.payloadWriter.write bytes).1 = true ∧
      ({ f with payloadWriter := (f.payloadWriter.write bytes).2 } : DownlinkFrame).Carries apid seq
        (payload ++ bytes) := by
  have hmax : maxPayloadSize < 2 ^ 8 := by decide
  obtain ⟨hok, hholds⟩ := h.holds.write bytes hfits (by omega)
  have hdrop : f.payloadWriter.buffer.drop (payload ++ bytes).length =
      List.replicate (maxPayloadSize - (payload ++ bytes).length) 0 := by
    rw [List.length_append, ← List.drop_drop, h.rest, List.drop_replicate, Nat.sub_sub]
  exact ⟨hok, h.header, hholds, (h.holds.drop_write bytes).trans hdrop⟩

theorem Carries.writeByte (h : f.Carries apid seq payload) (byte : Byte)
    (hfits : payload.length + 1 ≤ maxPayloadSize) :
    (f.writeByte byte).Carries apid seq (payload ++ [byte]) := (h.write [byte] hfits).2

theorem Carries.writeDoubleWordLE (h : f.Carries apid seq payload) (word : BitVec 32)
    (hfits : payload.length + 4 ≤ maxPayloadSize) :
    (f.writeDoubleWordLE word).Carries apid seq (payload ++ Redundancy.storeWord word) :=
  (h.write (Redundancy.storeWord word) hfits).2

theorem Carries.writeArray (h : f.Carries apid seq payload) (buffer : List Byte)
    (hfits : payload.length + buffer.length ≤ maxPayloadSize) :
    (f.writeArray buffer).Carries apid seq (payload ++ buffer) := (h.write buffer hfits).2

/-- A span is reserved and bytes arrive in it: the payload goes on with them, and with zeros up
to the end of the span. -/
theorem Carries.reserve (h : f.Carries apid seq payload) (count : ℕ) (bytes : List Byte)
    (hfits : payload.length + count ≤ maxPayloadSize) (hbytes : bytes.length ≤ count) :
    (f.payloadWriter.reserve count).1 = (payload.length, count) ∧
      ({ f with payloadWriter := (f.payloadWriter.reserve count).2.fillReserved payload.length bytes } :
        DownlinkFrame).frame =
        (init apid seq).header ++ (payload ++ bytes ++ List.replicate (count - bytes.length) 0) := by
  have hmax : maxPayloadSize < 2 ^ 8 := by decide
  obtain ⟨hspan, hholds⟩ := h.holds.reserve hfits (by omega) hbytes
  have hzeros : (f.payloadWriter.buffer.drop (payload ++ bytes).length).take (count - bytes.length) =
      List.replicate (count - bytes.length) 0 := by
    rw [List.length_append, ← List.drop_drop, h.rest, List.drop_replicate, List.take_replicate]
    congr 1
    omega
  rw [hzeros] at hholds
  refine ⟨hspan, ?_⟩
  unfold frame Writer.capture
  dsimp only
  rw [h.header, hholds.position, hholds.taken]

theorem Carries.length_le (h : f.Carries apid seq payload) : payload.length ≤ maxPayloadSize := h.holds.le

/-- The bytes sent. -/
theorem Carries.frame_eq (h : f.Carries apid seq payload) : f.frame = (init apid seq).header ++ payload := by
  unfold frame Writer.capture
  rw [h.header, h.holds.position, h.holds.taken]

end DownlinkFrame

theorem CorrelatedDownlinkFrame.carries_init (apid : Byte) (seq : BitVec 32) (correlationId : Byte) :
    (init apid seq correlationId).Carries apid seq [correlationId] :=
  (DownlinkFrame.carries_init apid seq).writeByte correlationId (by decide)

/-! ## Parsing -/

/-- Three bytes put together. -/
theorem num_eq (b0 b1 b2 : Byte) :
    b0.toNat ||| b1.toNat <<< 8 ||| b2.toNat <<< 16 = value (ofWords [b0, b1, b2]) := by
  have h0 := b0.isLt
  have h1 := b1.isLt
  have h2 := b2.isLt
  have hlow : b0.toNat ||| b1.toNat <<< 8 = b1.toNat <<< 8 + b0.toNat := by
    rw [Nat.or_comm]
    exact (Nat.shiftLeft_add_eq_or_of_lt h0 b1.toNat).symm
  have hall : b1.toNat <<< 8 + b0.toNat ||| b2.toNat <<< 16 = b2.toNat <<< 16 + (b1.toNat <<< 8 + b0.toNat) := by
    rw [Nat.or_comm]
    refine (Nat.shiftLeft_add_eq_or_of_lt ?_ b2.toNat).symm
    rw [Nat.shiftLeft_eq]
    omega
  rw [hlow, hall]
  simp only [ofWords_cons, ofWords_nil, List.append_nil, value_append, length_bits,
    value_bits_of_lt h0, value_bits_of_lt h1, value_bits_of_lt h2, Nat.shiftLeft_eq]
  ring

/-- **The ground reads back** the APID, the low 18 bits of the sequence number and the payload. -/
theorem DownlinkFrame.parse_header (apid : Byte) (seq : BitVec 32) (payload : List Byte) :
    ReceivedFrame.parse ((DownlinkFrame.init apid seq).header ++ payload) =
      ⟨apid.toNat % 2 ^ 6, seq.toNat % 2 ^ 18, payload⟩ := by
  obtain ⟨b0, b1, b2, hheader⟩ : ∃ b0 b1 b2, (DownlinkFrame.init apid seq).header = [b0, b1, b2] :=
    List.length_eq_three.1 (DownlinkFrame.length_header apid seq)
  have hbits := DownlinkFrame.ofWords_header apid seq
  rw [hheader] at hbits
  have hnum : value (ofWords [b0, b1, b2]) = apid.toNat % 2 ^ 6 + 2 ^ 6 * (seq.toNat % 2 ^ 18) := by
    rw [hbits, DownlinkFrame.headerBits, value_append, length_bits, value_bits, value_bits]
  have hapid := Nat.mod_lt apid.toNat (show 0 < 2 ^ 6 by decide)
  rw [hheader]
  unfold ReceivedFrame.parse
  simp only [List.cons_append, List.nil_append, List.getD_cons_zero, List.getD_cons_succ, num_eq, hnum,
    List.drop_succ_cons, List.drop_zero, ReceivedFrame.mk.injEq, and_true]
  constructor
  · rw [show (0b00111111 : ℕ) = 2 ^ 6 - 1 from rfl, Nat.and_two_pow_sub_one_eq_mod]
    omega
  · rw [Nat.shiftRight_eq_div_pow]
    omega

theorem DownlinkFrame.Carries.parse {f : DownlinkFrame} {apid : Byte} {seq : BitVec 32}
    {payload : List Byte} (h : f.Carries apid seq payload) :
    ReceivedFrame.parse f.frame = ⟨apid.toNat % 2 ^ 6, seq.toNat % 2 ^ 18, payload⟩ := by
  rw [h.frame_eq]
  exact DownlinkFrame.parse_header apid seq payload

end PWSat2OBC
