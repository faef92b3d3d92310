import Mathlib.Data.List.GetD
import PWSat2OBC.Lib.Chunks
import PWSat2OBC.Lib.Runs
import PWSat2OBC.Proof.CopyScrubber
import PWSat2OBC.Proof.UploadSoftware
import PWSat2OBC.Spec.Xmodem

/-!
# Transfers with XMODEM

* `transferred`: whatever the line does, as long as errors are detected, the blocks that have been
  stored are the first ones, each of them once. The invariant is `Progress`: the bootloader is at most
  one block ahead of the sender.
* `can_end_iff`: a repeated block is refused, so a transfer is stuck once the line has lost an
  acknowledgement (`lost_step`), and only then (`Ready.exists_end`).
* `application_uploaded`, `safeMode_uploaded`: what is in a slot and in the EEPROM behind the transfer.
-/

namespace PWSat2OBC

namespace XmodemPacket

theorem toInt_ofNat {n : ℕ} (hn : n < 2 ^ 31) : (BitVec.ofNat 32 n).toInt = n := by
  have htoNat : (BitVec.ofNat 32 n).toNat = n := by
    rw [BitVec.toNat_ofNat]
    exact Nat.mod_eq_of_lt (by omega)
  rw [BitVec.toInt_eq_toNat_of_lt (by rw [htoNat]; omega), htoNat]

/-- The number in a packet that is taken for good. -/
theorem packetNumber_of_verify {pkt : XmodemPacket} {n : ℕ} (hn : n < 2 ^ 31)
    (h : pkt.verifyPacketChecksum (BitVec.ofNat 32 n) = true) : pkt.packetNumber.toNat = n % 256 := by
  unfold verifyPacketChecksum at h
  split at h
  · exact absurd h Bool.false_ne_true
  split at h
  · exact absurd h Bool.false_ne_true
  rename_i hnumber
  rw [not_not, toInt_ofNat hn, Int.tmod_eq_emod_of_nonneg (Int.natCast_nonneg n)] at hnumber
  omega

theorem ofBytes_bytes (pkt : XmodemPacket) (h : pkt.data.length = 128) :
    ofBytes (pkt.bytes ++ [pkt.crcLow]) = pkt := by
  cases pkt with
  | mk packetNumber packetNumberC data crcHigh crcLow =>
    dsimp only at h
    have hdata : (data ++ [crcHigh] ++ [crcLow]).take 128 = data := by
      rw [List.append_assoc, ← h]
      exact List.take_left
    have hhigh : (data ++ [crcHigh] ++ [crcLow]).getD 128 0 = crcHigh := by
      rw [List.append_assoc, List.getD_append_right _ _ _ _ (by omega), h]
      rfl
    have hlow : (data ++ [crcHigh] ++ [crcLow]).getD 129 0 = crcLow := by
      rw [List.append_assoc, List.getD_append_right _ _ _ _ (by omega), h]
      rfl
    simp only [ofBytes, bytes, List.cons_append, List.getD_cons_zero, List.getD_cons_succ,
      List.drop_succ_cons, List.drop_zero, Xmodem.dataSize, hdata, hhigh, hlow]

/-- A packet that comes as it was sent is taken for good if it is the next one. -/
theorem verify_ofBlock {k : ℕ} (hk : k + 1 < 2 ^ 31) (block : List Byte) :
    (ofBlock k block).verifyPacketChecksum (BitVec.ofNat 32 (k + 1)) = true := by
  have hsum : (BitVec.ofNat 8 (k + 1)).toNat + (~~~BitVec.ofNat 8 (k + 1)).toNat = 255 := by
    have hlt := (BitVec.ofNat 8 (k + 1)).isLt
    rw [BitVec.toNat_not]
    omega
  have hcrc : (crcCalc block).extractLsb' 8 8 ++ (crcCalc block).extractLsb' 0 8 = crcCalc block := by
    apply BitVec.eq_of_getLsbD_eq
    intro i hi
    rw [BitVec.getLsbD_append, BitVec.getLsbD_extractLsb', BitVec.getLsbD_extractLsb']
    by_cases hlow : i < 8
    · simp [hlow]
    · simp [hlow, show i - 8 < 8 by omega, show 8 + (i - 8) = i by omega]
  unfold verifyPacketChecksum ofBlock
  dsimp only
  rw [if_neg (not_not.2 hsum), if_neg, hcrc]
  · exact beq_self_eq_true _
  · rw [not_not, toInt_ofNat hk, Int.tmod_eq_emod_of_nonneg (Int.natCast_nonneg _), BitVec.toNat_ofNat]
    omega

/-- Two packets that differ in the last byte are not both taken for good. -/
theorem exists_refused (bytes : List Byte) (h : bytes.length = 131) (sequenceNumber : BitVec 32) :
    ∃ b, (ofBytes (bytes ++ [b])).verifyPacketChecksum sequenceNumber = false := by
  have hcrc : ∀ b, (ofBytes (bytes ++ [b])).verifyPacketChecksum sequenceNumber = true →
      crcCalc ((bytes.drop 2).take Xmodem.dataSize) = bytes.getD 130 0 ++ b := by
    intro b hb
    have hdata : ((bytes ++ [b]).drop 2).take Xmodem.dataSize = (bytes.drop 2).take Xmodem.dataSize := by
      rw [List.drop_append_of_le_length (by omega), List.take_append_of_le_length]
      rw [List.length_drop, Xmodem.dataSize]
      omega
    have hhigh : (bytes ++ [b]).getD 130 0 = bytes.getD 130 0 := List.getD_append _ _ _ _ (by omega)
    have hlow : (bytes ++ [b]).getD 131 0 = b := by
      rw [List.getD_append_right _ _ _ _ (by omega), h]
      rfl
    unfold verifyPacketChecksum at hb
    split at hb
    · exact absurd hb Bool.false_ne_true
    split at hb
    · exact absurd hb Bool.false_ne_true
    simp only [ofBytes, hdata, hhigh, hlow] at hb
    exact eq_of_beq hb
  by_contra hall
  rw [not_exists] at hall
  have h0 := hcrc 0 (Bool.of_not_eq_false (hall 0))
  have h1 := hcrc 1 (Bool.of_not_eq_false (hall 1))
  have hlast : (bytes.getD 130 0 ++ (0 : Byte)).getLsbD 0 = (bytes.getD 130 0 ++ (1 : Byte)).getLsbD 0 := by
    rw [← h0, ← h1]
  rw [BitVec.getLsbD_append, BitVec.getLsbD_append, if_pos (by decide), if_pos (by decide)] at hlast
  exact absurd hlast (by decide)

end XmodemPacket

/-- Where the packet with a number belongs. -/
theorem offset_eq (n : ℕ) : (BitVec.ofNat 32 (n + 1) - 1) * 128 = BitVec.ofNat 32 (128 * n) := by
  have hsub : BitVec.ofNat 32 (n + 1) - 1 = BitVec.ofNat 32 n := by
    rw [BitVec.ofNat_add]
    exact BitVec.add_sub_cancel _ _
  rw [hsub, Nat.mul_comm]
  exact (BitVec.ofNat_mul n 128).symm

namespace XmodemUpload

variable {μ : Type} {store : BitVec 32 → List Byte → μ → μ}

variable (store) in
/-- What a byte does. -/
theorem rxByte_cases (s : XmodemUpload μ) (b : Byte) :
    (s.packet = [] ∧ b = Xmodem.eot ∧ s.rxByte store b =
      ({ s with started := true, returned := some ((s.sequenceNumber - 1) * 128) }, [Xmodem.ack])) ∨
    (s.packet = [] ∧ b ≠ Xmodem.eot ∧ s.rxByte store b = ({ s with started := true, returned := some 0 }, [])) ∨
    (s.packet = [] ∧ b = Xmodem.soh ∧ s.rxByte store b = ({ s with started := true, packet := [b] }, [])) ∨
    (s.packet ≠ [] ∧ s.packet.length < Xmodem.packetSize ∧
      s.rxByte store b = ({ s with packet := s.packet ++ [b] }, [])) ∨
    (s.packet ≠ [] ∧ Xmodem.packetSize ≤ s.packet.length ∧
      (XmodemPacket.ofBytes (s.packet.drop 1 ++ [b])).verifyPacketChecksum s.sequenceNumber = true ∧
      s.rxByte store b =
        ({ s with
            memory := store s.sequenceNumber (XmodemPacket.ofBytes (s.packet.drop 1 ++ [b])).data s.memory
            sequenceNumber := s.sequenceNumber + 1
            packet := [] }, [Xmodem.ack])) ∨
    (s.packet ≠ [] ∧ Xmodem.packetSize ≤ s.packet.length ∧
      (XmodemPacket.ofBytes (s.packet.drop 1 ++ [b])).verifyPacketChecksum s.sequenceNumber = false ∧
      s.rxByte store b = ({ s with packet := [] }, [Xmodem.nak])) := by
  unfold rxByte
  by_cases hpacket : s.packet = []
  · rw [if_pos hpacket]
    by_cases heot : b = Xmodem.eot
    · exact Or.inl ⟨hpacket, heot, if_pos heot⟩
    rw [if_neg heot]
    by_cases hsoh : b = Xmodem.soh
    · exact Or.inr (Or.inr (Or.inl ⟨hpacket, hsoh, if_neg (not_not.2 hsoh)⟩))
    · exact Or.inr (Or.inl ⟨hpacket, heot, if_pos hsoh⟩)
  rw [if_neg hpacket]
  by_cases hlength : s.packet.length < Xmodem.packetSize
  · exact Or.inr (Or.inr (Or.inr (Or.inl ⟨hpacket, hlength, if_pos hlength⟩)))
  rw [if_neg hlength]
  have hfull := Nat.not_lt.1 hlength
  dsimp only
  rcases hverify : (XmodemPacket.ofBytes (s.packet.drop 1 ++ [b])).verifyPacketChecksum s.sequenceNumber with _ | _
  · exact Or.inr (Or.inr (Or.inr (Or.inr (Or.inr ⟨hpacket, hfull, rfl, if_neg Bool.false_ne_true⟩))))
  · exact Or.inr (Or.inr (Or.inr (Or.inr (Or.inl ⟨hpacket, hfull, rfl, if_pos rfl⟩))))

end XmodemUpload

namespace XmodemLine

open Runs

variable {μ : Type} {store : BitVec 32 → List Byte → μ → μ} {blocks : List (List Byte)} {memory : μ}
  {s t : XmodemLine μ} {e : XmodemEvent} {n : ℕ}

/-! ## Nothing is lost and nothing is stored twice -/

/-- The first `n` blocks have been stored, and the sender has been told so, or is going to be, of all
of them but the last. -/
structure Progress (store : BitVec 32 → List Byte → μ → μ) (blocks : List (List Byte)) (memory : μ)
    (s : XmodemLine μ) (n : ℕ) : Prop where
  le : n ≤ blocks.length
  number : s.upload.sequenceNumber = BitVec.ofNat 32 (n + 1)
  memory : s.upload.memory = stored store blocks memory n
  packet : s.upload.packet.length ≤ Xmodem.packetSize
  acks : s.upload.returned = none → s.heard + s.replies.count Xmodem.ack ≤ n ∧ n ≤ s.heard + 1
  returned : ∀ len, s.upload.returned = some len →
    len = 0 ∨ n = blocks.length ∧ len = BitVec.ofNat 32 (128 * blocks.length)

variable (store blocks memory) in
theorem progress_init : Progress store blocks memory (init memory) 0 where
  le := Nat.zero_le _
  number := rfl
  memory := rfl
  packet := Nat.zero_le _
  acks _ := ⟨le_rfl, Nat.zero_le _⟩
  returned _ h := absurd h (by simp [init, XmodemUpload.init])

/-- Events other than bytes for the bootloader: none of them makes an acknowledgement. -/
theorem step_other (hs : step store s e = some t) (he : ∀ b, e ≠ .byte b) :
    t.upload = s.upload ∧ s.heard ≤ t.heard ∧
      t.heard + t.replies.count Xmodem.ack ≤ s.heard + s.replies.count Xmodem.ack := by
  cases e with
  | silence =>
    unfold step at hs
    dsimp only at hs
    split at hs
    · exact absurd hs (by simp)
    · obtain rfl := Option.some.inj hs
      refine ⟨rfl, le_rfl, ?_⟩
      rw [List.count_append]
      exact le_rfl
  | byte b => exact absurd rfl (he b)
  | reply =>
    unfold step at hs
    dsimp only at hs
    split at hs
    · exact absurd hs (by simp)
    · rename_i b replies hreplies
      obtain rfl := Option.some.inj hs
      dsimp only
      rw [hreplies, List.count_cons]
      by_cases hb : b = Xmodem.ack
      · simp [hb]; omega
      · simp [hb]
  | lose =>
    unfold step at hs
    dsimp only at hs
    split at hs
    · exact absurd hs (by simp)
    · rename_i b replies hreplies
      obtain rfl := Option.some.inj hs
      refine ⟨rfl, le_rfl, ?_⟩
      dsimp only
      rw [hreplies, List.count_cons]
      omega

/-- A byte for the bootloader. -/
theorem step_byte {b : Byte} (hs : step store s (.byte b) = some t) : s.upload.returned = none ∧
    t = { s with upload := (s.upload.rxByte store b).1, replies := s.replies ++ (s.upload.rxByte store b).2 } := by
  unfold step at hs
  dsimp only at hs
  split at hs
  · exact absurd hs (by simp)
  · rename_i hnone
    exact ⟨not_not.1 hnone, (Option.some.inj hs).symm⟩

/-- A packet that is taken for good is the next block, and the sender has heard of all before it. -/
theorem Progress.next {b : Byte} (hlong : 128 * blocks.length < 2 ^ 32) (h : Progress store blocks memory s n)
    (hnone : s.upload.returned = none) (hok : Detected blocks s (.byte b)) (htakes : s.Takes b) :
    n = s.heard ∧ n < blocks.length ∧
      blocks.getD n [] = (XmodemPacket.ofBytes (s.upload.packet.drop 1 ++ [b])).data := by
  obtain ⟨k, hk, hrecent, hblock, hnumber⟩ := hok.1 htakes
  have hlt := (List.getElem?_eq_some_iff.1 hblock).1
  obtain ⟨hacks, hahead⟩ := h.acks hnone
  have hverify := htakes.2
  have hle := h.le
  rw [h.number] at hverify
  have hmod := XmodemPacket.packetNumber_of_verify (by omega) hverify
  rw [hnumber, BitVec.toNat_ofNat] at hmod
  obtain rfl : k = n := by omega
  refine ⟨by omega, hlt, ?_⟩
  rw [List.getD_eq_getElem?_getD, hblock]
  rfl

theorem Progress.byte {b : Byte} (hlong : 128 * blocks.length < 2 ^ 32) (h : Progress store blocks memory s n)
    (hok : Detected blocks s (.byte b)) (hs : step store s (.byte b) = some t) :
    (Progress store blocks memory t n ∧ t.heard = s.heard ∧
      (t.upload.returned = none ∧ t.replies.count Xmodem.ack = s.replies.count Xmodem.ack ∨
        t.upload.returned = some 0 ∨ n ≤ s.heard)) ∨
      (n = s.heard ∧ Progress store blocks memory t (n + 1)) := by
  obtain ⟨hnone, rfl⟩ := step_byte hs
  have hacks := h.acks hnone
  rcases s.upload.rxByte_cases store b with ⟨hpacket, hb, heq⟩ | ⟨hpacket, -, heq⟩ | ⟨hpacket, -, heq⟩ |
    ⟨hpacket, hlength, heq⟩ | ⟨-, hlength, hverify, heq⟩ | ⟨-, -, -, heq⟩
  · -- the end of the transfer
    have hall := hok.2 hpacket hb
    have hle := h.le
    have hn : n = blocks.length := by omega
    rw [heq]
    refine Or.inl ⟨⟨h.le, h.number, h.memory, h.packet, fun hret => absurd hret (by simp), ?_⟩, rfl,
      Or.inr (Or.inr (by omega))⟩
    intro len hlen
    refine Or.inr ⟨hn, ?_⟩
    rw [← Option.some.inj hlen, h.number, ← hn, offset_eq]
  · rw [heq]
    exact Or.inl ⟨⟨h.le, h.number, h.memory, h.packet, fun hret => absurd hret (by simp),
      fun len hlen => Or.inl (Option.some.inj hlen).symm⟩, rfl, Or.inr (Or.inl rfl)⟩
  · rw [heq]
    rw [List.append_nil]
    exact Or.inl ⟨⟨h.le, h.number, h.memory, by simp [Xmodem.packetSize], h.acks, h.returned⟩, rfl,
      Or.inl ⟨hnone, rfl⟩⟩
  · rw [heq]
    rw [List.append_nil]
    exact Or.inl ⟨⟨h.le, h.number, h.memory, by simpa using hlength, h.acks, h.returned⟩, rfl,
      Or.inl ⟨hnone, rfl⟩⟩
  · -- the next block
    have htakes : s.Takes b := ⟨Nat.le_antisymm h.packet hlength, hverify⟩
    obtain ⟨hheard, hlt, hdata⟩ := h.next hlong hnone hok htakes
    rw [heq]
    refine Or.inr ⟨hheard, hlt, ?_, ?_, Nat.zero_le _, ?_, ?_⟩
    · rw [h.number]
      exact (BitVec.ofNat_add (n + 1) 1).symm
    · rw [stored, hdata, h.number, h.memory]
    · intro _
      dsimp only
      rw [List.count_append]
      exact ⟨by simp [Xmodem.ack] at hacks ⊢; omega, by omega⟩
    · intro len hlen
      exact absurd hlen (by simp [hnone])
  · rw [heq]
    have hcount : (s.replies ++ [Xmodem.nak]).count Xmodem.ack = s.replies.count Xmodem.ack := by
      rw [List.count_append]
      rfl
    refine Or.inl ⟨⟨h.le, h.number, h.memory, Nat.zero_le _, ?_, h.returned⟩, rfl, Or.inl ⟨hnone, hcount⟩⟩
    intro _
    dsimp only
    rw [hcount]
    exact hacks

theorem Progress.other (h : Progress store blocks memory s n) (hs : step store s e = some t)
    (he : ∀ b, e ≠ .byte b) : Progress store blocks memory t n := by
  obtain ⟨hupload, hheard, hacks⟩ := step_other hs he
  refine ⟨h.le, by rw [hupload]; exact h.number, by rw [hupload]; exact h.memory,
    by rw [hupload]; exact h.packet, ?_, by rw [hupload]; exact h.returned⟩
  intro hnone
  rw [hupload] at hnone
  have hbefore := h.acks hnone
  omega

/-- **One event.** -/
theorem progress_step (hlong : 128 * blocks.length < 2 ^ 32) (h : Progress store blocks memory s n)
    (hok : Detected blocks s e) (hs : step store s e = some t) :
    Progress store blocks memory t n ∨ Progress store blocks memory t (n + 1) := by
  by_cases he : ∃ b, e = .byte b
  · obtain ⟨b, rfl⟩ := he
    rcases h.byte hlong hok hs with ⟨h', -, -⟩ | ⟨-, h'⟩
    · exact Or.inl h'
    · exact Or.inr h'
  · exact Or.inl (h.other hs fun b hb => he ⟨b, hb⟩)

theorem progress_of_run (hlong : 128 * blocks.length < 2 ^ 32) {es : List XmodemEvent}
    (h : Run (step store) (Detected blocks) (init memory) es s) : ∃ n, Progress store blocks memory s n := by
  refine h.inv (I := fun s => ∃ n, Progress store blocks memory s n) ⟨0, progress_init store blocks memory⟩ ?_
  rintro s e t ⟨n, hn⟩ hok hs
  rcases progress_step hlong hn hok hs with h' | h'
  · exact ⟨n, h'⟩
  · exact ⟨n + 1, h'⟩

/-- **Transfers.** At any time the blocks that have been stored are the first ones, each of them once
and in order. A transfer that has ended has brought all of them, or has been cancelled. -/
theorem transferred (hlong : 128 * blocks.length < 2 ^ 32) {es : List XmodemEvent}
    (h : Run (step store) (Detected blocks) (init memory) es s) :
    (∃ n ≤ blocks.length, s.upload.memory = stored store blocks memory n) ∧
      ∀ len, s.upload.returned = some len → len = 0 ∨
        len = BitVec.ofNat 32 (128 * blocks.length) ∧ s.upload.memory = stored store blocks memory blocks.length := by
  obtain ⟨n, hn⟩ := progress_of_run hlong h
  refine ⟨⟨n, hn.le, hn.memory⟩, ?_⟩
  intro len hlen
  rcases hn.returned len hlen with hzero | ⟨hall, hlen'⟩
  · exact Or.inl hzero
  · exact Or.inr ⟨hlen', hall ▸ hn.memory⟩

/-! ## What is lost for good -/

variable (store) in
/-- A byte for the bootloader is an event while the transfer goes on. -/
theorem step_byte_eq (hnone : s.upload.returned = none) (b : Byte) : step store s (.byte b) =
    some { s with upload := (s.upload.rxByte store b).1, replies := s.replies ++ (s.upload.rxByte store b).2 } :=
  if_neg (not_not.2 hnone)

variable (store blocks) in
/-- Bytes in the middle of a packet are kept. -/
theorem exists_fill (bs : List Byte) (hnone : s.upload.returned = none) (hpacket : s.upload.packet ≠ [])
    (hlength : s.upload.packet.length + bs.length ≤ Xmodem.packetSize) :
    Run (step store) (Detected blocks) s (bs.map .byte)
      { s with upload := { s.upload with packet := s.upload.packet ++ bs } } := by
  induction bs generalizing s with
  | nil =>
    rw [List.append_nil]
    exact .nil
  | cons b bs ih =>
    rw [List.length_cons] at hlength
    have hlt : s.upload.packet.length < Xmodem.packetSize := by omega
    have hbyte : s.upload.rxByte store b = ({ s.upload with packet := s.upload.packet ++ [b] }, []) := by
      rw [XmodemUpload.rxByte, if_neg hpacket, if_pos hlt]
    have hstep := step_byte_eq store hnone b
    rw [hbyte, List.append_nil] at hstep
    have hok : Detected blocks s (.byte b) :=
      ⟨fun htakes => absurd htakes.1 (by omega), fun hempty => absurd hempty hpacket⟩
    have hrun := ih (s := { s with upload := { s.upload with packet := s.upload.packet ++ [b] } }) hnone
      (by simp) (by rw [List.length_append, List.length_singleton]; omega)
    rw [List.append_assoc, List.singleton_append] at hrun
    exact Run.cons hok hstep hrun

variable (store blocks) in
/-- The packet that is under way ends. -/
theorem exists_idle (hnone : s.upload.returned = none) (hlength : s.upload.packet.length ≤ Xmodem.packetSize) :
    ∃ es t, Run (step store) (Detected blocks) s es t ∧ t.upload = { s.upload with packet := [] } ∧
      t.heard = s.heard ∧ t.replies.count Xmodem.ack = s.replies.count Xmodem.ack := by
  by_cases hpacket : s.upload.packet = []
  · refine ⟨[], s, .nil, ?_, rfl, rfl⟩
    rw [← hpacket]
  -- it is filled up, and its checksum is wrong
  set bs := List.replicate (Xmodem.packetSize - s.upload.packet.length) (0 : Byte)
  have hfull : (s.upload.packet ++ bs).length = Xmodem.packetSize := by
    rw [List.length_append, List.length_replicate]
    omega
  have hfill := exists_fill store blocks bs hnone hpacket (by
    rw [List.length_append] at hfull
    exact le_of_eq hfull)
  obtain ⟨b, hb⟩ := XmodemPacket.exists_refused ((s.upload.packet ++ bs).drop 1)
    (by rw [List.length_drop, hfull]; rfl) s.upload.sequenceNumber
  set t : XmodemLine μ := { s with upload := { s.upload with packet := s.upload.packet ++ bs } }
  have hne : s.upload.packet ++ bs ≠ [] := by simp [hpacket]
  have hbyte : t.upload.rxByte store b = ({ s.upload with packet := [] }, [Xmodem.nak]) := by
    rw [XmodemUpload.rxByte, if_neg hne, if_neg (not_lt.2 (le_of_eq hfull.symm))]
    exact if_neg (by rw [hb]; exact Bool.false_ne_true)
  have hstep := step_byte_eq store (s := t) hnone b
  rw [hbyte] at hstep
  have hok : Detected blocks t (.byte b) :=
    ⟨fun htakes => absurd (hb.symm.trans htakes.2) Bool.false_ne_true, fun hempty => absurd hempty hne⟩
  refine ⟨_, _, .snoc hfill hok hstep, rfl, rfl, ?_⟩
  rw [List.count_append]
  rfl

variable (store blocks) in
/-- The sender gets all bytes that are under way to it. -/
theorem exists_drained (replies : List Byte) (hreplies : s.replies = replies) :
    ∃ es, Run (step store) (Detected blocks) s es
      { s with heard := s.heard + replies.count Xmodem.ack, replies := [] } := by
  induction replies generalizing s with
  | nil =>
    refine ⟨[], ?_⟩
    rw [List.count_nil, Nat.add_zero, ← hreplies]
    exact .nil
  | cons b replies ih =>
    have hstep : step store s .reply =
        some { s with heard := if b = Xmodem.ack then s.heard + 1 else s.heard, replies } := by
      unfold step
      dsimp only
      rw [hreplies]
    obtain ⟨es, hrun⟩ := ih (s := { s with heard := if b = Xmodem.ack then s.heard + 1 else s.heard, replies }) rfl
    refine ⟨.reply :: es, Run.cons trivial hstep ?_⟩
    convert hrun using 2
    rw [List.count_cons]
    by_cases hb : b = Xmodem.ack
    · simp [hb]
      omega
    · simp [hb]

/-- The sender has heard of the first `n` blocks, and nothing is under way. -/
structure Ready (n : ℕ) (s : XmodemLine μ) : Prop where
  returned : s.upload.returned = none
  packet : s.upload.packet = []
  number : s.upload.sequenceNumber = BitVec.ofNat 32 (n + 1)
  heard : s.heard = n
  replies : s.replies = []

theorem Progress.exists_ready (h : Progress store blocks memory s n) (hnone : s.upload.returned = none)
    (hacks : s.heard + s.replies.count Xmodem.ack = n) :
    ∃ es t, Run (step store) (Detected blocks) s es t ∧ Ready n t := by
  obtain ⟨es, t, hidle, hupload, hheard, hcount⟩ := exists_idle store blocks hnone h.packet
  obtain ⟨es', hdrained⟩ := exists_drained store blocks t.replies rfl
  refine ⟨es ++ es', _, hidle.trans hdrained, ?_, ?_, ?_, ?_, rfl⟩
  · rw [hupload]
    exact hnone
  · rw [hupload]
  · rw [hupload]
    exact h.number
  · dsimp only
    rw [hheard, hcount, hacks]

variable (store) in
/-- **The next block** over a line without errors. -/
theorem Ready.exists_next (h : Ready n s) (hlong : 128 * blocks.length < 2 ^ 32)
    (hblocks : ∀ block ∈ blocks, block.length = 128) (hn : n < blocks.length) :
    ∃ es t, Run (step store) (Detected blocks) s es t ∧ Ready (n + 1) t := by
  set block := blocks[n]
  have hblock : block.length = 128 := hblocks _ (List.getElem_mem hn)
  set pkt := XmodemPacket.ofBlock n block
  -- its header
  have hstart : s.upload.rxByte store Xmodem.soh =
      ({ s.upload with started := true, packet := [Xmodem.soh] }, []) := by
    rw [XmodemUpload.rxByte, if_pos h.packet, if_neg (by decide), if_neg (by decide)]
  have hstep := step_byte_eq store h.returned Xmodem.soh
  rw [hstart, List.append_nil] at hstep
  have hok : Detected blocks s (.byte Xmodem.soh) := by
    refine ⟨fun htakes => ?_, fun _ heot => absurd heot (by decide)⟩
    have hlength := htakes.1
    rw [h.packet] at hlength
    exact absurd hlength (by decide)
  set s₁ : XmodemLine μ := { s with upload := { s.upload with started := true, packet := [Xmodem.soh] } }
  -- the bytes up to the last one
  have hbytes : pkt.bytes.length = 131 := by
    simp [XmodemPacket.bytes, pkt, XmodemPacket.ofBlock, hblock]
  have hfill := exists_fill store blocks (s := s₁) pkt.bytes h.returned
    (List.cons_ne_nil _ _) (by rw [hbytes]; rfl)
  set s₂ : XmodemLine μ := { s₁ with upload := { s₁.upload with packet := Xmodem.soh :: pkt.bytes } }
  have hfull : s₂.upload.packet.length = Xmodem.packetSize := by
    show pkt.bytes.length + 1 = 132
    rw [hbytes]
  have hpkt : XmodemPacket.ofBytes (s₂.upload.packet.drop 1 ++ [pkt.crcLow]) = pkt :=
    XmodemPacket.ofBytes_bytes pkt hblock
  have hverify : pkt.verifyPacketChecksum s.upload.sequenceNumber = true := by
    rw [h.number]
    exact XmodemPacket.verify_ofBlock (by omega) block
  -- the last byte
  have hlast : s₂.upload.rxByte store pkt.crcLow =
      ({ s₂.upload with
          memory := store s.upload.sequenceNumber pkt.data s.upload.memory
          sequenceNumber := s.upload.sequenceNumber + 1
          packet := [] }, [Xmodem.ack]) := by
    rw [XmodemUpload.rxByte, if_neg (List.cons_ne_nil _ _), if_neg (not_lt.2 (le_of_eq hfull.symm))]
    dsimp only
    rw [hpkt]
    exact if_pos hverify
  have hstep₂ := step_byte_eq store (s := s₂) h.returned pkt.crcLow
  rw [hlast] at hstep₂
  have hok₂ : Detected blocks s₂ (.byte pkt.crcLow) := by
    refine ⟨fun _ => ⟨n, le_of_eq h.heard.symm, ?_, ?_, ?_⟩, fun hempty => absurd hempty (List.cons_ne_nil _ _)⟩
    · show s.heard + 1 < n + 256
      rw [h.heard]
      omega
    · rw [hpkt]
      exact List.getElem?_eq_getElem hn
    · rw [hpkt]
      rfl
  -- and the acknowledgement
  obtain ⟨es, hdrained⟩ := exists_drained store blocks (s := { s₂ with
    upload := { s₂.upload with
      memory := store s.upload.sequenceNumber pkt.data s.upload.memory
      sequenceNumber := s.upload.sequenceNumber + 1
      packet := [] }
    replies := s₂.replies ++ [Xmodem.ack] }) _ rfl
  refine ⟨_, _, Run.cons hok hstep ((hfill.snoc hok₂ hstep₂).trans hdrained), h.returned, rfl, ?_, ?_, rfl⟩
  · dsimp only
    rw [h.number]
    exact (BitVec.ofNat_add (n + 1) 1).symm
  · show s.heard + (s.replies ++ [Xmodem.ack]).count Xmodem.ack = n + 1
    rw [h.heard, h.replies]
    rfl

theorem Ready.exists_end (hlong : 128 * blocks.length < 2 ^ 32)
    (hblocks : ∀ block ∈ blocks, block.length = 128) (m : ℕ) (h : Ready n s) (hm : n + m = blocks.length) :
    ∃ es t, Run (step store) (Detected blocks) s es t ∧
      t.upload.returned = some (BitVec.ofNat 32 (128 * blocks.length)) := by
  induction m generalizing s n with
  | zero =>
    have hend : s.upload.rxByte store Xmodem.eot =
        ({ s.upload with started := true, returned := some ((s.upload.sequenceNumber - 1) * 128) }, [Xmodem.ack]) := by
      rw [XmodemUpload.rxByte, if_pos h.packet, if_pos rfl]
    have hstep := step_byte_eq store h.returned Xmodem.eot
    rw [hend] at hstep
    have hok : Detected blocks s (.byte Xmodem.eot) := by
      refine ⟨fun htakes => ?_, fun _ _ => by rw [h.heard]; omega⟩
      have hlength := htakes.1
      rw [h.packet] at hlength
      exact absurd hlength (by decide)
    refine ⟨_, _, Run.nil.snoc hok hstep, ?_⟩
    dsimp only
    rw [h.number, offset_eq, ← hm, Nat.add_zero]
  | succ m ih =>
    obtain ⟨es, t, hrun, hready⟩ := h.exists_next store hlong hblocks (by omega)
    obtain ⟨es', u, hrun', hend⟩ := ih hready (by omega)
    exact ⟨es ++ es', u, hrun.trans hrun', hend⟩

/-- The bootloader has a block that the sender is never told of, or has given up. -/
def Lost (store : BitVec 32 → List Byte → μ → μ) (blocks : List (List Byte)) (memory : μ) (n : ℕ)
    (s : XmodemLine μ) : Prop :=
  Progress store blocks memory s n ∧
    (s.upload.returned = none ∧ s.heard + s.replies.count Xmodem.ack < n ∨ s.upload.returned = some 0)

/-- The sender repeats that block, the bootloader refuses it. -/
theorem lost_step (hlong : 128 * blocks.length < 2 ^ 32) (h : Lost store blocks memory n s)
    (hok : Detected blocks s e) (hs : step store s e = some t) : Lost store blocks memory n t := by
  obtain ⟨hprogress, hlost⟩ := h
  by_cases he : ∃ b, e = .byte b
  · obtain ⟨b, rfl⟩ := he
    have hnone := (step_byte hs).1
    have hless : s.heard + s.replies.count Xmodem.ack < n := by
      rcases hlost with ⟨-, hless⟩ | hret
      · exact hless
      · exact absurd (hnone.symm.trans hret) (by simp)
    rcases hprogress.byte hlong hok hs with ⟨h', hheard, ⟨hnone', hcount⟩ | hret | hle⟩ | ⟨heq, -⟩
    · exact ⟨h', Or.inl ⟨hnone', by omega⟩⟩
    · exact ⟨h', Or.inr hret⟩
    · omega
    · omega
  · have hother : ∀ b, e ≠ .byte b := fun b hb => he ⟨b, hb⟩
    obtain ⟨hupload, -, hacks⟩ := step_other hs hother
    refine ⟨hprogress.other hs hother, ?_⟩
    rw [hupload]
    exact hlost.imp (fun hnone => ⟨hnone.1, by omega⟩) id

/-- **A transfer can still end with all blocks exactly when no acknowledgement has been lost.** -/
theorem can_end_iff (hlong : 128 * blocks.length < 2 ^ 32) (hblocks : ∀ block ∈ blocks, block.length = 128)
    {es : List XmodemEvent} (h : Run (step store) (Detected blocks) (init memory) es s)
    (hnone : s.upload.returned = none) :
    (∃ es' t, Run (step store) (Detected blocks) s es' t ∧
      t.upload.returned = some (BitVec.ofNat 32 (128 * blocks.length)) ∧
      t.upload.memory = stored store blocks memory blocks.length) ↔
    s.upload.sequenceNumber = BitVec.ofNat 32 (s.heard + s.replies.count Xmodem.ack + 1) := by
  obtain ⟨n, hn⟩ := progress_of_run hlong h
  have hacks := hn.acks hnone
  have hle := hn.le
  constructor
  · rintro ⟨es', t, hrun, hend, -⟩
    by_cases hall : s.heard + s.replies.count Xmodem.ack = n
    · rw [hall]
      exact hn.number
    · have hlost : Lost store blocks memory n s := ⟨hn, Or.inl ⟨hnone, by omega⟩⟩
      obtain ⟨-, ⟨hnone', -⟩ | hzero⟩ := hrun.inv hlost fun s e t hs hok hstep => lost_step hlong hs hok hstep
      · exact absurd (hnone'.symm.trans hend) (by simp)
      · have hlength := congrArg BitVec.toNat (Option.some.inj (hzero.symm.trans hend))
        rw [BitVec.toNat_ofNat, Nat.mod_eq_of_lt hlong] at hlength
        change 0 = 128 * blocks.length at hlength
        omega
  · intro hnumber
    have hall : s.heard + s.replies.count Xmodem.ack = n := by
      have heq := congrArg BitVec.toNat (hn.number.symm.trans hnumber)
      rw [BitVec.toNat_ofNat, BitVec.toNat_ofNat, Nat.mod_eq_of_lt (by omega), Nat.mod_eq_of_lt (by omega)] at heq
      omega
    obtain ⟨es₁, s₁, hrun₁, hready⟩ := hn.exists_ready hnone hall
    obtain ⟨es₂, t, hrun₂, hend⟩ := hready.exists_end hlong hblocks (blocks.length - n) (by omega)
    refine ⟨es₁ ++ es₂, t, hrun₁.trans hrun₂, hend, ?_⟩
    obtain ⟨m, hm⟩ := progress_of_run hlong (h.trans (hrun₁.trans hrun₂))
    rcases hm.returned _ hend with hzero | ⟨hm', -⟩
    · -- there is no block at all
      have hlength := congrArg BitVec.toNat hzero
      rw [BitVec.toNat_ofNat, Nat.mod_eq_of_lt hlong] at hlength
      change 128 * blocks.length = 0 at hlength
      have hmle := hm.le
      rw [hm.memory, show m = blocks.length by omega]
    · rw [hm.memory, hm']

/-- Two blocks, each of one byte value. -/
def twoBlocks : List (List Byte) := [List.replicate 128 0x5A, List.replicate 128 0xC3]

theorem length_twoBlocks : ∀ block ∈ twoBlocks, block.length = 128 := by simp [twoBlocks]

/-- Once the first of two blocks has been acknowledged. -/
theorem can_end_twoBlocks : ∃ es s,
    Run (step Eeprom.storePacket) (Detected twoBlocks) (init fun _ => 0xFF) es s ∧ s.heard = 1 ∧
    ∃ es' t, Run (step Eeprom.storePacket) (Detected twoBlocks) s es' t ∧
      t.upload.returned = some (BitVec.ofNat 32 (128 * twoBlocks.length)) ∧
      t.upload.memory = stored Eeprom.storePacket twoBlocks (fun _ => 0xFF) twoBlocks.length := by
  obtain ⟨es₁, s₁, hrun₁, hready₁⟩ :=
    (progress_init Eeprom.storePacket twoBlocks fun _ => 0xFF).exists_ready rfl rfl
  obtain ⟨es₂, s, hrun₂, hready⟩ :=
    hready₁.exists_next Eeprom.storePacket (by decide) length_twoBlocks (by decide)
  have hrun := hrun₁.trans hrun₂
  refine ⟨_, s, hrun, hready.heard, (can_end_iff (by decide) length_twoBlocks hrun hready.returned).2 ?_⟩
  rw [hready.number, hready.heard, hready.replies]
  rfl

variable (store blocks memory) in
/-- A transfer that goes through. -/
theorem exists_transfer (hlong : 128 * blocks.length < 2 ^ 32) (hblocks : ∀ block ∈ blocks, block.length = 128) :
    ∃ es t, Run (step store) (Detected blocks) (init memory) es t ∧
      t.upload.returned = some (BitVec.ofNat 32 (128 * blocks.length)) := by
  obtain ⟨es₁, s, hrun₁, hready⟩ := (progress_init store blocks memory).exists_ready rfl rfl
  obtain ⟨es₂, t, hrun₂, hend⟩ := hready.exists_end hlong hblocks blocks.length (Nat.zero_add _)
  exact ⟨es₁ ++ es₂, t, hrun₁.trans hrun₂, hend⟩

end XmodemLine

/-! ## A program for a slot -/

namespace ProgramEntry

open UploadSoftware

variable {index : Byte} {answers : FlashAnswers} {blocks : List (List Byte)} {d : FlashDriver} {n : ℕ}

/-- A slot that is erased but for the first `n` blocks. -/
structure Brought (blocks : List (List Byte)) (index : Byte) (n : ℕ) (flash : Flash) : Prop where
  header : ∀ k < 1024, flash (inFlashOffset index + k) = 0xFF
  content : ∀ k, 1024 + k < size → flash (inFlashOffset index + (1024 + k)) =
    if k < 128 * n then blocks.flatten.getD k 0 else 0xFF

theorem brought_erased (h : ∀ a ∈ slot index, d.flash a = 0xFF) : Brought blocks index 0 d.flash where
  header k hk := h _ (mem_slot (by rw [size]; omega))
  content k hk := by rw [h _ (mem_slot hk), if_neg (by omega)]

/-- The call for a block. -/
theorem contentCall_block (hsize : 128 * n ≤ size - 1024) (data : List Byte) :
    contentCall index ((BitVec.ofNat 32 (n + 1) - 1) * 128).toNat data =
      .program (inFlashOffset index + 1024 + 128 * n) data := by
  have hoffset : ((BitVec.ofNat 32 (n + 1) - 1) * 128).toNat = 128 * n := by
    rw [offset_eq, BitVec.toNat_ofNat]
    exact Nat.mod_eq_of_lt (by rw [size] at hsize; omega)
  rw [contentCall, programSpan, hoffset, program_spanAt index le_rfl (by omega)]

/-- **The next block.** -/
theorem Brought.next (h : Brought blocks index n d.flash) (hworks : Works answers)
    (hblocks : ∀ block ∈ blocks, block.length = 128) (hn : n < blocks.length)
    (hsize : 128 * blocks.length ≤ size - 1024) :
    let d' := storePacket index answers (BitVec.ofNat 32 (n + 1)) (blocks.getD n []) d
    Brought blocks index (n + 1) d'.flash ∧ ∀ a ∉ slot index, d'.flash a = d.flash a := by
  have hlength : (blocks.getD n []).length = 128 := by
    rw [List.getD_eq_getElem _ _ hn]
    exact hblocks _ (List.getElem_mem hn)
  have hfits := @fits index (1024 + 128 * n) 128 (by omega)
  have hflash : ∀ a, (storePacket index answers (BitVec.ofNat 32 (n + 1)) (blocks.getD n []) d).flash a =
      d.flash.program (inFlashOffset index + 1024 + 128 * n) (blocks.getD n []) a := by
    intro a
    rw [storePacket, writeContent, contentCall_block (by omega)]
    exact congrFun (FlashCall.effect_program (hworks _) (by omega)) a
  refine ⟨⟨?_, ?_⟩, ?_⟩
  · intro k hk
    rw [hflash, Flash.program, if_neg (by omega)]
    exact h.header k hk
  · intro k hk
    rw [hflash, Flash.program, h.content k hk, hlength]
    by_cases hnew : 128 * n ≤ k ∧ k < 128 * (n + 1)
    · have hget := Chunks.getD_flatten hblocks n (show k - 128 * n < 128 by omega) 0
      rw [Nat.add_sub_cancel' hnew.1] at hget
      have hindex : inFlashOffset index + (1024 + k) - (inFlashOffset index + 1024 + 128 * n) = k - 128 * n := by
        omega
      rw [if_pos (by omega), if_neg (by omega), if_pos hnew.2, hindex, hget]
      exact BitVec.allOnes_and
    · rw [if_neg (by omega)]
      exact if_congr (by omega) rfl rfl
  · intro a ha
    rw [hflash, Flash.program, if_neg]
    intro hin
    exact ha ⟨by omega, by omega⟩

theorem brought_stored (herased : ∀ a ∈ slot index, d.flash a = 0xFF) (hworks : Works answers)
    (hblocks : ∀ block ∈ blocks, block.length = 128) (hsize : 128 * blocks.length ≤ size - 1024)
    (hn : n ≤ blocks.length) :
    Brought blocks index n (XmodemLine.stored (storePacket index answers) blocks d n).flash ∧
      ∀ a ∉ slot index, (XmodemLine.stored (storePacket index answers) blocks d n).flash a = d.flash a := by
  induction n with
  | zero => exact ⟨brought_erased herased, fun _ _ => rfl⟩
  | succ n ih =>
    obtain ⟨hbrought, hothers⟩ := ih (by omega)
    obtain ⟨hbrought', hothers'⟩ := hbrought.next hworks hblocks hn hsize
    exact ⟨hbrought', fun a ha => (hothers' a ha).trans (hothers a ha)⟩

/-! ### The end of an upload -/

theorem bootSetValid_bottom (hindex : index.toNat < 6) : bootSetValid false index = markCall index := by
  have hoffset : ∀ i < 6, (bootOffsetValid false (BitVec.ofNat 8 i)).toNat = i * size + 64 := by decide
  have h := hoffset index.toNat hindex
  rw [BitVec.ofNat_toNat, BitVec.setWidth_eq] at h
  rw [bootSetValid, markCall_eq, h, inFlashOffset]

/-- On a top boot device the mark is for the slot before this one. -/
theorem bootSetValid_top (hindex : index.toNat < 6) :
    ∀ a ∈ slot index, ¬ (bootSetValid true index).Touches a := by
  have hoffset : ∀ i < 6, (bootOffsetValid true (BitVec.ofNat 8 i)).toNat + size =
      (if i = 0 then 2 ^ 32 else i * size) + 64 := by decide
  have h := hoffset index.toNat hindex
  rw [BitVec.ofNat_toNat, BitVec.setWidth_eq] at h
  intro a ha
  rw [slot, Set.mem_Ico, inFlashOffset] at ha
  rw [size] at h ha
  rw [bootSetValid, FlashCall.touches_iff (by split at h <;> simp [FlashCall.area] <;> omega)]
  simp only [FlashCall.area, List.length_singleton]
  split at h <;> omega

/-- The mark changes one byte of the slot, or none. -/
theorem mark_flash (hindex : index.toNat < 6) (topBoot : Bool) (d : FlashDriver) :
    ∀ a ∈ slot index, a ≠ inFlashOffset index + 64 →
      (d.perform answers (bootSetValid topBoot index)).2.flash a = d.flash a := by
  intro a ha hne
  cases topBoot with
  | true => exact FlashCall.effect_of_not_touches (bootSetValid_top hindex a ha)
  | false =>
    rw [bootSetValid_bottom hindex]
    exact (markAsValid_confined index).flash a fun hin => hne (by have := hin.1; have := hin.2; omega)

/-- The mark of a bottom boot device is in the slot. -/
theorem mark_others (hindex : index.toNat < 6) :
    ∀ a ∉ slot index, (d.perform answers (bootSetValid false index)).2.flash a = d.flash a := by
  intro a ha
  rw [bootSetValid_bottom hindex]
  exact (markAsValid_confined index).flash a fun hin =>
    ha (Set.Ico_subset_Ico (by omega) (by rw [size]; omega) hin)

/-- **The marker** of an erased header. -/
theorem isValid_mark (hindex : index.toNat < 6) (hworks : Works answers) (topBoot : Bool)
    (herased : d.flash (inFlashOffset index + 64) = 0xFF) :
    isValid (d.perform answers (bootSetValid topBoot index)).2.flash index = !topBoot := by
  cases topBoot with
  | true =>
    have hflash : (d.perform answers (bootSetValid true index)).2.flash (inFlashOffset index + 64) =
        d.flash (inFlashOffset index + 64) :=
      FlashCall.effect_of_not_touches (bootSetValid_top hindex _ (mem_slot (by decide)))
    rw [isValid, hflash, herased]
    rfl
  | false =>
    have hcall : bootSetValid false index = .program (inFlashOffset index + 64) [0xAA] := by
      rw [bootSetValid_bottom hindex, markCall_eq]
    have hbyte := @perform_program d answers _ 1 [0xAA] (hworks _) rfl (@fits index 64 1 (by decide)) 0 Nat.one_pos
    rw [← hcall, Nat.add_zero, herased] at hbyte
    rw [isValid, hbyte]
    rfl

/-- **The end of an upload** into an erased header. -/
theorem finishUpload_spec (hindex : index.toNat < 6) (hworks : Works answers) (topBoot : Bool) {len : BitVec 32}
    (hlen : len.toNat ≤ size - 1024) (herased : ∀ k < 1024, d.flash (inFlashOffset index + k) = 0xFF) :
    ∃ d', finishUpload topBoot index answers len d = some d' ∧ isValid d'.flash index = !topBoot ∧
      ProgramEntry.length d'.flash index = len ∧ calculateCrc d'.flash index = some (crc d'.flash index) ∧
      (∀ k, 1024 + k < size →
        d'.flash (inFlashOffset index + (1024 + k)) = d.flash (inFlashOffset index + (1024 + k))) ∧
      (topBoot = false → ∀ a ∉ slot index, d'.flash a = d.flash a) := by
  obtain ⟨hlength, hcrc⟩ := Upload.header_erased herased
  set d₁ := (setLength index answers len d).2
  have hconfined₁ : Confined (Set.Ico (inFlashOffset index) (inFlashOffset index + 4)) d d₁ :=
    setLength_confined index len
  have hlength₁ : ProgramEntry.length d₁.flash index = len := by
    rw [length_setLength (hworks _), hlength, BitVec.allOnes_and]
  obtain ⟨c, hc⟩ : ∃ c, contentCrc d₁.flash index len = some c := by
    unfold contentCrc
    rw [if_pos (by rw [size] at hlen; omega)]
    exact ⟨_, rfl⟩
  set d₂ := (setCrc index answers c d₁).2
  have hconfined₂ : Confined (Set.Ico (inFlashOffset index + 32) (inFlashOffset index + 32 + 2)) d₁ d₂ :=
    setCrc_confined index c
  have hcrc₁ : crc d₁.flash index = BitVec.allOnes 16 :=
    (crc_congr fun a ha => hconfined₁.flash a fun hin => by have := hin.2; have := ha.1; omega).trans hcrc
  have hcrc₂ : crc d₂.flash index = c := by
    rw [crc_setCrc (hworks _), hcrc₁, BitVec.allOnes_and]
  set d₃ := (d₂.perform answers (bootSetValid topBoot index)).2
  have hmark := @mark_flash index answers hindex topBoot d₂
  have hfinish : finishUpload topBoot index answers len d = some d₃ := by
    have hcalculate : calculateCrc d₁.flash index = some c := by
      rw [calculateCrc, hlength₁, hc]
    unfold finishUpload
    dsimp only
    rw [hcalculate, Option.map_some]
  -- what is left alone by all three
  have hsame : ∀ k, 34 ≤ k → k ≠ 64 → k < size →
      d₃.flash (inFlashOffset index + k) = d.flash (inFlashOffset index + k) := by
    intro k hlow hne hk
    rw [hmark _ (mem_slot hk) (by omega), hconfined₂.flash _ fun hin => by have := hin.2; omega,
      hconfined₁.flash _ fun hin => by have := hin.2; omega]
  have hlength₃ : ProgramEntry.length d₃.flash index = len := by
    rw [← hlength₁]
    apply length_congr
    intro a ha
    rw [hmark a ⟨ha.1, by have := ha.2; rw [size]; omega⟩ (by have := ha.2; omega)]
    exact hconfined₂.flash a fun hin => by have := hin.1; have := ha.2; omega
  have hcrc₃ : crc d₃.flash index = c := by
    rw [← hcrc₂]
    apply crc_congr
    intro a ha
    have hhigh := ha.2
    have hlow := ha.1
    exact hmark a ⟨by omega, by rw [size]; omega⟩ (by omega)
  refine ⟨d₃, hfinish, ?_, hlength₃, ?_, ?_, ?_⟩
  · refine isValid_mark hindex hworks topBoot ?_
    rw [hconfined₂.flash _ fun hin => by have := hin.2; omega,
      hconfined₁.flash _ fun hin => by have := hin.2; omega]
    exact herased 64 (by decide)
  · rw [calculateCrc, hlength₃, hcrc₃, ← hc]
    apply contentCrc_congr
    intro a hlow hhigh
    obtain ⟨k, rfl⟩ : ∃ k, a = inFlashOffset index + k := ⟨a - inFlashOffset index, by omega⟩
    rw [size] at hlen
    rw [hsame k (by omega) (by omega) (by rw [size]; omega)]
    exact (hconfined₁.flash _ fun hin => by have := hin.2; omega).symm
  · intro k hk
    exact hsame (1024 + k) (by omega) (by omega) hk
  · rintro rfl a ha
    rw [mark_others hindex a ha,
      hconfined₂.flash a fun hin => ha (Set.Ico_subset_Ico (by omega) (by rw [size]; omega) hin),
      hconfined₁.flash a fun hin => ha (Set.Ico_subset_Ico le_rfl (by rw [size]; omega) hin)]

/-- **An application that is uploaded** over the UART to a flash that works: it is in the slot, with its
length and the CRC of what is there, or the slot has been left without a program. On a bottom boot
device it is marked as valid in both cases, and on a top boot device in neither. -/
theorem application_uploaded (hindex : index.toNat < 6) (hworks : Works answers)
    (hblocks : ∀ block ∈ blocks, block.length = 128) (hsize : 128 * blocks.length ≤ size - 1024)
    {s : XmodemLine FlashDriver} {es : List XmodemEvent}
    (h : Runs.Run (XmodemLine.step (storePacket index answers)) (XmodemLine.Detected blocks)
      (XmodemLine.init (erase index answers d).2) es s) {len : BitVec 32} (hlen : s.upload.returned = some len)
    (topBoot : Bool) :
    ∃ d', finishUpload topBoot index answers len s.upload.memory = some d' ∧
      isValid d'.flash index = !topBoot ∧ ProgramEntry.length d'.flash index = len ∧
      calculateCrc d'.flash index = some (crc d'.flash index) ∧
      (len = 0 ∨ len = BitVec.ofNat 32 blocks.flatten.length ∧ ∀ k < blocks.flatten.length,
        d'.flash (inFlashOffset index + (1024 + k)) = blocks.flatten.getD k 0) ∧
      (topBoot = false → ∀ a ∉ slot index, d'.flash a = d.flash a) := by
  have hlong : 128 * blocks.length < 2 ^ 32 := by
    rw [size] at hsize
    omega
  have hflatten := Chunks.length_flatten hblocks
  have herased : ∀ a ∈ slot index, (erase index answers d).2.flash a = 0xFF := by
    rcases @erase_cases answers index d with ⟨-, -, herased⟩ | ⟨-, k, -, hfail⟩
    · exact herased
    · exact absurd (hworks _) hfail
  obtain ⟨⟨n, hn, hmemory⟩, hreturned⟩ := XmodemLine.transferred hlong h
  obtain ⟨hbrought, hothers⟩ := brought_stored herased hworks hblocks hsize hn
  rw [← hmemory] at hbrought hothers
  have hfits : len.toNat ≤ size - 1024 := by
    rcases hreturned len hlen with rfl | ⟨rfl, -⟩
    · exact Nat.zero_le _
    · rw [BitVec.toNat_ofNat]
      exact (Nat.mod_le _ _).trans hsize
  obtain ⟨d', hfinish, hvalid, hlength, hcrc, hcontent, hrest⟩ :=
    finishUpload_spec hindex hworks topBoot hfits hbrought.header
  refine ⟨d', hfinish, hvalid, hlength, hcrc, ?_, ?_⟩
  · rcases hreturned len hlen with hzero | ⟨hall, hmemory'⟩
    · exact Or.inl hzero
    · refine Or.inr ⟨by rw [hall, hflatten], ?_⟩
      intro k hk
      have hstored := (brought_stored herased hworks hblocks hsize le_rfl).1
      rw [hflatten] at hk
      rw [hcontent k (by omega), hmemory', hstored.content k (by omega), if_pos hk]
  · intro hbottom a ha
    rw [hrest hbottom a ha, hothers a ha]
    exact (erase_confined index d).flash a ha

/-- Two blocks for the third slot. -/
theorem application_uploaded_twoBlocks : ∃ (s : XmodemLine FlashDriver) (d' : FlashDriver),
    s.upload.returned = some 256 ∧ finishUpload false 2 UploadExample.okAnswers 256 s.upload.memory = some d' ∧
      isValid d'.flash 2 = true ∧ ProgramEntry.length d'.flash 2 = 256 ∧
      ∀ k < 256, d'.flash (inFlashOffset 2 + (1024 + k)) = XmodemLine.twoBlocks.flatten.getD k 0 := by
  obtain ⟨es, s, hrun, hend⟩ := XmodemLine.exists_transfer (storePacket 2 UploadExample.okAnswers)
    XmodemLine.twoBlocks (erase 2 UploadExample.okAnswers ⟨fun _ => 0, []⟩).2 (by decide) XmodemLine.length_twoBlocks
  obtain ⟨d', hfinish, hvalid, hlength, -, hcontent, -⟩ := application_uploaded (by decide) (fun _ => rfl)
    XmodemLine.length_twoBlocks (by decide) hrun hend false
  refine ⟨s, d', hend, hfinish, hvalid, hlength, ?_⟩
  rcases hcontent with hzero | ⟨-, hcontent⟩
  · exact absurd hzero (by decide)
  · rw [Chunks.length_flatten XmodemLine.length_twoBlocks] at hcontent
    exact hcontent

end ProgramEntry

/-! ## The safe mode -/

namespace Eeprom

variable {blocks : List (List Byte)} {eeprom : Eeprom} {n : ℕ}

/-- Two pages make a block. -/
theorem storePacket_eq (hn : 128 * n < 2 ^ 32) {data : List Byte} (hdata : data.length = 128) :
    eeprom.storePacket (BitVec.ofNat 32 (n + 1)) data = Memory.overwrite eeprom (128 * n) data := by
  have hoffset : ((BitVec.ofNat 32 (n + 1) - 1) * 128).toNat = 128 * n := by
    rw [offset_eq, BitVec.toNat_ofNat]
    exact Nat.mod_eq_of_lt hn
  have hfirst : (data.take 64).length = 64 := by
    rw [List.length_take]
    omega
  have hsecond : ((data.drop 64).take 64).length = 64 := by
    rw [List.length_take, List.length_drop]
    omega
  have hdrop : (data.drop 64).length ≤ 64 := by
    rw [List.length_drop]
    omega
  have hjoin : data.take 64 ++ (data.drop 64).take 64 = data := by
    rw [List.take_of_length_le hdrop, List.take_append_drop]
  have happend := Memory.overwrite_append eeprom (128 * n) (data.take 64) ((data.drop 64).take 64)
  rw [hfirst, hjoin] at happend
  rw [← happend, ← SafeModeScrubber.burst_pageWrites eeprom _ hfirst,
    ← SafeModeScrubber.burst_pageWrites _ _ hsecond, storePacket, hoffset]
  rfl

theorem stored_eq (hlong : 128 * blocks.length < 2 ^ 32) (hblocks : ∀ block ∈ blocks, block.length = 128)
    (hn : n ≤ blocks.length) :
    XmodemLine.stored storePacket blocks eeprom n = Memory.overwrite eeprom 0 (blocks.take n).flatten := by
  induction n with
  | zero =>
    funext a
    exact (Memory.overwrite_of_disjoint eeprom (Or.inr (Nat.zero_le a))).symm
  | succ n ih =>
    have hblock := hblocks _ (List.getElem_mem hn)
    have hlength : (blocks.take n).flatten.length = 128 * n := by
      rw [Chunks.length_flatten fun block hmem => hblocks block (List.mem_of_mem_take hmem), List.length_take,
        Nat.min_eq_left (by omega)]
    have happend := Memory.overwrite_append eeprom 0 (blocks.take n).flatten blocks[n]
    rw [hlength, Nat.zero_add] at happend
    rw [XmodemLine.stored, ih (by omega), List.getD_eq_getElem _ _ hn, storePacket_eq (by omega) hblock, happend,
      List.take_succ_eq_append_getElem hn, List.flatten_append, List.flatten_singleton]

/-- **A safe mode that is uploaded** over the UART: at any time the EEPROM holds the first blocks, and
is as it was behind them. -/
theorem safeMode_uploaded (hlong : 128 * blocks.length < 2 ^ 32)
    (hblocks : ∀ block ∈ blocks, block.length = 128) {s : XmodemLine Eeprom} {es : List XmodemEvent}
    (h : Runs.Run (XmodemLine.step storePacket) (XmodemLine.Detected blocks) (XmodemLine.init eeprom) es s) :
    (∃ n ≤ blocks.length, s.upload.memory = Memory.overwrite eeprom 0 (blocks.take n).flatten) ∧
      ∀ len, s.upload.returned = some len →
        len = 0 ∨ s.upload.memory = Memory.overwrite eeprom 0 blocks.flatten := by
  obtain ⟨⟨n, hn, hmemory⟩, hreturned⟩ := XmodemLine.transferred hlong h
  refine ⟨⟨n, hn, hmemory.trans (stored_eq hlong hblocks hn)⟩, ?_⟩
  intro len hlen
  rcases hreturned len hlen with hzero | ⟨-, hall⟩
  · exact Or.inl hzero
  · rw [stored_eq hlong hblocks le_rfl, List.take_length] at hall
    exact Or.inr hall

/-- Two blocks for the safe mode. -/
theorem safeMode_uploaded_twoBlocks : ∃ s : XmodemLine Eeprom, s.upload.returned = some 256 ∧
    s.upload.memory = Memory.overwrite (fun _ => 0xFF) 0 XmodemLine.twoBlocks.flatten := by
  obtain ⟨es, s, hrun, hend⟩ := XmodemLine.exists_transfer storePacket XmodemLine.twoBlocks
    (fun _ => 0xFF) (by decide) XmodemLine.length_twoBlocks
  rcases (safeMode_uploaded (by decide) XmodemLine.length_twoBlocks hrun).2 _ hend with hzero | hall
  · exact absurd hzero (by decide)
  · exact ⟨s, hend, hall⟩

end Eeprom

end PWSat2OBC
