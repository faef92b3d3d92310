import PWSat2OBC.Lib.Chunks
import PWSat2OBC.Proof.Downlink
import PWSat2OBC.Spec.FileTelecommands

/-!
# Parts of a file

`FileSender.Exact`: what a call of `SendPart` owes for a part inside the file, and for one
outside. The parts inside are those with a number below `⌈n / 230⌉`, but the check lets this
number itself through, and whatever is not read stays a zero of the frame. `sendPart_refused`
and `sendPart_sent` say all that a call does; `exact_iff` and `recovers_iff` are read off them.
-/

namespace PWSat2OBC

open Chunks

/-- What a Success frame brings to the ground. -/
def ReceivedFrame.filePart (seq : BitVec 32) (correlationId : Byte) (data : List Byte) : ReceivedFrame :=
  ⟨0x0B, seq.toNat % 2 ^ 18, correlationId :: 0 :: data⟩

namespace FileSender

variable (sender : FileSender)

/-- The number of bytes of the file. -/
def fileLength : ℕ := sender.file.content.length

/-- The bytes of the file from `230 * seq` on, 230 or as many as there are. -/
def chunk (seq : ℕ) : List Byte := (sender.file.content.drop (seq * maxFileDataSize)).take maxFileDataSize

/-- **What a call owes.** -/
structure Exact (seq : BitVec 32) (part : Part) : Prop where
  inside : seq.toNat * maxFileDataSize < sender.fileLength → part.returned = true ∧
    part.frames.map ReceivedFrame.parse = [.filePart seq sender.correlationId (sender.chunk seq.toNat)]
  outside : sender.fileLength ≤ seq.toNat * maxFileDataSize → part.returned = false ∧ part.frames = [] ∨
    sender.fileLength = 0 ∧ seq = 0 ∧
      part.frames.map ReceivedFrame.parse = [.filePart seq sender.correlationId []]
  /-- Only what was read is sent. -/
  read : ∀ frame ∈ part.frames,
    (ReceivedFrame.parse frame).payload = sender.correlationId :: 0 :: part.delivered

/-- The condition: no fault in the way of a part inside the file, and the number is not the
first one behind a file with content, unless its offset is refused. -/
structure Meets (seq : BitVec 32) (answers : PartAnswers) : Prop where
  inside : seq.toNat * maxFileDataSize < sender.fileLength → answers.seek = true ∧ answers.sent = true ∧
    (sender.chunk seq.toNat).length ≤ answers.delivered
  behind : seq.toNat = count sender.fileLength maxFileDataSize → sender.fileLength = 0 ∨
    answers.seek = false ∨ 2 ^ 31 ≤ seq.toNat * maxFileDataSize

/-! ## The numbers -/

theorem fileLength_lt : sender.fileLength < 2 ^ 31 := sender.file.small

theorem toNat_size : sender.file.size.toNat = sender.fileLength := by
  have := sender.fileLength_lt
  unfold OpenedFile.size
  rw [BitVec.toNat_ofNat]
  exact Nat.mod_eq_of_lt (by unfold fileLength at *; omega)

theorem toNat_lastSeq : sender.lastSeq.toNat = count sender.fileLength maxFileDataSize := by
  have hlt := sender.fileLength_lt
  have hsum : (sender.file.size + 230#32 - 1#32).toNat = sender.fileLength + 230 - 1 := by
    rw [BitVec.toNat_sub, BitVec.toNat_add, toNat_size, BitVec.toNat_ofNat, BitVec.toNat_ofNat]
    omega
  have h230 : maxFileDataSize = 230 := rfl
  unfold lastSeq maxChunkNumber count
  rw [h230, BitVec.toNat_udiv]
  exact congrArg (· / 230) hsum

/-- The numbers below `⌈n / 230⌉` are those of the parts inside the file. -/
theorem inside_iff (seq : ℕ) :
    seq * maxFileDataSize < sender.fileLength ↔ seq < count sender.fileLength maxFileDataSize := by
  have h230 : maxFileDataSize = 230 := rfl
  unfold count
  rw [h230]
  omega

/-- The size of the segment: the number of bytes left, which wraps behind the end. -/
def segment (seq : ℕ) : ℕ :=
  if seq * maxFileDataSize ≤ sender.fileLength then
    min maxFileDataSize (sender.fileLength - seq * maxFileDataSize)
  else maxFileDataSize

variable {sender} {seq : BitVec 32}

/-- The parts up to the first one behind the file begin less than a part behind it. -/
theorem offset_lt {seq : ℕ} (h : seq ≤ count sender.fileLength maxFileDataSize) :
    seq * maxFileDataSize < sender.fileLength + maxFileDataSize := by
  have h230 : maxFileDataSize = 230 := rfl
  unfold count at h
  rw [h230] at h ⊢
  omega

theorem toNat_offset (h : seq.toNat ≤ count sender.fileLength maxFileDataSize) :
    (seq * BitVec.ofNat 32 maxFileDataSize).toNat = seq.toNat * maxFileDataSize := by
  have hlt := sender.fileLength_lt
  have hoffset := offset_lt h
  have h230 : maxFileDataSize = 230 := rfl
  have hmod : maxFileDataSize % 2 ^ 32 = maxFileDataSize := by omega
  rw [BitVec.toNat_mul, BitVec.toNat_ofNat, hmod]
  exact Nat.mod_eq_of_lt (by omega)

theorem segmentSize_eq (h : seq.toNat ≤ count sender.fileLength maxFileDataSize) :
    min maxFileDataSize (sender.file.size - seq * BitVec.ofNat 32 maxFileDataSize).toNat =
      sender.segment seq.toNat := by
  have hlt := sender.fileLength_lt
  have hoffset := offset_lt h
  have h230 : maxFileDataSize = 230 := rfl
  rw [BitVec.toNat_sub, toNat_offset h, toNat_size]
  unfold segment
  split <;> omega

theorem seek_iff (answers : PartAnswers) (h : seq.toNat ≤ count sender.fileLength maxFileDataSize) :
    OpenedFile.seek answers.seek (seq * BitVec.ofNat 32 maxFileDataSize) = true ↔
      answers.seek = true ∧ seq.toNat * maxFileDataSize < 2 ^ 31 := by
  unfold OpenedFile.seek
  rw [Bool.and_eq_true, decide_eq_true_eq, BitVec.toInt_eq_toNat_cond, toNat_offset h]
  have hlt := (seq * BitVec.ofNat 32 maxFileDataSize).isLt
  rw [toNat_offset h] at hlt
  constructor
  · rintro ⟨hs, h0⟩
    refine ⟨hs, ?_⟩
    split at h0 <;> omega
  · rintro ⟨hs, h31⟩
    refine ⟨hs, ?_⟩
    split <;> omega

/-! ## All that a call does -/

/-- The bytes that arrive in the segment. -/
def arriving (sender : FileSender) (delivered seq : ℕ) : List Byte :=
  sender.file.read delivered (seq * maxFileDataSize) (sender.segment seq)

theorem segment_le (sender : FileSender) (seq : ℕ) : sender.segment seq ≤ maxFileDataSize := by
  unfold segment
  split
  · exact min_le_left _ _
  · exact le_rfl

theorem length_arriving_le (sender : FileSender) (delivered seq : ℕ) :
    (sender.arriving delivered seq).length ≤ sender.segment seq := by
  unfold arriving OpenedFile.read
  rw [List.length_take, List.length_take]
  omega

/-- A number behind the last one, or an offset that is refused: nothing is sent. -/
theorem sendPart_refused (answers : PartAnswers)
    (h : seq.toNat ≤ count sender.fileLength maxFileDataSize → answers.seek = true →
      2 ^ 31 ≤ seq.toNat * maxFileDataSize) : sender.sendPart answers seq = ⟨false, [], []⟩ := by
  have hlast := sender.toNat_lastSeq
  unfold sendPart
  split
  · rfl
  · rename_i hseq
    rw [BitVec.lt_def, hlast, not_lt] at hseq
    have hseek : OpenedFile.seek answers.seek (seq * BitVec.ofNat 32 maxFileDataSize) = false := by
      rw [Bool.eq_false_iff, ne_eq, seek_iff answers hseq]
      rintro ⟨hs, hlt⟩
      have := h hseq hs
      omega
    simp only [hseek, Bool.not_false, if_true]

/-- Any other part is sent: the bytes that were read, and zeros up to the end of the segment. -/
theorem sendPart_sent (sender : FileSender) (answers : PartAnswers) (seq : BitVec 32)
    (hseq : seq.toNat ≤ count sender.fileLength maxFileDataSize)
    (hs : answers.seek = true) (h31 : seq.toNat * maxFileDataSize < 2 ^ 31) :
    ∃ frame, sender.sendPart answers seq =
        ⟨answers.sent, [frame], sender.arriving answers.delivered seq.toNat⟩ ∧
      ReceivedFrame.parse frame = .filePart seq sender.correlationId
        (sender.arriving answers.delivered seq.toNat ++ List.replicate
          (sender.segment seq.toNat - (sender.arriving answers.delivered seq.toNat).length) 0) := by
  have hlast : ¬ sender.lastSeq < seq := by
    rw [BitVec.lt_def, sender.toNat_lastSeq, not_lt]
    exact hseq
  have hseek := (seek_iff answers hseq).2 ⟨hs, h31⟩
  have hmax : DownlinkFrame.maxPayloadSize = maxFileDataSize + 2 := rfl
  have hcarries := (CorrelatedDownlinkFrame.carries_init DownloadFileTelecommand.apid seq
    sender.correlationId).writeByte DownloadFileTelecommand.ErrorCode.success.num
    (by rw [hmax, List.length_singleton]; omega)
  have hfits := sender.segment_le seq.toNat
  obtain ⟨hspan, hframe⟩ := hcarries.reserve (sender.segment seq.toNat)
    (sender.arriving answers.delivered seq.toNat)
    (by rw [hmax, List.length_append, List.length_singleton, List.length_singleton]; omega)
    (sender.length_arriving_le _ _)
  refine ⟨_, ?_, (congrArg ReceivedFrame.parse hframe).trans ((DownlinkFrame.parse_header _ _ _).trans ?_)⟩
  · unfold sendPart
    rw [if_neg hlast]
    dsimp only
    rw [hseek, Bool.not_true, if_neg Bool.false_ne_true, segmentSize_eq hseq, toNat_offset hseq]
    simp only [hspan]
    rfl
  · unfold ReceivedFrame.filePart
    congr 1

/-! ## Exactness -/

/-- Inside the file the segment is the chunk, and a prefix of the chunk arrives. -/
theorem arriving_inside {seq : ℕ} (h : seq * maxFileDataSize < sender.fileLength) (delivered : ℕ) :
    sender.segment seq = (sender.chunk seq).length ∧
      sender.arriving delivered seq = (sender.chunk seq).take delivered := by
  have hsegment : sender.segment seq = min maxFileDataSize
      (sender.file.content.drop (seq * maxFileDataSize)).length := by
    unfold segment
    rw [if_pos h.le, List.length_drop]
    rfl
  refine ⟨?_, ?_⟩
  · rw [hsegment, chunk, List.length_take]
  · rw [arriving, OpenedFile.read, hsegment, ← List.take_eq_take_min]
    rfl

/-- Behind the file nothing arrives. -/
theorem arriving_behind {seq : ℕ} (h : sender.fileLength ≤ seq * maxFileDataSize) (delivered : ℕ) :
    sender.arriving delivered seq = [] := by
  unfold arriving OpenedFile.read
  rw [List.drop_of_length_le h, List.take_nil, List.take_nil]

/-- Nothing is sent, which is right for the parts outside. -/
theorem exact_iff_of_refused {answers : PartAnswers}
    (hrefused : seq.toNat ≤ count sender.fileLength maxFileDataSize → answers.seek = true →
      2 ^ 31 ≤ seq.toNat * maxFileDataSize) :
    sender.Exact seq (sender.sendPart answers seq) ↔ sender.Meets seq answers := by
  have hinside := sender.inside_iff seq.toNat
  have hsmall := sender.fileLength_lt
  rw [sendPart_refused answers hrefused]
  constructor
  · intro h
    refine ⟨fun hin => ?_, fun heq => ?_⟩
    · have := (h.inside hin).1
      contradiction
    · by_cases hs : answers.seek = true
      · exact .inr (.inr (hrefused heq.le hs))
      · exact .inr (.inl (Bool.eq_false_iff.2 hs))
  · intro h
    refine ⟨fun hin => ?_, fun _ => .inl ⟨rfl, rfl⟩, fun frame hframe => ?_⟩
    · have h31 := hrefused (hinside.1 hin).le (h.inside hin).1
      omega
    · contradiction

/-- A part inside: the chunk is there when all of it was read. -/
theorem exact_iff_of_inside {answers : PartAnswers} (hin : seq.toNat * maxFileDataSize < sender.fileLength)
    (hs : answers.seek = true) :
    sender.Exact seq (sender.sendPart answers seq) ↔ sender.Meets seq answers := by
  have hinside := (sender.inside_iff seq.toNat).1 hin
  have hsmall := sender.fileLength_lt
  obtain ⟨frame, hpart, hparse⟩ := sender.sendPart_sent answers seq hinside.le hs (by omega)
  obtain ⟨hsegment, harriving⟩ := sender.arriving_inside hin answers.delivered
  rw [hsegment, harriving] at hparse
  rw [hpart, harriving]
  constructor
  · intro h
    refine ⟨fun _ => ⟨hs, (h.inside hin).1, ?_⟩, fun heq => absurd hinside (by omega)⟩
    -- the zeros after a short read are bytes that were not read
    have hread := h.read frame (List.mem_singleton_self frame)
    rw [hparse] at hread
    have hlength := congrArg List.length hread
    simp only [ReceivedFrame.filePart, List.length_cons, List.length_append, List.length_take,
      List.length_replicate] at hlength
    omega
  · intro h
    obtain ⟨-, hsent, hdelivered⟩ := h.inside hin
    rw [List.take_of_length_le hdelivered, Nat.sub_self, List.replicate_zero, List.append_nil] at hparse
    refine ⟨fun _ => ⟨hsent, ?_⟩, fun hout => absurd hin (not_lt.2 hout), fun frame' hframe => ?_⟩
    · rw [List.map_singleton, hparse]
    · obtain rfl := List.mem_singleton.1 hframe
      rw [hparse, List.take_of_length_le hdelivered]
      rfl

/-- The first number behind the file: right for the empty file alone. -/
theorem exact_iff_of_behind {answers : PartAnswers}
    (heq : seq.toNat = count sender.fileLength maxFileDataSize) (hs : answers.seek = true)
    (h31 : seq.toNat * maxFileDataSize < 2 ^ 31) :
    sender.Exact seq (sender.sendPart answers seq) ↔ sender.Meets seq answers := by
  have hout : ¬ seq.toNat * maxFileDataSize < sender.fileLength := by
    rw [sender.inside_iff]
    omega
  obtain ⟨frame, hpart, hparse⟩ := sender.sendPart_sent answers seq heq.le hs h31
  have harriving := sender.arriving_behind (not_lt.1 hout) answers.delivered
  rw [harriving] at hparse
  rw [hpart, harriving]
  constructor
  · intro h
    refine ⟨fun hin => absurd hin hout, fun _ => ?_⟩
    obtain ⟨-, hnone⟩ | ⟨h0, -⟩ := h.outside (not_lt.1 hout)
    · contradiction
    · exact .inl h0
  · intro h
    obtain h0 | hno | hbig := h.behind heq
    · have hseq0 : seq.toNat = 0 := by
        rw [heq, h0]
        rfl
      have hsegment : sender.segment seq.toNat = 0 := by
        unfold segment
        rw [h0, hseq0, Nat.zero_mul]
        rfl
      rw [hsegment, List.length_nil, Nat.sub_self, List.replicate_zero, List.append_nil] at hparse
      refine ⟨fun hin => absurd hin hout, fun _ => .inr ⟨h0, BitVec.eq_of_toNat_eq hseq0, ?_⟩,
        fun frame' hframe => ?_⟩
      · rw [List.map_singleton, hparse]
      · obtain rfl := List.mem_singleton.1 hframe
        rw [hparse]
        rfl
    · rw [hs] at hno
      contradiction
    · omega

theorem exact_iff (sender : FileSender) (seq : BitVec 32) (answers : PartAnswers) :
    sender.Exact seq (sender.sendPart answers seq) ↔ sender.Meets seq answers := by
  by_cases hrefused : seq.toNat ≤ count sender.fileLength maxFileDataSize → answers.seek = true →
      2 ^ 31 ≤ seq.toNat * maxFileDataSize
  · exact exact_iff_of_refused hrefused
  · push Not at hrefused
    obtain ⟨hseq, hs, h31⟩ := hrefused
    by_cases hin : seq.toNat * maxFileDataSize < sender.fileLength
    · exact exact_iff_of_inside hin hs
    · have hinside := sender.inside_iff seq.toNat
      exact exact_iff_of_behind (by omega) hs h31

/-! ## The whole file -/

/-- The file data that reach the ground. -/
def Part.data (part : Part) : List Byte :=
  part.frames.flatMap fun frame => (ReceivedFrame.parse frame).payload.drop 2

/-- No fault. -/
def faultless : PartAnswers := ⟨true, maxFileDataSize, true⟩

/-- The part with a number, without a fault. -/
def part (sender : FileSender) (seq : ℕ) : Part := sender.sendPart faultless (BitVec.ofNat 32 seq)

/-- The parts 0, 1, 2, … before the first one that is refused concatenate to the file. -/
def Recovers (sender : FileSender) : Prop :=
  ∃ k, (∀ seq < k, (sender.part seq).returned = true) ∧ (sender.part k).returned = false ∧
    ((List.range k).flatMap fun seq => (sender.part seq).data) = sender.file.content

/-- The number of the first part that is refused. -/
def firstRefused (sender : FileSender) : ℕ :=
  if 2 ^ 31 ≤ count sender.fileLength maxFileDataSize * maxFileDataSize then
    count sender.fileLength maxFileDataSize
  else count sender.fileLength maxFileDataSize + 1

theorem count_lt (sender : FileSender) : count sender.fileLength maxFileDataSize < 2 ^ 31 := by
  have hlt := sender.fileLength_lt
  have h230 : maxFileDataSize = 230 := rfl
  unfold count
  rw [h230]
  omega

theorem toNat_seq {seq : ℕ} (h : seq ≤ count sender.fileLength maxFileDataSize + 1) :
    (BitVec.ofNat 32 seq).toNat = seq := by
  have := sender.count_lt
  rw [BitVec.toNat_ofNat]
  exact Nat.mod_eq_of_lt (by omega)

/-- What is sent before the first refusal. -/
theorem part_sent {seq : ℕ} (h : seq < sender.firstRefused) :
    (sender.part seq).returned = true ∧ (sender.part seq).data =
      if seq < count sender.fileLength maxFileDataSize then sender.chunk seq
      else List.replicate (sender.segment seq) 0 := by
  have hcount := sender.count_lt
  have hoffset := sender.fileLength_lt
  have hin := sender.inside_iff seq
  have hbounds : seq ≤ count sender.fileLength maxFileDataSize ∧ seq * maxFileDataSize < 2 ^ 31 := by
    unfold firstRefused at h
    split at h
    · have := hin.2 h
      omega
    · rcases Nat.lt_or_eq_of_le (Nat.le_of_lt_succ h) with hlt | rfl
      · have := hin.2 hlt
        omega
      · omega
  obtain ⟨hseq, h31⟩ := hbounds
  have htoNat : (BitVec.ofNat 32 seq).toNat = seq := sender.toNat_seq (by omega)
  obtain ⟨frame, hpart, hparse⟩ := sender.sendPart_sent faultless (BitVec.ofNat 32 seq) (by rwa [htoNat]) rfl
    (by rwa [htoNat])
  rw [htoNat] at hparse
  unfold part Part.data
  rw [hpart]
  refine ⟨rfl, ?_⟩
  rw [List.flatMap_singleton, hparse]
  change _ ++ _ = _
  split
  · rename_i hlt
    obtain ⟨hsegment, harriving⟩ := sender.arriving_inside (hin.2 hlt) faultless.delivered
    have hall : (sender.chunk seq).length ≤ faultless.delivered := by
      rw [chunk, List.length_take]
      exact min_le_left _ _
    rw [hsegment, harriving, List.take_of_length_le hall, Nat.sub_self, List.replicate_zero, List.append_nil]
  · rename_i hge
    have hout : sender.fileLength ≤ seq * maxFileDataSize := not_lt.1 fun hlt => hge (hin.1 hlt)
    rw [sender.arriving_behind hout, List.nil_append, List.length_nil, Nat.sub_zero]

theorem part_refused (sender : FileSender) : (sender.part sender.firstRefused).returned = false := by
  have hrefused : (BitVec.ofNat 32 sender.firstRefused).toNat ≤ count sender.fileLength maxFileDataSize →
      faultless.seek = true → 2 ^ 31 ≤ (BitVec.ofNat 32 sender.firstRefused).toNat * maxFileDataSize := by
    have hle : sender.firstRefused ≤ count sender.fileLength maxFileDataSize + 1 := by
      unfold firstRefused
      split <;> omega
    rw [sender.toNat_seq hle]
    unfold firstRefused
    split
    · intro _ _
      assumption
    · intro h
      omega
  unfold part
  rw [sendPart_refused faultless hrefused]

/-- The chunks concatenate to the file. -/
theorem chunks_eq (sender : FileSender) :
    ((List.range (count sender.fileLength maxFileDataSize)).flatMap sender.chunk) = sender.file.content := by
  have h := flatten_pieces (show 0 < maxFileDataSize by decide) sender.file.content
  rwa [pieces, ← List.flatMap_def] at h

/-- What reaches the ground before the first refusal: the file, and the segment behind it. -/
theorem data_eq (sender : FileSender) :
    ((List.range sender.firstRefused).flatMap fun seq => (sender.part seq).data) =
      sender.file.content ++
        if 2 ^ 31 ≤ count sender.fileLength maxFileDataSize * maxFileDataSize then []
        else List.replicate (sender.segment (count sender.fileLength maxFileDataSize)) 0 := by
  have hinside : ((List.range (count sender.fileLength maxFileDataSize)).flatMap
      fun seq => (sender.part seq).data) = sender.file.content := by
    rw [← sender.chunks_eq, List.flatMap_def, List.flatMap_def]
    congr 1
    apply List.map_congr_left
    intro seq hseq
    have hlt := List.mem_range.1 hseq
    rw [(sender.part_sent (by unfold firstRefused; split <;> omega)).2, if_pos hlt]
  by_cases h31 : 2 ^ 31 ≤ count sender.fileLength maxFileDataSize * maxFileDataSize
  · have hfirst : sender.firstRefused = count sender.fileLength maxFileDataSize := if_pos h31
    rw [hfirst, if_pos h31, hinside, List.append_nil]
  · have hfirst : sender.firstRefused = count sender.fileLength maxFileDataSize + 1 := if_neg h31
    have hlt : count sender.fileLength maxFileDataSize < sender.firstRefused := by omega
    have hlast := (sender.part_sent hlt).2
    rw [if_neg (lt_irrefl _)] at hlast
    rw [hfirst, if_neg h31, List.range_succ, List.flatMap_append, hinside, List.flatMap_singleton, hlast]

theorem recovers_iff (sender : FileSender) :
    sender.Recovers ↔ maxFileDataSize ∣ sender.fileLength ∨
      2 ^ 31 ≤ count sender.fileLength maxFileDataSize * maxFileDataSize := by
  have hdata : sender.Recovers ↔
      ((List.range sender.firstRefused).flatMap fun seq => (sender.part seq).data) = sender.file.content := by
    constructor
    · rintro ⟨k, hbelow, hk, hfile⟩
      -- the first refusal is where it has to be
      have hfirst : k = sender.firstRefused := by
        rcases lt_trichotomy k sender.firstRefused with hlt | heq | hgt
        · have := (sender.part_sent hlt).1
          rw [hk] at this
          contradiction
        · exact heq
        · have := hbelow _ hgt
          rw [sender.part_refused] at this
          contradiction
      rwa [hfirst] at hfile
    · intro h
      exact ⟨_, fun seq hseq => (sender.part_sent hseq).1, sender.part_refused, h⟩
  rw [hdata, data_eq, List.append_right_eq_self]
  by_cases h31 : 2 ^ 31 ≤ count sender.fileLength maxFileDataSize * maxFileDataSize
  · rw [if_pos h31]
    simp only [h31, or_true]
  · rw [if_neg h31, List.replicate_eq_nil_iff]
    simp only [h31, or_false]
    have h230 : maxFileDataSize = 230 := rfl
    unfold segment count
    rw [h230]
    constructor
    · intro h
      split at h <;> omega
    · rintro ⟨m, hm⟩
      rw [hm]
      split <;> omega

/-- **Exact parts and the whole file**: a call does what it owes exactly where it meets no fault
inside the file and is not for the first number behind a file with content; and the parts
before the first refusal concatenate to the file exactly when its length is a multiple of 230,
or the offset behind it is refused. -/
theorem sendsExactParts_iff (sender : FileSender) :
    (∀ (seq : BitVec 32) (answers : PartAnswers),
      sender.Exact seq (sender.sendPart answers seq) ↔ sender.Meets seq answers) ∧
    (sender.Recovers ↔ maxFileDataSize ∣ sender.fileLength ∨
      2 ^ 31 ≤ count sender.fileLength maxFileDataSize * maxFileDataSize) :=
  ⟨sender.exact_iff, sender.recovers_iff⟩

/-- A file of one byte. -/
def oneByteFile : FileSender := ⟨⟨[0x41], by simp⟩, 0x11⟩

/-- Its part 1 is sent too. -/
theorem oneByteFile_not_exact :
    ¬ oneByteFile.Exact 1 (oneByteFile.sendPart faultless 1) ∧ ¬ oneByteFile.Recovers := by
  have hlength : oneByteFile.fileLength = 1 := rfl
  have hcount : count oneByteFile.fileLength maxFileDataSize = 1 := rfl
  have h230 : maxFileDataSize = 230 := rfl
  constructor
  · rw [exact_iff]
    intro h
    obtain h0 | hseek | h31 := h.behind hcount.symm
    · omega
    · contradiction
    · rw [h230] at h31
      change 2 ^ 31 ≤ 1 * 230 at h31
      omega
  · rw [recovers_iff, hcount, hlength, h230]
    omega

end FileSender

end PWSat2OBC
