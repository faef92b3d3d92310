import PWSat2OBC.Proof.Writer
import PWSat2OBC.Spec.ExperimentFile
import Mathlib.Algebra.BigOperators.Group.Finset.Basic

/-!
# Experiment files read back

The class is a pager (`Represents`): its buffer is the current packet and its file the
finished ones. One call of `Write` puts the block, turns packets, or cuts the block
(`write_spec`).

Two calls go wrong. An empty block written into a packet that is exactly full is lost
(`LosesBlock`). A block that was cut and ends exactly with a packet leaves a continuation
mark in the next one (`Overruns`), which is harmless only when nothing follows.
-/

namespace PWSat2OBC

open Packets

namespace ExperimentFile

variable (time : Option (ℕ → Option (BitVec 64)))

/-! ## The format -/

/-- The bytes of `WriteQuadWordLE`. -/
def quadWord (t : BitVec 64) : List Byte := (List.range 8).map fun i => t.extractLsb' (8 * i) 8

/-- What `InitializePacket` writes into packet `k`. -/
def header (k : ℕ) : List Byte :=
  PID.synchronization ::
    match time.bind fun getCurrentTime => getCurrentTime k with
    | none => []
    | some t => PID.timestamp :: quadWord t

theorem length_header_le (k : ℕ) : (header time k).length ≤ 10 := by
  rw [header]
  split <;> simp [quadWord]

/-- The payload is found behind the header, if it does not begin with a Timestamp block. -/
theorem payload_header (k : ℕ) {xs : List Byte} (h : ∀ x ∈ xs.head?, x ≠ PID.timestamp) :
    payload (header time k ++ xs) = some xs := by
  rw [header]
  split
  · cases xs with
    | nil => rfl
    | cons x xs =>
      have hx : x ≠ PID.timestamp := h x rfl
      simp [payload, hx]
  · simp [payload, quadWord, List.range_succ]

/-- The format of experiment files, as the class writes it with its time provider. -/
def layout : Layout Byte where
  toMarks := marks
  size := packetLength
  header := header time
  plain := PID.Ordinary
  plain_ne := fun _ h => h.2
  header_room := fun k => by
    have := length_header_le time k
    simp only [packetLength]
    omega
  strip_header := fun k xs h => by
    apply payload_header
    intro x hx
    rcases h x hx with rfl | rfl | hx
    · decide
    · decide
    · exact hx.1

/-! ## The class as a pager -/

structure Represents (s : ExperimentFile) (v : Pager Byte) : Prop where
  writer : s.writer.Holds packetLength (v.current (layout time))
  content : s.file.content = v.packets.flatten
  begun : s.begun = v.packets.length + 1
  dirty : s.hasPayloadInFrame = v.dirty
  results : ∀ k, s.file.results k = .success
  clock : s.time = time
  wf : v.Wf (layout time)
  fresh : v.dirty = false → 2 ≤ v.room (layout time)

variable {time} {s : ExperimentFile} {v : Pager Byte}

theorem Represents.remainingSize (h : Represents time s v) :
    s.writer.remainingSize = v.room (layout time) := h.writer.remainingSize

theorem room_le (time : Option (ℕ → Option (BitVec 64))) (v : Pager Byte) : v.room (layout time) ≤ 229 := by
  have hs : (layout time).size = 230 := rfl
  have hh : 0 < (header time v.packets.length).length := by simp [header]
  have hc : v.current (layout time) = header time v.packets.length ++ v.payload := rfl
  rw [Pager.room, hs, hc, List.length_append]
  omega

/-- `InitializePacket` writes the header. -/
theorem holds_initializePacket (hlen : s.writer.buffer.length = packetLength) :
    s.initializePacket.writer.Holds packetLength (header s.time s.begun) := by
  have h0 := Writer.holds_reset hlen (by decide) (by decide)
  have h1 : (s.writer.reset.writeByte PID.synchronization).2.Holds packetLength [PID.synchronization] :=
    (h0.write [PID.synchronization] (by decide) (by decide)).2
  rw [header, initializePacket]
  cases s.time with
  | none => exact h1
  | some getCurrentTime =>
    dsimp only [Option.bind_some]
    cases getCurrentTime s.begun with
    | none => exact h1
    | some t =>
      have h2 := (h1.write [PID.timestamp] (by decide) (by decide)).2
      exact (h2.write (quadWord t) (by simp [quadWord, packetLength]) (by simp [quadWord])).2

theorem represents_openFile {file : File} (hc : file.content = []) (hr : ∀ k, file.results k = .success) :
    Represents time (openFile time file) ⟨[], [], false⟩ where
  writer := by
    rw [openFile, Pager.current, List.append_nil]
    exact holds_initializePacket (by rw [Writer.init, List.length_replicate])
  content := hc
  begun := rfl
  dirty := rfl
  results := hr
  clock := rfl
  wf := Pager.wf_nil
  fresh := fun _ => by
    have := length_header_le time 0
    simp only [Pager.room, Pager.current, layout, List.append_nil, List.length_nil, packetLength]
    omega

/-- The padded buffer is the packet. -/
theorem Represents.fillBufferWithPadding (h : Represents time s v) :
    s.fillBufferWithPadding.writer.Holds packetLength (v.pack (layout time)) := by
  rw [ExperimentFile.fillBufferWithPadding, h.remainingSize]
  have hfits := h.wf.fits
  have hroom := room_le time v
  have hsize : (layout time).size = packetLength := rfl
  by_cases hfull : v.room (layout time) = 0
  · rw [if_pos (by omega), Pager.pack, hfull, List.replicate_zero, List.append_nil]
    exact h.writer
  · rw [if_neg (by omega)]
    have hlen : (v.current (layout time)).length + v.room (layout time) = packetLength := by
      rw [Pager.room]
      omega
    have h1 := (h.writer.write [PID.padding] (by simp; omega) (by decide)).2
    have h2 := h1.fill (by simp; omega) paddingData
    have hpad : v.pack (layout time) = v.current (layout time) ++ [PID.padding] ++
        List.replicate (packetLength - (v.current (layout time) ++ [PID.padding]).length) paddingData := by
      obtain ⟨k, hk⟩ : ∃ k, v.room (layout time) = k + 1 := ⟨_, (Nat.succ_pred hfull).symm⟩
      have hk' : packetLength - (v.current (layout time) ++ [PID.padding]).length = k := by
        rw [List.length_append, List.length_singleton]
        omega
      rw [hk', Pager.pack, hk, List.replicate_succ, List.append_assoc, List.singleton_append]
      rfl
    rw [hpad]
    exact h2

@[simp] theorem fillBufferWithPadding_file : s.fillBufferWithPadding.file = s.file := by
  rw [fillBufferWithPadding]; split <;> rfl

@[simp] theorem fillBufferWithPadding_time : s.fillBufferWithPadding.time = s.time := by
  rw [fillBufferWithPadding]; split <;> rfl

@[simp] theorem fillBufferWithPadding_begun : s.fillBufferWithPadding.begun = s.begun := by
  rw [fillBufferWithPadding]; split <;> rfl

theorem File.write_of_success {f : File} (h : f.results f.writes = .success) (buffer : List Byte) :
    f.write buffer =
      (.success, { f with content := f.content ++ buffer, writes := f.writes + 1 }) := by
  rw [File.write, h]

/-- The file with one more packet. -/
def withPacket (s : ExperimentFile) (packet : List Byte) : ExperimentFile :=
  { s.fillBufferWithPadding with
    file := { s.file with content := s.file.content ++ packet, writes := s.file.writes + 1 } }

theorem Represents.flushInternal (h : Represents time s v) (init : Bool) :
    s.flushInternal init =
      (.success,
        if init then (s.withPacket (v.pack (layout time))).initializePacket
        else s.withPacket (v.pack (layout time))) := by
  have hres : s.fillBufferWithPadding.file.results s.fillBufferWithPadding.file.writes = .success := by
    rw [fillBufferWithPadding_file]
    exact h.results _
  rw [ExperimentFile.flushInternal, File.write_of_success hres,
    h.fillBufferWithPadding.buffer_eq (Pager.length_pack h.wf), fillBufferWithPadding_file]
  rfl

/-- **`Flush` turns the packet.** -/
theorem Represents.flush (h : Represents time s v) :
    ∃ s', s.flush = (.success, s') ∧ Represents time s' (v.turn (layout time)) := by
  refine ⟨_, h.flushInternal true, ?_⟩
  have hw := holds_initializePacket (s := s.withPacket (v.pack (layout time)))
    h.fillBufferWithPadding.length
  exact
    { writer := by
        simpa [Pager.current, Pager.turn, layout, withPacket, h.begun, h.clock] using hw
      content := by
        simp [initializePacket, withPacket, Pager.turn, h.content]
      begun := by
        simp [initializePacket, withPacket, Pager.turn, h.begun]
      dirty := rfl
      results := h.results
      clock := by
        simp [initializePacket, withPacket, h.clock]
      wf := h.wf.turn
      fresh := fun _ => by
        have := Pager.room_turn (L := layout time) v
        omega }

theorem length_current_add_room (h : Represents time s v) :
    (v.current (layout time)).length + v.room (layout time) = packetLength := by
  have := h.wf.fits
  have hsize : (layout time).size = packetLength := rfl
  rw [Pager.room]
  omega

/-- **A block, or a part of one, is put into the packet.** -/
theorem Represents.put (h : Represents time s v) {pid : Byte} (hp : PID.Ordinary pid) (xs : List Byte)
    (hroom : 1 + xs.length ≤ v.room (layout time)) :
    Represents time
      { s with
        writer := ((s.writer.writeByte pid).2.writeArray xs).2
        hasPayloadInFrame := true }
      (v.put (pid :: xs)) where
  writer := by
    have hlen := length_current_add_room h
    have hle := room_le time v
    have h1 := (h.writer.write [pid] (by rw [List.length_singleton]; omega) (by simp)).2
    have h2 := (h1.write xs (by rw [List.length_append, List.length_singleton]; omega)
      (by omega)).2
    have happ : (v.put (pid :: xs)).current (layout time) = v.current (layout time) ++ [pid] ++ xs := by
      simp [Pager.current, Pager.put]
    rw [happ]
    exact h2
  content := h.content
  begun := h.begun
  dirty := rfl
  results := h.results
  clock := h.clock
  wf := h.wf.put hp hroom
  fresh := fun hd => Bool.noConfusion hd

/-- The continuation mark behind a header. -/
theorem Represents.mark (h : Represents time s (v.turn (layout time))) :
    Represents time { s with writer := (s.writer.writeByte PID.continuation).2 }
      ((v.turn (layout time)).mark (layout time)) where
  writer := by
    have hlen := length_current_add_room h
    have hroom := Pager.room_turn (L := layout time) v
    have h1 := (h.writer.write [PID.continuation] (by rw [List.length_singleton]; omega)
      (by decide)).2
    rw [Pager.current, List.append_assoc] at h1
    exact h1
  content := h.content
  begun := h.begun
  dirty := h.dirty
  results := h.results
  clock := h.clock
  wf := h.wf.mark rfl (by
    have hroom := Pager.room_turn (L := layout time) v
    omega)
  fresh := fun _ => by
    have hroom := Pager.room_turn (L := layout time) v
    rw [Pager.room_mark]
    omega

/-! ## A block larger than its packet -/

/-- What a packet takes of the data of a block that goes on in it. -/
def continuedRoom (time : Option (ℕ → Option (BitVec 64))) (k : ℕ) : ℕ :=
  packetLength - (header time k).length - 2 * pidSize

/-- `size` bytes of data behind their PID, begun with `room` bytes left, end exactly with a
packet. `k` is the number of the next packet. -/
def EndsPacket (time : Option (ℕ → Option (BitVec 64))) (k room size : ℕ) : Prop :=
  ∃ j, size + pidSize = room + ∑ i ∈ Finset.range j, continuedRoom time (k + i)

theorem endsPacket_self (k size : ℕ) : EndsPacket time k (size + pidSize) size := ⟨0, by simp⟩

theorem not_endsPacket_of_lt {k room size : ℕ} (h : size + pidSize < room) :
    ¬ EndsPacket time k room size := by
  rintro ⟨j, hj⟩
  omega

theorem not_endsPacket_of_empty {k room : ℕ} (h : 2 ≤ room) : ¬ EndsPacket time k room ([] : List Byte).length :=
  not_endsPacket_of_lt h

/-- With the first packet full, the rest decides. -/
theorem endsPacket_iff {k room size : ℕ} (hroom : 1 ≤ room) (h : room < size + pidSize)
    (hk : 1 ≤ continuedRoom time k) :
    EndsPacket time k room size ↔
      EndsPacket time (k + 1) (continuedRoom time k + pidSize) (size - (room - pidSize)) := by
  simp only [EndsPacket, pidSize] at h ⊢
  constructor
  · rintro ⟨j, hj⟩
    cases j with
    | zero =>
      rw [Finset.range_zero, Finset.sum_empty] at hj
      omega
    | succ j =>
      refine ⟨j, ?_⟩
      rw [Finset.sum_range_succ'] at hj
      simp only [Nat.add_zero, Nat.add_assoc, Nat.add_comm 1] at hj ⊢
      omega
  · rintro ⟨j, hj⟩
    refine ⟨j + 1, ?_⟩
    rw [Finset.sum_range_succ']
    simp only [Nat.add_zero, Nat.add_assoc, Nat.add_comm 1] at hj ⊢
    omega

/-- A new packet that begins with a continuation mark and holds nothing else. -/
def Marked (v : Pager Byte) : Prop := v.dirty = false ∧ v.payload = [PID.continuation]

/-- What writing `data` in parts leads to, from the pager `v` to `v'`. -/
structure Cutting (time : Option (ℕ → Option (BitVec 64))) (v v' : Pager Byte) (pid : Byte)
    (data : List Byte) : Prop where
  supply : v'.supply (layout time) + (if v.payload = [PID.continuation] then 1 else 0) ≤
    v.supply (layout time) + 1 + weight marks data
  ends : EndsPacket time (v.packets.length + 1) (v.room (layout time)) data.length → Marked v'
  reads : ∀ ls rest done part,
    v.Waits (layout time) ls rest done ⟨pid, part, data.length⟩ →
      (EndsPacket time (v.packets.length + 1) (v.room (layout time)) data.length →
        v'.Overrun (layout time) ls rest (done ++ [⟨pid, part ++ data⟩])) ∧
      (¬ EndsPacket time (v.packets.length + 1) (v.room (layout time)) data.length →
        v'.Clean (layout time) ls rest (done ++ [⟨pid, part ++ data⟩]))

/-- What one turn of the loop writes. -/
theorem Represents.writeSubpart (h : Represents time s v) (pid : Byte) (data : List Byte)
    (hroom : 1 ≤ v.room (layout time)) :
    s.writeSubpart pid data =
      (min data.length (v.room (layout time) - 1),
        { s with
          writer := ((s.writer.writeByte pid).2.writeArray
            (data.take (min data.length (v.room (layout time) - 1)))).2
          hasPayloadInFrame := true }) := by
  have hle := room_le time v
  have hlen : ((s.writer.remainingSize - pidSize) % 2 ^ 32).toNat = v.room (layout time) - 1 := by
    rw [h.remainingSize, pidSize]
    omega
  rw [ExperimentFile.writeSubpart, hlen]

theorem room_mark_turn (time : Option (ℕ → Option (BitVec 64))) (v : Pager Byte) :
    ((v.turn (layout time)).mark (layout time)).room (layout time) =
      continuedRoom time (v.packets.length + 1) + pidSize := by
  have hle := length_header_le time (v.packets.length + 1)
  rw [Pager.room_mark, Pager.room, Pager.current, continuedRoom]
  simp only [Pager.turn, layout, List.append_nil, List.length_append, List.length_singleton,
    packetLength, pidSize] at hle ⊢
  omega

theorem one_le_continuedRoom (time : Option (ℕ → Option (BitVec 64))) (k : ℕ) : 1 ≤ continuedRoom time k := by
  have hle := length_header_le time k
  simp only [continuedRoom, packetLength, pidSize]
  omega

section Cut

variable {pid : Byte} {data : List Byte} (hp : PID.Ordinary pid)

include hp

/-- The data end before the packet does. -/
theorem cutting_put (hroom : data.length + pidSize < v.room (layout time)) :
    Cutting time v (v.put (pid :: data)) pid data where
  supply := (Pager.supply_put (L := layout time) hp data).le
  ends := fun he => absurd he (not_endsPacket_of_lt hroom)
  reads := fun _ _ _ _ hwait =>
    ⟨fun he => absurd he (not_endsPacket_of_lt hroom), fun _ => hwait.put rfl⟩

variable (hw : v.Wf (layout time))

include hw

/-- The data end with the packet. -/
theorem cutting_full (hroom : data.length + pidSize = v.room (layout time)) :
    Cutting time v (((v.put (pid :: data)).turn (layout time)).mark (layout time)) pid data := by
  have hw' : (v.put (pid :: data)).Wf (layout time) := hw.put hp (by rw [← hroom, pidSize]; omega)
  have hends : EndsPacket time (v.packets.length + 1) (v.room (layout time)) data.length := by
    rw [← hroom]
    exact endsPacket_self _ _
  exact
    { supply := by
        rw [Pager.supply_mark rfl, Pager.supply_turn hw']
        exact (Pager.supply_put (L := layout time) hp data).le
      ends := fun _ => ⟨rfl, rfl⟩
      reads := fun _ _ _ _ hwait =>
        ⟨fun _ => (hwait.put rfl).overrun hw', fun hne => absurd hends hne⟩ }

/-- The packet ends before the data do. -/
theorem cutting_cut {n : ℕ} (hn : n + pidSize = v.room (layout time)) (hlt : n < data.length)
    {v' : Pager Byte}
    (hcut : Cutting time (((v.put (pid :: data.take n)).turn (layout time)).mark (layout time)) v' pid
      (data.drop n)) : Cutting time v v' pid data := by
  have hlen : (data.take n).length = n := List.length_take_of_le hlt.le
  have hw' : (v.put (pid :: data.take n)).Wf (layout time) :=
    hw.put hp (by rw [hlen, ← hn, pidSize]; omega)
  have hends : EndsPacket time (v.packets.length + 1) (v.room (layout time)) data.length ↔
      EndsPacket time (v.packets.length + 1 + 1) (continuedRoom time (v.packets.length + 1) + pidSize)
        (data.drop n).length := by
    rw [endsPacket_iff (by rw [← hn, pidSize]; omega) (by rw [← hn]; omega) (one_le_continuedRoom time _),
      ← hn, Nat.add_sub_cancel, List.length_drop]
  have hpackets : (((v.put (pid :: data.take n)).turn (layout time)).mark (layout time)).packets.length =
      v.packets.length + 1 := by
    simp [Pager.mark, Pager.turn, Pager.put]
  have hroom := room_mark_turn time (v.put (pid :: data.take n))
  have hput : (v.put (pid :: data.take n)).packets.length = v.packets.length := rfl
  obtain ⟨hsupply, hmarked, hreads⟩ := hcut
  rw [hpackets, hroom, hput] at hmarked hreads
  exact
    { supply := by
        have h1 := Pager.supply_put (L := layout time) (v := v) hp (data.take n)
        have h2 := weight_take_add_drop marks n data
        have h3 : (((v.put (pid :: data.take n)).turn (layout time)).mark (layout time)).payload =
          [PID.continuation] := rfl
        rw [Pager.supply_mark rfl, Pager.supply_turn hw', if_pos h3] at hsupply
        have h1 : (v.put (pid :: data.take n)).supply (layout time) +
            (if v.payload = [PID.continuation] then 1 else 0) =
              v.supply (layout time) + 1 + weight marks (data.take n) := h1
        omega
      ends := fun he => hmarked (hends.1 he)
      reads := fun ls rest done part hwait => by
        -- the next packet goes on with the block
        have hnext := hwait.cut hw hp (data.take n) (by rw [hlen, ← hn, pidSize]; omega)
          (by rw [hlen]; exact hlt)
        rw [hlen, ← List.length_drop] at hnext
        obtain ⟨h1, h2⟩ := hreads ls rest done (part ++ data.take n) hnext
        rw [List.append_assoc, List.take_append_drop] at h1 h2
        exact ⟨fun he => h1 (hends.1 he), fun he => h2 fun hd => he (hends.2 hd)⟩ }

end Cut

/-- **`WriteDataBiggerThanFrame`.** The loop ends with all data written. -/
theorem writeDataBiggerThanFrame_spec {pid : Byte} (hp : PID.Ordinary pid) {fuel : ℕ} :
    ∀ (data : List Byte) {s : ExperimentFile} {v : Pager Byte}, Represents time s v →
      2 ≤ v.room (layout time) → data ≠ [] → data.length < fuel →
        ∃ s' v', writeDataBiggerThanFrame pid fuel data s = some (.success, s') ∧
          Represents time s' v' ∧ Cutting time v v' pid data := by
  induction fuel with
  | zero => intro data s v _ _ _ hfuel; omega
  | succ fuel ih =>
    intro data s v h hroom hne hfuel
    have hpos : 0 < data.length := List.length_pos_iff.2 hne
    have hsub := h.writeSubpart pid data (by omega)
    have hdone : ∀ s', writeDataBiggerThanFrame pid fuel [] s' = some (.success, s') := by
      intro s'
      cases fuel with
      | zero => omega
      | succ fuel => rfl
    rw [writeDataBiggerThanFrame, if_pos hpos, hsub]
    rcases Nat.lt_trichotomy (data.length + pidSize) (v.room (layout time)) with hlt | heq | hgt
    · -- the last block, with room to spare
      have hmin : min data.length (v.room (layout time) - 1) = data.length := by
        simp only [pidSize] at hlt
        omega
      rw [hmin, List.take_length]
      have hput := h.put hp data (by simp only [pidSize] at hlt; omega)
      have hleft := hput.remainingSize
      rw [Pager.room_put, List.length_cons] at hleft
      dsimp only at hleft ⊢
      rw [if_neg (by rw [hleft]; simp only [pidSize] at hlt; omega), List.drop_length, hdone]
      exact ⟨_, _, rfl, hput, cutting_put hp hlt⟩
    · -- the last block fills the packet, which is written at once
      have hmin : min data.length (v.room (layout time) - 1) = data.length := by
        simp only [pidSize] at heq
        omega
      rw [hmin, List.take_length]
      have hput := h.put hp data (by simp only [pidSize] at heq; omega)
      have hleft := hput.remainingSize
      rw [Pager.room_put, List.length_cons] at hleft
      obtain ⟨s₁, hflush, h₁⟩ := hput.flush
      dsimp only at hleft ⊢
      rw [if_pos (by rw [hleft]; simp only [pidSize] at heq; omega), hflush, List.drop_length]
      dsimp only
      rw [hdone]
      exact ⟨_, _, rfl, h₁.mark, cutting_full hp h.wf heq⟩
    · -- a block that fills the packet, and the rest goes to the packets behind
      obtain ⟨n, hn⟩ : ∃ n, n + pidSize = v.room (layout time) :=
        ⟨v.room (layout time) - 1, by rw [pidSize]; omega⟩
      have hmin : min data.length (v.room (layout time) - 1) = n := by
        simp only [pidSize] at hn hgt
        omega
      have hlen : (data.take n).length = n :=
        List.length_take_of_le (by simp only [pidSize] at hn hgt; omega)
      rw [hmin]
      have hput := h.put hp (data.take n) (by rw [hlen, ← hn, pidSize]; omega)
      have hleft := hput.remainingSize
      rw [Pager.room_put, List.length_cons, hlen] at hleft
      obtain ⟨s₁, hflush, h₁⟩ := hput.flush
      dsimp only at hleft ⊢
      rw [if_pos (by rw [hleft, ← hn, pidSize]; omega), hflush]
      dsimp only
      have hroom₁ := room_mark_turn time (v.put (pid :: data.take n))
      have hk := one_le_continuedRoom time (v.packets.length + 1)
      have hput' : (v.put (pid :: data.take n)).packets.length = v.packets.length := rfl
      rw [hput'] at hroom₁
      simp only [pidSize] at hn hgt hroom₁
      obtain ⟨s', v', hloop, h', hcut⟩ := ih (data.drop n) h₁.mark (by rw [hroom₁]; omega)
        (by rw [← List.length_pos_iff, List.length_drop]; omega) (by rw [List.length_drop]; omega)
      exact ⟨s', v', hloop, h', cutting_cut hp h.wf hn (by omega) hcut⟩

/-! ## One call of `Write` -/

/-- The empty block that a full packet loses. -/
def LosesBlock (s : ExperimentFile) (data : List Byte) : Prop :=
  data = [] ∧ s.writer.remainingSize = 0

/-- The data do not fit into the packet, and cut into packets (from a new one on, if this
one holds something) they end exactly with the last of them. -/
def Overruns (s : ExperimentFile) (data : List Byte) : Prop :=
  s.writer.remainingSize < (data.length + pidSize : ℕ) ∧
    if s.hasPayloadInFrame then
      EndsPacket s.time (s.begun + 1) (packetLength - (header s.time s.begun).length) data.length
    else EndsPacket s.time s.begun s.writer.remainingSize.toNat data.length

/-- What a call of `Write` in the state `s` leads to, from the pager `v` to `v'`. -/
structure Writing (time : Option (ℕ → Option (BitVec 64))) (s : ExperimentFile) (v v' : Pager Byte)
    (b : Block Byte) : Prop where
  supply : v'.supply (layout time) ≤ v.supply (layout time) + blockWeight marks b
  less : Marked v ∨ s.LosesBlock b.data →
    v'.supply (layout time) < v.supply (layout time) + blockWeight marks b
  ends : s.Overruns b.data → Marked v'
  reads : ¬ s.LosesBlock b.data → ∀ ls rest done,
    v.Clean (layout time) ls (b.data.length :: rest) done →
      (s.Overruns b.data → v'.Overrun (layout time) ls rest (done ++ [b])) ∧
      (¬ s.Overruns b.data → v'.Clean (layout time) ls rest (done ++ [b]))

theorem blockWeight_of_ordinary {b : Block Byte} (hp : PID.Ordinary b.pid) :
    blockWeight marks b = 1 + weight marks b.data := by
  have hpad : b.pid ≠ marks.pad := hp.2.2
  rw [blockWeight, weight_cons, if_neg hpad]

/-- Padding twice is padding once. -/
theorem Represents.flush_fillBufferWithPadding (h : Represents time s v) :
    s.fillBufferWithPadding.flush = s.flush := by
  have hfull : s.fillBufferWithPadding.writer.remainingSize < 1 := by
    rw [h.fillBufferWithPadding.remainingSize, Pager.length_pack h.wf]
    simp [layout]
  have hfill : s.fillBufferWithPadding.fillBufferWithPadding = s.fillBufferWithPadding := by
    rw [ExperimentFile.fillBufferWithPadding, if_pos hfull]
  rw [ExperimentFile.flush, ExperimentFile.flush, ExperimentFile.flushInternal, hfill]
  rfl

theorem writing_of_fits {b : Block Byte} (hp : PID.Ordinary b.pid)
    (hfits : ((b.data.length + pidSize : ℕ) : ℤ) ≤ s.writer.remainingSize) :
    Writing time s v (v.put (b.pid :: b.data)) b := by
  have hput := Pager.supply_put (L := layout time) (v := v) hp b.data
  have hkeeps : ¬ s.LosesBlock b.data := by
    rintro ⟨-, h0⟩
    rw [h0, pidSize] at hfits
    omega
  have hover : ¬ s.Overruns b.data := by
    rintro ⟨hlt, -⟩
    omega
  have hweight := blockWeight_of_ordinary hp
  have hput : (v.put (b.pid :: b.data)).supply (layout time) +
      (if v.payload = [PID.continuation] then 1 else 0) =
        v.supply (layout time) + 1 + weight marks b.data := hput
  exact
    { supply := by omega
      less := by
        rintro (⟨-, hm⟩ | hl)
        · rw [if_pos hm] at hput
          omega
        · exact absurd hl hkeeps
      ends := fun ho => absurd ho hover
      reads := fun _ ls rest done hclean =>
        ⟨fun ho => absurd ho hover, fun _ => (hclean.waits hp).put rfl⟩ }

/-- **One call of `Write`.** -/
theorem write_spec (h : Represents time s v) {b : Block Byte} (hp : PID.Ordinary b.pid) :
    ∃ s' v', s.write b.pid b.data = some (.success, s') ∧ Represents time s' v' ∧
      Writing time s v v' b := by
  have hrem := h.remainingSize
  have hweight := blockWeight_of_ordinary hp
  by_cases hfits : ((b.data.length + pidSize : ℕ) : ℤ) ≤ s.writer.remainingSize
  · have hroom : 1 + b.data.length ≤ v.room (layout time) := by
      rw [hrem, pidSize] at hfits
      omega
    refine ⟨_, _, ?_, h.put hp b.data hroom, writing_of_fits hp hfits⟩
    rw [write, if_pos hfits]
  have hlt : v.room (layout time) < b.data.length + pidSize := by
    rw [hrem] at hfits
    omega
  cases hd : v.dirty with
  | true =>
    -- the packet is turned first
    obtain ⟨s₁, hflush, h₁⟩ := h.flush
    have hwrite : s.write b.pid b.data =
        (writeDataBiggerThanFrame b.pid (b.data.length + 2) b.data s₁).map fun r => (.success, r.2) := by
      rw [write, if_neg hfits, h.dirty, hd, if_pos rfl, h.flush_fillBufferWithPadding, hflush]
    have hroom₁ := Pager.room_turn (L := layout time) v
    have hroom₁' : (v.turn (layout time)).room (layout time) =
        packetLength - (header s.time s.begun).length := by
      simp [Pager.room, Pager.current, Pager.turn, layout, h.clock, h.begun]
    have hover : s.Overruns b.data ↔ EndsPacket time ((v.turn (layout time)).packets.length + 1)
        ((v.turn (layout time)).room (layout time)) b.data.length := by
      have hb : (v.turn (layout time)).packets.length + 1 = s.begun + 1 := by
        simp [Pager.turn, h.begun]
      have hlt' : s.writer.remainingSize < (b.data.length + pidSize : ℕ) := not_le.1 hfits
      rw [Overruns, h.dirty, hd, if_pos rfl, ← hroom₁', h.clock, hb]
      exact and_iff_right hlt'
    by_cases hdata : b.data = []
    · have hlost : s.LosesBlock b.data := by
        refine ⟨hdata, ?_⟩
        rw [hdata, List.length_nil, pidSize] at hlt
        rw [hrem]
        omega
      have hnot : ¬ s.Overruns b.data := by
        rw [hover, hdata]
        exact not_endsPacket_of_empty (by omega)
      refine ⟨s₁, _, ?_, h₁, ?_⟩
      · rw [hwrite, hdata]
        rfl
      · have hsupply := Pager.supply_turn h.wf
        exact
          { supply := by rw [hsupply]; omega
            less := fun _ => by rw [hsupply]; omega
            ends := fun ho => absurd ho hnot
            reads := fun hkeeps => absurd hlost hkeeps }
    · obtain ⟨s', v', hloop, h', hcut⟩ := writeDataBiggerThanFrame_spec hp b.data h₁
        (by omega) hdata (Nat.lt_add_of_pos_right Nat.two_pos)
      refine ⟨s', v', by rw [hwrite, hloop, Option.map_some], h', ?_⟩
      have hsupply := hcut.supply
      rw [Pager.supply_turn h.wf, if_neg (by simp [Pager.turn])] at hsupply
      exact
        { supply := by omega
          less := by
            rintro (⟨hm, -⟩ | ⟨hl, -⟩)
            · rw [hd] at hm
              exact Bool.noConfusion hm
            · exact absurd hl hdata
          ends := fun ho => hcut.ends (hover.1 ho)
          reads := fun _ ls rest done hclean => by
            obtain ⟨h1, h2⟩ := hcut.reads ls rest done [] ((hclean.turn h.wf).waits hp)
            exact ⟨fun ho => h1 (hover.1 ho), fun ho => h2 fun he => ho (hover.2 he)⟩ }
  | false =>
    have hroom := h.fresh hd
    have hdata : b.data ≠ [] := by
      intro hnil
      rw [hnil, List.length_nil, pidSize] at hlt
      omega
    have hwrite : s.write b.pid b.data =
        (writeDataBiggerThanFrame b.pid (b.data.length + 2) b.data s).map fun r => (.success, r.2) := by
      rw [write, if_neg hfits, h.dirty, hd, if_neg Bool.false_ne_true]
    have hover : s.Overruns b.data ↔ EndsPacket time (v.packets.length + 1)
        (v.room (layout time)) b.data.length := by
      have hlt' : s.writer.remainingSize < (b.data.length + pidSize : ℕ) := not_le.1 hfits
      rw [Overruns, h.dirty, hd, if_neg Bool.false_ne_true, h.clock, h.begun]
      rw [hrem] at hlt' ⊢
      exact and_iff_right hlt'
    obtain ⟨s', v', hloop, h', hcut⟩ := writeDataBiggerThanFrame_spec hp b.data h
      hroom hdata (Nat.lt_add_of_pos_right Nat.two_pos)
    refine ⟨s', v', by rw [hwrite, hloop, Option.map_some], h', ?_⟩
    have hsupply := hcut.supply
    exact
      { supply := by omega
        less := by
          rintro (⟨-, hm⟩ | ⟨hl, -⟩)
          · rw [if_pos hm] at hsupply
            omega
          · exact absurd hl hdata
        ends := fun ho => hcut.ends (hover.1 ho)
        reads := fun _ ls rest done hclean => by
          obtain ⟨h1, h2⟩ := hcut.reads ls rest done [] (hclean.waits hp)
          exact ⟨fun ho => h1 (hover.1 ho), fun ho => h2 fun he => ho (hover.2 he)⟩ }

/-! ## Sequences of calls -/

theorem writeAll_cons {b : Block Byte} {bs : List (Block Byte)} {t : ExperimentFile}
    (h : s.write b.pid b.data = some (.success, t)) : s.writeAll (b :: bs) = t.writeAll bs := by
  rw [writeAll, h]

theorem writeAll_append {pre post : List (Block Byte)} {t : ExperimentFile}
    (h : s.writeAll pre = some (.success, t)) : s.writeAll (pre ++ post) = t.writeAll post := by
  induction pre generalizing s with
  | nil =>
    obtain rfl : s = t := by
      rw [writeAll] at h
      exact (Prod.mk.inj (Option.some.inj h)).2
    rfl
  | cons b pre ih =>
    cases hw : s.write b.pid b.data with
    | none =>
      rw [writeAll, hw] at h
      cases h
    | some r =>
      obtain ⟨result, u⟩ := r
      cases result with
      | success =>
        rw [writeAll_cons hw] at h
        rw [List.cons_append, writeAll_cons hw, ih h]
      | failed code =>
        rw [writeAll, hw] at h
        cases h

/-- No call loses its block, and none but the last leaves a continuation mark behind. -/
def Faultless (s : ExperimentFile) (blocks : List (Block Byte)) : Prop :=
  ∀ pre b post, blocks = pre ++ b :: post → ∀ t, s.writeAll pre = some (.success, t) →
    ¬ t.LosesBlock b.data ∧ (post ≠ [] → ¬ t.Overruns b.data)

theorem Faultless.head {b : Block Byte} {bs : List (Block Byte)} (h : s.Faultless (b :: bs)) :
    ¬ s.LosesBlock b.data ∧ (bs ≠ [] → ¬ s.Overruns b.data) := h [] b bs rfl s rfl

theorem Faultless.tail {b : Block Byte} {bs : List (Block Byte)} (h : s.Faultless (b :: bs))
    {t : ExperimentFile} (ht : s.write b.pid b.data = some (.success, t)) : t.Faultless bs := by
  intro pre c post heq u hu
  exact h (b :: pre) c post (by rw [heq, List.cons_append]) u (by rw [writeAll_cons ht, hu])

/-- What is supplied grows by no more than what is written, and by less behind a mark. -/
theorem writeAll_supply (h : Represents time s v) {blocks : List (Block Byte)}
    (hp : ∀ b ∈ blocks, PID.Ordinary b.pid) :
    ∃ s' v', s.writeAll blocks = some (.success, s') ∧ Represents time s' v' ∧
      v'.supply (layout time) ≤ v.supply (layout time) + blocksWeight marks blocks ∧
      (Marked v → blocks ≠ [] →
        v'.supply (layout time) < v.supply (layout time) + blocksWeight marks blocks) := by
  induction blocks generalizing s v with
  | nil => exact ⟨s, v, rfl, h, le_rfl, fun _ hne => absurd rfl hne⟩
  | cons b bs ih =>
    obtain ⟨s₁, v₁, hwrite, h₁, hw⟩ := write_spec h (hp b List.mem_cons_self)
    obtain ⟨s', v', hall, h', hle, -⟩ := ih h₁ fun c hc => hp c (List.mem_cons_of_mem b hc)
    have hsum : blocksWeight marks (b :: bs) = blockWeight marks b + blocksWeight marks bs := by
      simp [blocksWeight]
    have hle₁ := hw.supply
    refine ⟨s', v', by rw [writeAll_cons hwrite, hall], h', by omega, fun hm _ => ?_⟩
    have hlt := hw.less (.inl hm)
    omega

/-- A fault costs supply. -/
theorem supply_lt_of_not_faultless (h : Represents time s v) {blocks : List (Block Byte)}
    (hp : ∀ b ∈ blocks, PID.Ordinary b.pid) (hf : ¬ s.Faultless blocks) :
    ∃ s' v', s.writeAll blocks = some (.success, s') ∧ Represents time s' v' ∧
      v'.supply (layout time) < v.supply (layout time) + blocksWeight marks blocks := by
  simp only [Faultless, not_forall] at hf
  obtain ⟨pre, b, post, rfl, t, ht, hbad⟩ := hf
  obtain ⟨t', v₁, ht', h₁, hle₁, -⟩ :=
    writeAll_supply h fun c hc => hp c (List.mem_append_left _ hc)
  obtain rfl : t = t' := by
    rw [ht] at ht'
    exact (Prod.mk.inj (Option.some.inj ht')).2
  obtain ⟨s₂, v₂, hwrite, h₂, hw⟩ := write_spec h₁ (hp b (by simp))
  obtain ⟨s', v', hall, h', hle, hlt⟩ :=
    writeAll_supply h₂ fun c (hc : c ∈ post) => hp c (by simp [hc])
  have hsum : blocksWeight marks (pre ++ b :: post) =
      blocksWeight marks pre + (blockWeight marks b + blocksWeight marks post) := by
    simp [blocksWeight]
  have hle₂ := hw.supply
  refine ⟨s', v', by rw [writeAll_append ht, writeAll_cons hwrite, hall], h', ?_⟩
  by_cases hlost : t.LosesBlock b.data
  · have hless := hw.less (.inr hlost)
    omega
  · -- the mark costs the next block its identifier
    have hover : post ≠ [] ∧ t.Overruns b.data := by
      by_contra hno
      exact hbad ⟨hlost, fun hne ho => hno ⟨hne, ho⟩⟩
    have hless := hlt (hw.ends hover.2) hover.1
    omega

/-- **Without a fault the reader follows.** -/
theorem writeAll_reads (h : Represents time s v) {blocks : List (Block Byte)}
    (hp : ∀ b ∈ blocks, PID.Ordinary b.pid) (hf : s.Faultless blocks) {ls : List ℕ}
    {done : List (Block Byte)}
    (hclean : v.Clean (layout time) ls (blocks.map fun b => b.data.length) done) :
    ∃ s' v', s.writeAll blocks = some (.success, s') ∧ Represents time s' v' ∧
      (v'.Clean (layout time) ls [] (done ++ blocks) ∨
        v'.Overrun (layout time) ls [] (done ++ blocks)) := by
  induction blocks generalizing s v done with
  | nil => exact ⟨s, v, rfl, h, .inl (by rwa [List.append_nil])⟩
  | cons b bs ih =>
    obtain ⟨s₁, v₁, hwrite, h₁, hw⟩ := write_spec h (hp b List.mem_cons_self)
    obtain ⟨hkeeps, hover⟩ := hf.head
    obtain ⟨hmark, hgo⟩ := hw.reads hkeeps ls _ done hclean
    by_cases ho : s.Overruns b.data
    · -- this is the last block
      obtain rfl : bs = [] := by
        by_contra hne
        exact hover hne ho
      exact ⟨s₁, v₁, by rw [writeAll_cons hwrite]; rfl, h₁, .inr (hmark ho)⟩
    · obtain ⟨s', v', hall, h', hread⟩ :=
        ih h₁ (fun c hc => hp c (List.mem_cons_of_mem b hc)) (hf.tail hwrite) (hgo ho)
      rw [List.append_assoc, List.singleton_append] at hread
      exact ⟨s', v', by rw [writeAll_cons hwrite, hall], h', hread⟩

/-! ## Whole files -/

/-- The file after `Open`, the calls of `Write` and `Close`. -/
def record (time : Option (ℕ → Option (BitVec 64))) (file : File) (blocks : List (Block Byte)) :
    Option (List Byte) :=
  match (openFile time file).writeAll blocks with
  | some (.success, s) => some s.close.2.file.content
  | _ => none

/-- **The file is made of packets that begin with the Synchronization PID, and it reads back
as the blocks that were written.** -/
def Recovered (time : Option (ℕ → Option (BitVec 64))) (file : File) (blocks : List (Block Byte)) :
    Prop :=
  ∃ content, record time file blocks = some content ∧
    (∃ packets : List (List Byte), content = packets.flatten ∧
      ∀ p ∈ packets, p.length = packetLength ∧ p.head? = some PID.synchronization) ∧
    readFile (blocks.map fun b => b.data.length) content = some blocks

/-- `Close` finishes the last packet. -/
theorem Represents.close (h : Represents time s v) :
    s.close.2.file.content = (v.finished (layout time)).flatten := by
  rw [ExperimentFile.close, Pager.finished, h.dirty]
  cases v.dirty with
  | true =>
    rw [if_pos rfl, if_pos rfl, h.flushInternal false, List.flatten_append, List.flatten_singleton,
      ← h.content]
    rfl
  | false =>
    rw [if_neg Bool.false_ne_true, if_neg Bool.false_ne_true]
    exact h.content

theorem finished_packets (h : Represents time s v) :
    ∀ p ∈ v.finished (layout time), p.length = packetLength ∧ p.head? = some PID.synchronization := by
  intro p hp
  obtain ⟨hlen, k, xs, hk⟩ := h.wf.finished p hp
  refine ⟨hlen, ?_⟩
  rw [← hk]
  rfl

theorem readFile_close (h : Represents time s v) (ls : List ℕ) :
    readFile ls s.close.2.file.content = read marks ls (v.finished (layout time)) := by
  rw [readFile, h.close, Chunks.pieces_flatten (by decide) fun p hp => (finished_packets h p hp).1]

theorem record_eq {file : File} {blocks : List (Block Byte)} {s' : ExperimentFile}
    (h : (openFile time file).writeAll blocks = some (.success, s')) :
    record time file blocks = some s'.close.2.file.content := by
  rw [record, h]

variable {file : File} {blocks : List (Block Byte)}

theorem recovered_of_faultless (hc : file.content = []) (hr : ∀ k, file.results k = .success)
    (hp : ∀ b ∈ blocks, PID.Ordinary b.pid) (hf : (openFile time file).Faultless blocks) :
    Recovered time file blocks := by
  obtain ⟨s', v', hall, h', hread⟩ :=
    writeAll_reads (represents_openFile hc hr) hp hf Pager.clean_nil
  refine ⟨_, record_eq hall, ⟨_, h'.close, finished_packets h'⟩, ?_⟩
  rw [readFile_close h']
  rcases hread with hclean | hover
  · exact hclean.read_finished h'.wf
  · exact hover.read_finished

theorem not_recovered_of_not_faultless (hc : file.content = []) (hr : ∀ k, file.results k = .success)
    (hp : ∀ b ∈ blocks, PID.Ordinary b.pid) (hf : ¬ (openFile time file).Faultless blocks) :
    ¬ Recovered time file blocks := by
  rintro ⟨content, hrecord, -, hread⟩
  obtain ⟨s', v', hall, h', hlt⟩ :=
    supply_lt_of_not_faultless (represents_openFile hc hr) hp hf
  obtain rfl : s'.close.2.file.content = content := by
    rw [record_eq hall] at hrecord
    exact Option.some.inj hrecord
  rw [readFile_close h'] at hread
  have hweight := weight_le_of_read marks hread
  have hsupply : packetsSupply marks (v'.finished (layout time)) ≤ v'.supply (layout time) :=
    Pager.supply_finished_le h'.wf
  have hzero : (⟨[], [], false⟩ : Pager Byte).supply (layout time) = 0 := rfl
  rw [hzero] at hlt
  omega

/-- **A file reads back exactly when no call was faulty.** -/
theorem recovered_iff (hc : file.content = []) (hr : ∀ k, file.results k = .success)
    (hp : ∀ b ∈ blocks, PID.Ordinary b.pid) :
    Recovered time file blocks ↔
      ∀ pre b post, blocks = pre ++ b :: post →
        ∀ s, (openFile time file).writeAll pre = some (.success, s) →
          ¬ s.LosesBlock b.data ∧ (post ≠ [] → ¬ s.Overruns b.data) := by
  constructor
  · intro h
    by_contra hf
    exact not_recovered_of_not_faultless hc hr hp hf h
  · intro hf
    exact recovered_of_faultless hc hr hp hf

/-- An empty file on a file system that works. -/
def emptyFile : File := ⟨[], 0, fun _ => .success, .success⟩

/-- Two small blocks, under a clock that knows the time in every other packet. -/
theorem recovered_iff_small :
    Recovered (some fun k => if k % 2 = 0 then some 7 else none) emptyFile [⟨0x10, [1, 2]⟩, ⟨0x41, []⟩] ↔
      ∀ pre b post, [⟨0x10, [1, 2]⟩, ⟨0x41, []⟩] = pre ++ b :: post →
        ∀ s, (openFile (some fun k => if k % 2 = 0 then some 7 else none) emptyFile).writeAll pre =
            some (.success, s) →
          ¬ s.LosesBlock b.data ∧ (post ≠ [] → ¬ s.Overruns b.data) :=
  recovered_iff rfl (fun _ => rfl) (by decide)

/-- A block that fills its packet, and an empty one. -/
def fullThenEmpty : List (Block Byte) := [⟨0x20, List.replicate 228 5⟩, ⟨0x41, []⟩]

/-- A block that fills its packet after another, and one more. -/
def exactThenNext : List (Block Byte) := [⟨0x41, [5]⟩, ⟨0x20, List.replicate 228 5⟩, ⟨0x41, [1]⟩]

/-- **The empty block is lost; a continuation mark stands before a new block.** -/
theorem blocks_not_recovered :
    (∀ b ∈ fullThenEmpty ++ exactThenNext, PID.Ordinary b.pid) ∧
      ¬ Recovered none emptyFile fullThenEmpty ∧ ¬ Recovered none emptyFile exactThenNext := by
  refine ⟨by decide, ?_, ?_⟩
  · rintro ⟨content, hrecord, -, hread⟩
    have h : (record none emptyFile fullThenEmpty).bind
        (readFile (fullThenEmpty.map fun b => b.data.length)) ≠ some fullThenEmpty := by
      decide +kernel
    rw [hrecord] at h
    exact h hread
  · rintro ⟨content, hrecord, -, hread⟩
    have h : (record none emptyFile exactThenNext).bind
        (readFile (exactThenNext.map fun b => b.data.length)) ≠ some exactThenNext := by
      decide +kernel
    rw [hrecord] at h
    exact h hread

end ExperimentFile

end PWSat2OBC
