import PWSat2OBC.Spec.WriterRuns

/-!
# Writes stay inside the buffer

`performed` says once what every operation does: the check with the size of its bytes, then the
bytes stored where the writer stands. `clean_iff`: in a session that is still inside its buffer
the next write is clean exactly if it is safe. Clean writes keep the session inside
(`Inside.step`), so a run of safe writes is clean throughout (`writes_clean`).

The check takes the size as a `uint8_t`: an array of 256 bytes passes it wherever the writer
stands (`array_behind_buffer`).
-/

namespace PWSat2OBC

namespace Writer

variable {w : Writer} {n : ℕ}

/-! ## The check -/

@[simp] theorem updateState_buffer (w : Writer) (n : ℕ) : (w.updateState n).buffer = w.buffer := by
  unfold updateState
  split <;> rfl

@[simp] theorem updateState_position (w : Writer) (n : ℕ) : (w.updateState n).position = w.position := by
  unfold updateState
  split <;> rfl

theorem updateState_isValid (w : Writer) (n : ℕ) : (w.updateState n).isValid = true ↔
    w.isValid = true ∧ w.position + n % 2 ^ 8 ≤ w.buffer.length := by
  unfold updateState
  by_cases hvalid : w.isValid = true
  · rw [if_pos hvalid, decide_eq_true_iff]
    exact ⟨fun h => ⟨hvalid, h⟩, fun h => h.2⟩
  · rw [if_neg hvalid]
    exact ⟨fun h => absurd h hvalid, fun h => h.1⟩

/-- A check that succeeds changes nothing. -/
theorem updateState_eq_self (h : (w.updateState n).isValid = true) : w.updateState n = w := by
  have hvalid := ((updateState_isValid w n).1 h).1
  rw [← hvalid] at h
  calc w.updateState n = ⟨(w.updateState n).buffer, (w.updateState n).position, (w.updateState n).isValid⟩ := rfl
    _ = w := by rw [h, updateState_buffer, updateState_position]

/-! ## Bytes stored -/

variable {xs ys : List Byte}

theorem length_store (h : w.position + xs.length ≤ w.buffer.length) :
    (w.store xs).buffer.length = w.buffer.length := by
  simp only [store, List.length_append, List.length_take, List.length_drop]
  omega

theorem store_position (h : w.position + xs.length < 2 ^ 16) :
    (w.store xs).position = w.position + xs.length := Nat.mod_eq_of_lt h

theorem capture_store (hle : w.position ≤ w.buffer.length) (h : w.position + xs.length < 2 ^ 16) :
    (w.store xs).capture = w.capture ++ xs := by
  have hlen : (w.buffer.take w.position ++ xs).length = w.position + xs.length := by
    rw [List.length_append, List.length_take, Nat.min_eq_left hle]
  rw [capture, store_position h, store, ← hlen]
  exact List.take_left

theorem drop_store (hle : w.position ≤ w.buffer.length) :
    (w.store xs).buffer.drop (w.position + xs.length) = w.buffer.drop (w.position + xs.length) := by
  have hlen : (w.buffer.take w.position ++ xs).length = w.position + xs.length := by
    rw [List.length_append, List.length_take, Nat.min_eq_left hle]
  rw [store]
  exact List.drop_left' hlen

/-- Bytes stored one after the other. -/
theorem store_store (hle : w.position ≤ w.buffer.length)
    (h : w.position + (xs.length + ys.length) < 2 ^ 16) : (w.store xs).store ys = w.store (xs ++ ys) := by
  have hpos : (w.store xs).position = w.position + xs.length := store_position (by omega)
  have htake : (w.store xs).buffer.take (w.store xs).position = w.buffer.take w.position ++ xs :=
    capture_store hle (by omega)
  have hdrop : (w.store xs).buffer.drop ((w.store xs).position + ys.length) =
      w.buffer.drop (w.position + (xs ++ ys).length) := by
    rw [hpos, ← List.drop_drop, drop_store hle, List.drop_drop, List.length_append, Nat.add_assoc]
  rw [store, htake, hdrop, hpos]
  simp only [store, List.append_assoc, List.length_append, Nat.add_assoc]

@[simp] theorem storeLowerBytes_isValid (number : BitVec 32) (n : ℕ) (w : Writer) :
    (storeLowerBytes number n w).isValid = w.isValid := by
  induction n generalizing w with
  | zero => rfl
  | succ n ih => exact ih _

theorem storeLowerBytes_position (number : BitVec 32) (n : ℕ) {w : Writer} (h : w.position < 2 ^ 16) :
    (storeLowerBytes number n w).position = (w.position + n) % 2 ^ 16 := by
  induction n generalizing w with
  | zero => exact (Nat.mod_eq_of_lt h).symm
  | succ n ih =>
    have hnext : (w.store [number.extractLsb' (8 * n) 8]).position = (w.position + 1) % 2 ^ 16 := rfl
    rw [storeLowerBytes, ih (by rw [hnext]; exact Nat.mod_lt _ (by decide)), hnext, Nat.mod_add_mod]
    congr 1
    omega

/-- Byte after byte is the same as all at once. -/
theorem storeLowerBytes_eq (number : BitVec 32) (n : ℕ) {w : Writer}
    (hle : w.position + n ≤ w.buffer.length) (h : w.position + n < 2 ^ 16) :
    storeLowerBytes number n w = w.store (Endian.big n number.toNat) := by
  induction n generalizing w with
  | zero =>
    have hnil : (Endian.big 0 number.toNat : List Byte) = [] := rfl
    rw [hnil, storeLowerBytes, store, List.length_nil, Nat.add_zero, List.append_nil, List.take_append_drop,
      Nat.mod_eq_of_lt (by omega)]
  | succ n ih =>
    have hpos : (w.store [number.extractLsb' (8 * n) 8]).position = w.position + 1 := by
      apply store_position
      rw [List.length_singleton]
      omega
    have hlen : (w.store [number.extractLsb' (8 * n) 8]).buffer.length = w.buffer.length := by
      apply length_store
      rw [List.length_singleton]
      omega
    rw [storeLowerBytes, ih (by rw [hpos, hlen]; omega) (by rw [hpos]; omega), store_store (by omega) (by
      rw [List.length_singleton, Endian.length_big]
      omega), Endian.extractLsb'_eq, Endian.big_succ]
    rfl

end Writer

/-! ## What an operation does -/

open WriterOp in
/-- The operations ask for the size of their bytes and store these where the writer stands. -/
structure WriterOp.Performed (w : Writer) (op : WriterOp) : Prop where
  status : (op.perform w).1 = (op.perform w).2.isValid
  checked : (op.perform w).1 = (w.updateState (op.encoding w).length).isValid
  position : (op.perform w).1 = true →
    (op.perform w).2.position = (w.position + (op.encoding w).length) % 2 ^ 16
  stored : (op.perform w).1 = true → w.position + (op.encoding w).length ≤ w.buffer.length →
    w.position + (op.encoding w).length < 2 ^ 16 → (op.perform w).2 = w.store (op.encoding w)
  buffer : (op.perform w).1 = false → (op.perform w).2.buffer = w.buffer
  stays : (op.perform w).1 = false → (op.reserved w).2 = 0 → (op.perform w).2.position = w.position

namespace WriterOp

variable {w : Writer} {op : WriterOp}

/-- **The common shape of the operations**: what is stored after the check succeeded. -/
theorem performed_of_check {stored : Writer → Writer}
    (h : op.perform w = if (w.updateState (op.encoding w).length).isValid then
      (true, stored (w.updateState (op.encoding w).length)) else (false, w.updateState (op.encoding w).length))
    (hvalid : (stored w).isValid = w.isValid)
    (hposition : (stored w).position = (w.position + (op.encoding w).length) % 2 ^ 16)
    (hstored : w.position + (op.encoding w).length ≤ w.buffer.length →
      w.position + (op.encoding w).length < 2 ^ 16 → stored w = w.store (op.encoding w)) : op.Performed w := by
  by_cases hcheck : (w.updateState (op.encoding w).length).isValid = true
  · have hsame := hcheck
    rw [Writer.updateState_eq_self hcheck] at hsame
    rw [if_pos hcheck, Writer.updateState_eq_self hcheck] at h
    constructor <;> rw [h]
    · exact (hvalid.trans hsame).symm
    · exact hcheck.symm
    · exact fun _ => hposition
    · exact fun _ => hstored
    · exact fun hfalse => absurd hfalse Bool.false_ne_true.symm
    · exact fun hfalse => absurd hfalse Bool.false_ne_true.symm
  · rw [if_neg hcheck] at h
    rw [Bool.not_eq_true] at hcheck
    constructor <;> rw [h]
    · exact hcheck.symm
    · exact hcheck.symm
    · exact fun htrue => absurd htrue Bool.false_ne_true
    · exact fun htrue => absurd htrue Bool.false_ne_true
    · exact fun _ => Writer.updateState_buffer w _
    · exact fun _ _ => Writer.updateState_position w _

theorem performed_of_write (h : op.perform w = w.write (op.encoding w)) : op.Performed w :=
  @performed_of_check w op (fun w' => w'.store (op.encoding w)) h rfl rfl fun _ _ => rfl

theorem performed_writeLowerBytesBE (number : BitVec 32) (bytesCount : Fin 5) (h16 : w.position < 2 ^ 16) :
    (writeLowerBytesBE number bytesCount).Performed w := by
  have hlen : (encoding w (writeLowerBytesBE number bytesCount)).length = bytesCount := Endian.length_big _ _
  have hperform : perform w (writeLowerBytesBE number bytesCount) =
      if (w.updateState bytesCount).isValid then
        (true, Writer.storeLowerBytes number bytesCount (w.updateState bytesCount))
      else (false, w.updateState bytesCount) := rfl
  rw [← hlen] at hperform
  apply performed_of_check hperform
  · exact Writer.storeLowerBytes_isValid number _ w
  · exact Writer.storeLowerBytes_position number _ h16
  · intro hfits hsmall
    rw [Writer.storeLowerBytes_eq number _ hfits hsmall, hlen]
    rfl

/-- A span that is reserved is kept as it is found; the writer moves behind it in any case. -/
theorem performed_reserve (count : ℕ) (h16 : w.position < 2 ^ 16) : (reserve count).Performed w := by
  have hlen : (encoding w (reserve count)).length = min count (w.buffer.length - w.position) := by
    rw [encoding, List.length_take, List.length_drop]
  have hbuffer : (perform w (reserve count)).2.buffer = w.buffer := Writer.updateState_buffer w _
  have hposition : (perform w (reserve count)).2.position =
      (w.position + min count (w.buffer.length - w.position)) % 2 ^ 16 := by
    rw [perform, Writer.reserve]
    dsimp only
    rw [Writer.updateState_position]
  have hvalid : (perform w (reserve count)).1 =
      (w.updateState (encoding w (reserve count)).length).isValid := by
    rw [hlen]
    rfl
  refine ⟨rfl, hvalid, fun _ => ?_, fun hsuccess hfits hsmall => ?_, fun _ => hbuffer, fun _ hnone => ?_⟩
  · rw [hposition, hlen]
  · have hsame : (perform w (reserve count)).2.isValid = w.isValid :=
      hsuccess.trans ((Writer.updateState_isValid w _).1 (hvalid.symm.trans hsuccess)).1.symm
    have hkeep : w.buffer.take w.position ++ encoding w (reserve count) ++
        w.buffer.drop (w.position + (encoding w (reserve count)).length) = w.buffer := by
      rw [hlen, encoding, List.append_assoc, ← List.drop_drop]
      have htake : (w.buffer.drop w.position).take count =
          (w.buffer.drop w.position).take (min count (w.buffer.length - w.position)) := by
        rw [← List.length_drop, ← List.take_take, List.take_length]
      rw [htake, List.take_append_drop, List.take_append_drop]
    calc (perform w (reserve count)).2
        = ⟨(perform w (reserve count)).2.buffer, (perform w (reserve count)).2.position,
          (perform w (reserve count)).2.isValid⟩ := rfl
      _ = w.store (encoding w (reserve count)) := by rw [hbuffer, hposition, hsame, ← hlen, Writer.store, hkeep]
  · have hzero : min count (w.buffer.length - w.position) = 0 := hnone
    rw [hposition, hzero, Nat.add_zero, Nat.mod_eq_of_lt h16]

theorem performed (op : WriterOp) (h16 : w.position < 2 ^ 16) : op.Performed w := by
  cases op with
  | writeByte byte => exact performed_of_write rfl
  | writeByteBCD value =>
    apply performed_of_write
    have hunits : value.toNat % 10 < 2 ^ 4 := by omega
    have hbcd : (value.toNat / 10) <<< 4 ||| value.toNat % 10 =
        16 * (value.toNat / 10) + value.toNat % 10 := by
      rw [Nat.shiftLeft_eq, Nat.mul_comm]
      exact (Nat.two_pow_add_eq_or_of_lt hunits _).symm
    exact congrArg (fun v => w.write [BitVec.ofNat 8 v]) hbcd
  | writeWordLE word => exact performed_of_write (congrArg w.write (Endian.map_extractLsb' word 2))
  | writeSignedWordLE word => exact performed_of_write (congrArg w.write (Endian.map_extractLsb' word 2))
  | writeWordBE word =>
    exact performed_of_write (congrArg (fun bytes : List Byte => w.write bytes.reverse)
      (Endian.map_extractLsb' word 2))
  | writeDoubleWordLE word => exact performed_of_write (congrArg w.write (Endian.map_extractLsb' word 4))
  | writeSignedDoubleWordLE dword => exact performed_of_write (congrArg w.write (Endian.map_extractLsb' dword 4))
  | writeQuadWordLE word => exact performed_of_write (congrArg w.write (Endian.map_extractLsb' word 8))
  | writeLowerBytesBE number bytesCount => exact performed_writeLowerBytesBE number bytesCount h16
  | writeArray buffer => exact performed_of_write rfl
  | fill value =>
    have hsize : w.remainingSize.toNat = w.buffer.length - w.position := Int.toNat_sub _ _
    exact performed_of_write (congrArg (fun n => w.write (List.replicate n value)) hsize)
  | reserve count => exact performed_reserve count h16

/-- What is reserved has room. -/
theorem reserved_le (op : WriterOp) (hle : w.position ≤ w.buffer.length) :
    (op.reserved w).1 + (op.reserved w).2 ≤ w.buffer.length ∧
      ((op.reserved w).2 ≠ 0 → w.position + (op.encoding w).length ≤ w.buffer.length) := by
  cases op with
  | reserve count =>
    have hspan : (reserve count).reserved w = (w.position, min count (w.buffer.length - w.position)) := rfl
    rw [hspan, encoding, List.length_take, List.length_drop]
    dsimp only
    omega
  | _ => exact ⟨hle, fun hne => absurd rfl hne⟩

end WriterOp

/-! ## Sessions -/

namespace WriterSession

open Runs

/-- A session over a buffer of `n` bytes that has stayed inside it. -/
structure Inside (s : WriterSession) (n : ℕ) : Prop where
  length : s.writer.buffer.length = n
  inside : s.writer.position ≤ n
  small : s.writer.position < 2 ^ 16
  valid : s.writer.isValid = true ↔ s.failed = false ∧ n ≠ 0

variable {s t : WriterSession} {n : ℕ} {op : WriterOp}

theorem inside_restart (w : Writer) : Inside ⟨w.reset, false⟩ w.buffer.length where
  length := rfl
  inside := Nat.zero_le _
  small := Nat.two_pow_pos 16
  valid := by
    have hvalid : w.reset.isValid = !w.buffer.isEmpty := rfl
    rw [hvalid]
    cases hbuffer : w.buffer <;> simp

/-- The check lets a write through that has room. -/
theorem Inside.success_iff (h : s.Inside n) : (op.perform s.writer).1 = true ↔
    s.writer.isValid = true ∧
      s.writer.position + (op.encoding s.writer).length % 2 ^ 8 ≤ s.writer.buffer.length := by
  rw [(WriterOp.performed op h.small).checked, Writer.updateState_isValid]

/-- A write of a session that is inside, and is not let through, leaves it as it was. -/
theorem Inside.clean_of_failed (h : s.Inside n) (hfailed : (op.perform s.writer).1 = false)
    (hnone : (op.reserved s.writer).2 = 0) (hunfit : s.failed = false → ¬ s.Fits op) : s.Clean op := by
  have hop := WriterOp.performed op h.small
  have hbuffer := hop.buffer hfailed
  have hposition := hop.stays hfailed hnone
  have hin := h.inside
  rw [← h.length] at hin
  have hne : ¬ (op.perform s.writer).1 = true := by rw [hfailed]; exact Bool.false_ne_true
  refine ⟨by rw [hbuffer], by rwa [hposition], fun htrue => absurd htrue hne, (WriterOp.reserved_le op hin).1, ?_,
    fun htrue => absurd htrue hne, fun _ => ⟨hbuffer, hposition, hnone⟩⟩
  exact ⟨fun htrue => absurd htrue hne, fun hfits => absurd hfits.2 (hunfit hfits.1)⟩

/-- A write with room that ends below `2 ^ 16` appends its bytes. -/
theorem Inside.clean_of_fits (h : s.Inside n) (hvalid : s.writer.isValid = true) (hfits : s.Fits op)
    (hsmall : s.writer.position + (op.encoding s.writer).length < 2 ^ 16) : s.Clean op := by
  have hop := WriterOp.performed op h.small
  have hin := h.inside
  rw [← h.length] at hin
  have hmod := Nat.mod_le (op.encoding s.writer).length (2 ^ 8)
  have hroom : s.writer.position + (op.encoding s.writer).length ≤ s.writer.buffer.length := hfits
  have hsuccess : (op.perform s.writer).1 = true := h.success_iff.2 ⟨hvalid, by omega⟩
  have hstored := hop.stored hsuccess hroom hsmall
  have hposition := Writer.store_position hsmall
  refine ⟨?_, ?_, fun _ => ?_, (WriterOp.reserved_le op hin).1, ?_, fun _ => ?_, fun hfalse => ?_⟩
  · rw [hstored, Writer.length_store hroom]
  · rw [hstored, hposition]
    exact hroom
  · rw [hstored, hposition, Writer.drop_store hin]
  · exact ⟨fun _ => ⟨(h.valid.1 hvalid).1, hfits⟩, fun _ => hsuccess⟩
  · rw [hstored, Writer.capture_store hin hsmall]
  · rw [hsuccess] at hfalse
    exact absurd hfalse Bool.false_ne_true.symm

/-- **The exact condition** for one write. -/
theorem Inside.clean_iff (h : s.Inside n) : s.Clean op ↔ s.SafeWrite op := by
  have hop := WriterOp.performed op h.small
  have hin := h.inside
  rw [← h.length] at hin
  unfold SafeWrite
  by_cases hvalid : s.writer.isValid = true
  · rw [if_pos hvalid]
    have hlive := (h.valid.1 hvalid).1
    constructor
    · intro hclean
      refine ⟨fun hfits => ?_, fun hfits => ?_⟩
      · -- what is captured is at most what the position says
        have hsuccess := hclean.success.2 ⟨hlive, hfits⟩
        have hcaptured := congrArg List.length (hclean.captured hsuccess)
        have hposition := hop.position hsuccess
        rw [Writer.capture, Writer.capture, List.length_append, List.length_take, List.length_take,
          Nat.min_eq_left hin, hposition] at hcaptured
        omega
      · by_contra hseen
        exact hfits (hclean.success.1 (h.success_iff.2 ⟨hvalid, by omega⟩)).2
    · rintro ⟨hroom, hnone⟩
      by_cases hfits : s.Fits op
      · exact h.clean_of_fits hvalid hfits (hroom hfits)
      · have hfailed : (op.perform s.writer).1 = false := by
          rw [← Bool.not_eq_true, h.success_iff]
          have := hnone hfits
          omega
        refine h.clean_of_failed hfailed ?_ fun _ => hfits
        by_contra hne
        exact hfits ((WriterOp.reserved_le op hin).2 hne)
  · rw [if_neg hvalid]
    have hfailed : (op.perform s.writer).1 = false := by
      rw [← Bool.not_eq_true, h.success_iff]
      exact fun hsuccess => hvalid hsuccess.1
    by_cases hbefore : s.failed = true
    · rw [if_pos hbefore]
      refine ⟨fun hclean => (hclean.unchanged hfailed).2.2, fun hnone => ?_⟩
      refine h.clean_of_failed hfailed hnone fun hlive => ?_
      rw [hbefore] at hlive
      exact absurd hlive Bool.false_ne_true.symm
    · rw [if_neg hbefore]
      rw [Bool.not_eq_true] at hbefore
      -- the buffer is empty
      have hn : n = 0 := by
        by_contra hn
        exact hvalid (h.valid.2 ⟨hbefore, hn⟩)
      have hfits : s.Fits op ↔ op.encoding s.writer = [] := by
        rw [Fits, h.length, hn, ← List.length_eq_zero_iff]
        have := h.inside
        omega
      constructor
      · intro hclean hnil
        have hsuccess := hclean.success.2 ⟨hbefore, hfits.2 hnil⟩
        rw [hfailed] at hsuccess
        exact Bool.false_ne_true hsuccess
      · intro hne
        refine h.clean_of_failed hfailed ?_ fun _ hroom => hne (hfits.1 hroom)
        have := (WriterOp.reserved_le op hin).1
        rw [h.length, hn] at this
        omega

/-- Clean writes keep a session inside. -/
theorem Inside.step (h : s.Inside n) {e : WriterEvent} (hsafe : s.Safe e) (hs : s.step e = some t) :
    t.Inside n := by
  cases e with
  | reset =>
    obtain rfl := Option.some.inj hs
    rw [← h.length]
    exact inside_restart s.writer
  | write op =>
    obtain rfl := Option.some.inj hs
    have hclean := h.clean_iff.2 hsafe
    have hop := WriterOp.performed op h.small
    have hin := hclean.inside
    rw [h.length] at hin
    refine ⟨hclean.untouched.trans h.length, hin, ?_, ?_⟩
    · change (op.perform s.writer).2.position < 2 ^ 16
      cases hsuccess : (op.perform s.writer).1 with
      | true =>
        rw [hop.position hsuccess]
        exact Nat.mod_lt _ (Nat.two_pow_pos 16)
      | false =>
        rw [(hclean.unchanged hsuccess).2.1]
        exact h.small
    · change (op.perform s.writer).2.isValid = true ↔ (s.failed || !(op.perform s.writer).1) = false ∧ n ≠ 0
      rw [← hop.status, Bool.or_eq_false_iff, Bool.not_eq_false']
      constructor
      · intro hsuccess
        have hbefore := h.valid.1 (h.success_iff.1 hsuccess).1
        exact ⟨⟨hbefore.1, hsuccess⟩, hbefore.2⟩
      · exact fun hafter => hafter.1.2

theorem inside_of_run {view : List Byte} {es : List WriterEvent}
    (h : Run step Safe (init view) es s) : s.Inside view.length :=
  h.inv (I := fun s => s.Inside view.length) (inside_restart (Writer.init view))
    fun _ _ _ hin hsafe hs => hin.step hsafe hs

/-- **Writers stay inside their buffer and fail cleanly.** As long as the writes are safe, the writer is
inside its buffer and each write so far was clean; the next one is clean exactly if it is safe. -/
theorem writes_clean {view : List Byte} {es : List WriterEvent} (h : Run step Safe (init view) es s) :
    s.writer.buffer.length = view.length ∧ s.writer.position ≤ view.length ∧
      (∀ pre op post, es = pre ++ .write op :: post →
        ∃ t, Run step Safe (init view) pre t ∧ t.Clean op) ∧
      ∀ op, s.Clean op ↔ s.SafeWrite op := by
  have hin := inside_of_run h
  refine ⟨hin.length, hin.inside, fun pre op post hes => ?_, fun op => hin.clean_iff⟩
  rw [hes] at h
  obtain ⟨t, hpre, hpost⟩ := h.split
  obtain ⟨u, hsafe, -, -⟩ := hpost.uncons
  exact ⟨t, hpre, (inside_of_run hpre).clean_iff.2 hsafe⟩

/-- A word, three bytes for which there is no room any more, and a byte that is refused after that. -/
theorem writes_clean_full : ∃ s, Run step Safe (init [0, 0, 0, 0])
    [.write (.writeWordLE 0x1234#16), .write (.writeArray [1, 2, 3]), .write (.writeByte 7)] s ∧
      s.writer.buffer.length = 4 ∧ s.writer.position ≤ 4 ∧ (s.Clean (.reserve 2) ↔ s.SafeWrite (.reserve 2)) := by
  have hrun : Run step Safe (init [0, 0, 0, 0])
      [.write (.writeWordLE 0x1234#16), .write (.writeArray [1, 2, 3]), .write (.writeByte 7)] _ := run_of_exec _ rfl
  have hclean := writes_clean hrun
  exact ⟨_, hrun, hclean.1, hclean.2.1, hclean.2.2.2 _⟩

/-- **An array of 256 bytes** passes the check of a buffer of ten bytes and is stored over its end. -/
theorem array_behind_buffer : ¬ ∀ (view : List Byte) (es : List WriterEvent) (s : WriterSession) (op : WriterOp),
    Run step always (init view) es s → s.Clean op := by
  intro hall
  have hclean := hall (List.replicate 10 0) [] (init (List.replicate 10 0))
    (.writeArray (List.replicate 256 0xAA#8)) .nil
  have hin : (init (List.replicate 10 0)).Inside 10 := inside_restart (Writer.init (List.replicate 10 0))
  have hsafe := hin.clean_iff.1 hclean
  revert hsafe
  decide +kernel

end WriterSession

end PWSat2OBC
