import PWSat2OBC.Proof.Fram
import PWSat2OBC.Proof.Reader
import PWSat2OBC.Spec.PersistentState

/-!
# A saved state is loaded again

`Stored write read bytes value`: the write appends `bytes`, and the read takes exactly
these bytes and returns `value`. Each part of the persistent state is stored in its
`bytes`, and parts in a row are stored in a row (`Stored.seq`), so no part can shift
another.

* `load_saved`: loading what was saved gives every part back, the interval of the
  periodic message modulo 256 minutes.
* `read_failed_unchanged`: a failed load leaves the state as it was.

The storage is the three FRAM chips in any condition.
-/

namespace PWSat2OBC

theorem Writer.Holds.capture {w : Writer} {n : ℕ} {xs : List Byte} (h : w.Holds n xs) :
    w.capture = xs := by
  rw [Writer.capture, h.position, h.taken]

namespace State

/-! ## What it is to be stored -/

structure Stored {α : Type} (write : Writer → Writer) (read : Reader → α × Reader)
    (bytes : List Byte) (value : α) : Prop where
  small : bytes.length < 2 ^ 16
  written : ∀ {w : Writer} {n : ℕ} {xs : List Byte}, w.Holds n xs →
    xs.length + bytes.length ≤ n → (write w).Holds n (xs ++ bytes)
  found : ∀ {r : Reader} {rest : List Byte}, r.At (bytes ++ rest) →
    (read r).1 = value ∧ (read r).2.At rest

namespace Stored

variable {α β : Type} {write write' : Writer → Writer} {read : Reader → α × Reader}
  {read' : Reader → β × Reader} {bytes bytes' : List Byte} {value : α} {value' : β}

/-- **Two in a row.** -/
theorem seq (h : Stored write read bytes value) (h' : Stored write' read' bytes' value')
    (hsmall : (bytes ++ bytes').length < 2 ^ 16) :
    Stored (fun w => write' (write w))
      (fun r => (((read r).1, (read' (read r).2).1), (read' (read r).2).2))
      (bytes ++ bytes') (value, value') where
  small := hsmall
  written := by
    intro w n xs hw hn
    rw [List.length_append] at hn
    have h1 := h.written hw (by omega)
    have h2 := h'.written h1 (by rw [List.length_append]; omega)
    rwa [List.append_assoc] at h2
  found := by
    intro r rest hr
    rw [List.append_assoc] at hr
    obtain ⟨hvalue, hrest⟩ := h.found hr
    obtain ⟨hvalue', hrest'⟩ := h'.found hrest
    exact ⟨by rw [hvalue, hvalue'], hrest'⟩

/-- The value read is wrapped. -/
theorem map (h : Stored write read bytes value) (f : α → β) :
    Stored write (fun r => (f (read r).1, (read r).2)) bytes (f value) where
  small := h.small
  written := h.written
  found := by
    intro r rest hr
    obtain ⟨hvalue, hrest⟩ := h.found hr
    exact ⟨congrArg f hvalue, hrest⟩

end Stored

/-! ## Fields -/

theorem stored_byte (b : Byte) : Stored (fun w => (w.writeByte b).2) Reader.readByte [b] b where
  small := by simp
  written h hn := (h.write [b] hn (by simp)).2
  found h := h.readByte

theorem stored_word (x : BitVec 16) :
    Stored (fun w => (w.writeSignedWordLE x).2) Reader.readSignedWordLE
      [x.extractLsb' 0 8, x.extractLsb' 8 8] x where
  small := by simp
  written h hn := (h.write _ hn (by simp)).2
  found h := h.readWordLE

theorem stored_doubleWord (x : BitVec 32) :
    Stored (fun w => (w.writeDoubleWordLE x).2) Reader.readDoubleWordLE (Redundancy.storeWord x)
      x where
  small := by simp [Redundancy.storeWord]
  written h hn := (h.write _ hn (by simp [Redundancy.storeWord])).2
  found h := h.readDoubleWordLE

theorem stored_quadWord (x : BitVec 64) :
    Stored (fun w => (w.writeQuadWordLE x).2) Reader.readQuadWordLE
      ((List.range 8).map fun i => x.extractLsb' (8 * i) 8) x where
  small := by simp
  written h hn := (h.write _ hn (by simp)).2
  found h := h.readQuadWordLE

/-- `WriteArray` asks for room with a `uint8_t`. -/
theorem stored_array (xs : List Byte) (hxs : xs.length < 2 ^ 8) :
    Stored (fun w => (w.writeArray xs).2) (fun r => r.readArray xs.length) xs xs where
  small := by omega
  written h hn := (h.write xs hn hxs).2
  found h := h.readArray rfl

/-- A `bool` goes through its byte. -/
theorem ofBool_ne_zero (b : Bool) : ((BitVec.ofBool b).setWidth 8 != (0 : Byte)) = b := by
  cases b <;> decide

/-! ## Parts -/

def AntennaConfiguration.bytes (c : AntennaConfiguration) : List Byte :=
  [(BitVec.ofBool c.isDeploymentDisabled).setWidth 8]

theorem AntennaConfiguration.stored (c c' : AntennaConfiguration) :
    Stored c.write c'.read c.bytes c where
  small := by simp [bytes]
  written := (stored_byte _).written
  found := by
    intro r rest hr
    obtain ⟨hbyte, hrest⟩ := hr.readByte
    refine ⟨?_, hrest⟩
    -- the reader is still valid, so the value is stored
    unfold read
    dsimp only
    rw [Reader.status, if_pos hrest.isValid, hbyte, ofBool_ne_zero]

def TimeState.bytes (t : TimeState) : List Byte :=
  ((List.range 8).map fun i => t.lastMissionTime.extractLsb' (8 * i) 8) ++
    (List.range 8).map fun i => t.lastExternalTime.extractLsb' (8 * i) 8

theorem TimeState.stored (t t' : TimeState) : Stored t.write t'.read t.bytes t :=
  ((stored_quadWord t.lastMissionTime).seq (stored_quadWord t.lastExternalTime) (by simp)).map
    fun p => TimeState.mk p.1 p.2

def TimeCorrectionConfiguration.bytes (c : TimeCorrectionConfiguration) : List Byte :=
  [c.missionTimeFactor.extractLsb' 0 8, c.missionTimeFactor.extractLsb' 8 8] ++
    [c.externalTimeFactor.extractLsb' 0 8, c.externalTimeFactor.extractLsb' 8 8]

theorem TimeCorrectionConfiguration.stored (c c' : TimeCorrectionConfiguration) :
    Stored c.write c'.read c.bytes c :=
  ((stored_word c.missionTimeFactor).seq (stored_word c.externalTimeFactor) (by simp)).map
    fun p => TimeCorrectionConfiguration.mk p.1 p.2

def SailState.bytes (s : SailState) : List Byte := [s.currentState]

theorem SailState.stored (s s' : SailState) : Stored s.write s'.read s.bytes s :=
  (stored_byte _).map SailState.mk

def ErrorCountersConfigState.bytes (c : ErrorCountersConfigState) : List Byte :=
  c.config.flatMap Redundancy.storeWord

theorem length_flatMap_storeWord (words : List (BitVec 32)) :
    (words.flatMap Redundancy.storeWord).length = words.length * 4 := by
  induction words with
  | nil => rfl
  | cons x words ih =>
    rw [List.flatMap_cons, List.length_append, ih, List.length_cons, Redundancy.storeWord]
    simp only [List.length_cons, List.length_nil]
    omega

/-- The loops of `Write` and `Read`, by induction on the words. -/
theorem stored_words (words : List (BitVec 32)) (hsmall : words.length * 4 < 2 ^ 16) :
    Stored (fun w => words.foldl (fun w x => (w.writeDoubleWordLE x).2) w)
      (ErrorCountersConfigState.readWords words.length)
      (words.flatMap Redundancy.storeWord) words := by
  induction words with
  | nil =>
    refine ⟨by simp, ?_, ?_⟩
    · intro w n xs h _
      simpa using h
    · intro r rest h
      exact ⟨rfl, h⟩
  | cons x words ih =>
    rw [List.length_cons] at hsmall
    have htail := ih (by omega)
    have hlength := length_flatMap_storeWord (x :: words)
    exact ((stored_doubleWord x).seq htail
      (by rw [← List.flatMap_cons, hlength, List.length_cons]; exact hsmall)).map
        fun p => p.1 :: p.2

theorem ErrorCountersConfigState.stored (c c' : ErrorCountersConfigState) :
    Stored c.write c'.read c.bytes c := by
  have hwords := stored_words c.config (by rw [c.length_config]; decide)
  rw [c.length_config] at hwords
  refine ⟨hwords.small, hwords.written, ?_⟩
  intro r rest hr
  obtain ⟨hvalue, hrest⟩ := hwords.found hr
  refine ⟨?_, hrest⟩
  cases c
  simp only [read, mk.injEq]
  exact hvalue

def AdcsState.bytes (s : AdcsState) : List Byte :=
  [(BitVec.ofBool s.internalDetumblingDisabled).setWidth 8]

theorem AdcsState.stored (s s' : AdcsState) : Stored s.write s'.read s.bytes s := by
  have h := (stored_byte ((BitVec.ofBool s.internalDetumblingDisabled).setWidth 8)).map
    fun b => AdcsState.mk (b != 0)
  rwa [ofBool_ne_zero] at h

def MessageState.bytes (m : MessageState) : List Byte :=
  [m.interval.setWidth 8] ++ ([m.repeatCount] ++ m.message)

/-- What is left of the periodic message: its interval goes through one byte. -/
def MessageState.throughByte (m : MessageState) : MessageState :=
  { m with interval := (m.interval.setWidth 8).setWidth 64 }

theorem MessageState.copy_of_length_eq {source target : List Byte}
    (h : source.length = target.length) : copy source target = source := by
  rw [copy, h, List.drop_length, List.append_nil]

theorem MessageState.stored (m m' : MessageState) :
    Stored m.write m'.read m.bytes m.throughByte := by
  have hlength := m.length_message
  have h := (stored_byte (m.interval.setWidth 8)).seq
    ((stored_byte m.repeatCount).seq (stored_array m.message (by rw [hlength]; decide))
      (by simp [hlength, messageLength])) (by simp [hlength, messageLength])
  refine ⟨h.small, h.written, ?_⟩
  intro r rest hr
  obtain ⟨hvalue, hrest⟩ := h.found hr
  rw [hlength, ← m'.length_message] at hrest
  refine ⟨?_, hrest⟩
  rw [hlength, ← m'.length_message] at hvalue
  simp only [Prod.mk.injEq] at hvalue
  obtain ⟨hinterval, hrepeat, hmessage⟩ := hvalue
  unfold read throughByte
  simp only [mk.injEq]
  refine ⟨by rw [hinterval], hrepeat, ?_⟩
  rw [hmessage, copy_of_length_eq (hlength.trans m'.length_message.symm)]

/-! ## The parts together -/

namespace Parts

def bytes (p : Parts) : List Byte :=
  p.antennaConfiguration.bytes ++ (p.timeState.bytes ++ (p.timeCorrectionConfiguration.bytes ++
    (p.sailState.bytes ++ (p.errorCountersConfigState.bytes ++ (p.adcsState.bytes ++
      p.messageState.bytes)))))

def throughByte (p : Parts) : Parts := { p with messageState := p.messageState.throughByte }

theorem length_bytes (p : Parts) : p.bytes.length = size := by
  have hwords : p.errorCountersConfigState.bytes.length = ErrorCountersConfigState.size := by
    rw [ErrorCountersConfigState.bytes, length_flatMap_storeWord,
      p.errorCountersConfigState.length_config]
    rfl
  have hmessage : p.messageState.bytes.length = MessageState.size := by
    rw [MessageState.bytes, List.length_append, List.length_append, p.messageState.length_message]
    rfl
  simp only [bytes, List.length_append, hwords, hmessage, AntennaConfiguration.bytes,
    TimeState.bytes, TimeCorrectionConfiguration.bytes, SailState.bytes, AdcsState.bytes,
    List.length_map, List.length_range, List.length_cons, List.length_nil]
  rfl

/-- **All parts in the order of the container.** -/
theorem stored (p p' : Parts) : Stored p.write p'.read p.bytes p.throughByte := by
  have hlength := p.length_bytes
  simp only [bytes, List.length_append, size, AntennaConfiguration.size, TimeState.size,
    TimeCorrectionConfiguration.size, SailState.size, ErrorCountersConfigState.size,
    AdcsState.size, MessageState.size, maxDevices] at hlength
  have h := (p.antennaConfiguration.stored p'.antennaConfiguration).seq
    ((p.timeState.stored p'.timeState).seq
      ((p.timeCorrectionConfiguration.stored p'.timeCorrectionConfiguration).seq
        ((p.sailState.stored p'.sailState).seq
          ((p.errorCountersConfigState.stored p'.errorCountersConfigState).seq
            ((p.adcsState.stored p'.adcsState).seq (p.messageState.stored p'.messageState)
              (by simp only [List.length_append]; omega))
            (by simp only [List.length_append]; omega))
          (by simp only [List.length_append]; omega))
        (by simp only [List.length_append]; omega))
      (by simp only [List.length_append]; omega))
    (by simp only [List.length_append]; omega)
  exact h.map fun q => Parts.mk q.1 q.2.1 q.2.2.1 q.2.2.2.1 q.2.2.2.2.1 q.2.2.2.2.2.1 q.2.2.2.2.2.2

end Parts

end State

/-! ## The image -/

namespace ObcState

open State

/-- What `WritePersistentState` stores. -/
def image (p : Parts) : List Byte :=
  Redundancy.storeWord signature ++ (p.bytes ++ Redundancy.storeWord signature)

theorem length_image (p : Parts) : (image p).length = totalImageSize := by
  rw [image, List.length_append, List.length_append, p.length_bytes]
  rfl

section

variable {μ : Type} (storage : StorageAccess μ)

theorem writePersistentState_eq (array : Vector Byte totalImageSize)
    (stateObject : LockablePersistentState) (baseAddress : BitVec 32) (memory : μ) :
    writePersistentState storage array stateObject true baseAddress memory =
      (true, ⟨{ stateObject.state with isModified := false }⟩,
        storage.write memory baseAddress (image stateObject.state.parts)) := by
  have hlength := stateObject.state.parts.length_bytes
  have hsize : Parts.size = 281 := rfl
  have htotal : totalImageSize = 289 := rfl
  have h0 : (Writer.init array.toList).Holds totalImageSize [] :=
    Writer.holds_reset (w := Writer.init array.toList) (by simp [Writer.init]) (by decide) (by decide)
  have h1 := (stored_doubleWord signature).written h0
    (by simp [Redundancy.storeWord, htotal])
  have h2 := (Parts.stored stateObject.state.parts stateObject.state.parts).written h1
    (by simp [Redundancy.storeWord, hlength, hsize, htotal])
  have h3 := (stored_doubleWord signature).written h2
    (by simp [Redundancy.storeWord, hlength, hsize, htotal])
  simp only [writePersistentState, LockablePersistentState.capture, PersistentState.capture,
    Bool.not_true, Bool.false_eq_true, if_false, Writer.status, h3.isValid, h3.capture, image,
    List.nil_append, List.append_assoc]

/-- A saved image is read back. -/
theorem parse_image (p : Parts) : parse (image p) = some ⟨p.throughByte, false⟩ := by
  have hlength := length_image p
  have hne : image p ≠ [] := by
    intro h
    rw [h] at hlength
    exact absurd hlength (by decide)
  have h0 := Reader.at_init hne (by rw [hlength]; decide)
  obtain ⟨hheader, h1⟩ := (stored_doubleWord signature).found h0
  obtain ⟨hparts, h2⟩ := (p.stored PersistentState.init.parts).found h1
  rw [← List.append_nil (Redundancy.storeWord signature)] at h2
  obtain ⟨hfooter, h3⟩ := (stored_doubleWord signature).found h2
  simp only [parse, PersistentState.read, hheader, hparts, hfooter, Reader.status, h1.isValid,
    h3.isValid]
  rfl

/-- The load is all or nothing. -/
theorem read_failed_unchanged (stateObject : LockablePersistentState) (locked : Bool)
    (baseAddress : BitVec 32) (memory : μ)
    (h : (readPersistentState storage stateObject locked baseAddress memory).1 = false) :
    (readPersistentState storage stateObject locked baseAddress memory).2 = stateObject := by
  unfold readPersistentState at h ⊢
  cases hparse : parse (storage.read memory baseAddress totalImageSize) with
  | none => rfl
  | some newState =>
    rw [hparse] at h
    cases locked with
    | false => rfl
    | true => exact absurd h (by simp [LockablePersistentState.load])

end

/-! ## Through the FRAM -/

theorem persistentStorageAccess_read_write (rb1 rb2 array : Aligned4) (memory : RedundantFm25w)
    (baseAddress : BitVec 32) (p : Parts) :
    (persistentStorageAccess rb1 rb2 array).read
      ((persistentStorageAccess rb1 rb2 array).write memory baseAddress (image p))
      baseAddress totalImageSize = image p := by
  have hlength := length_image p
  unfold persistentStorageAccess
  dsimp only
  rw [← hlength]
  exact RedundantFm25w.read_write memory rb1 rb2 _ _ _ (by rw [hlength]; decide)

/-- What a save leaves behind, a load takes over. -/
theorem load_saved (rb1 rb2 array : Aligned4) (stack : Vector Byte totalImageSize)
    (saved loaded : LockablePersistentState) (baseAddress : BitVec 32) (memory : RedundantFm25w) :
    let fram := persistentStorageAccess rb1 rb2 array
    readPersistentState fram loaded true baseAddress
        (writePersistentState fram stack saved true baseAddress memory).2.2 =
      (true, ⟨⟨saved.state.parts.throughByte, false⟩⟩) := by
  intro fram
  rw [writePersistentState_eq, readPersistentState, persistentStorageAccess_read_write, parse_image]
  rfl

/-- The periodic message comes back whole when its interval fits a byte. -/
theorem throughByte_eq_iff (p : Parts) :
    p.throughByte = p ↔ p.messageState.interval.toNat < 256 := by
  have hinterval : p.throughByte = p ↔
      (p.messageState.interval.setWidth 8).setWidth 64 = p.messageState.interval := by
    cases p with
    | mk _ _ _ _ _ _ m =>
      cases m
      simp [Parts.throughByte, MessageState.throughByte]
  rw [hinterval, ← BitVec.toNat_inj, BitVec.toNat_setWidth, BitVec.toNat_setWidth]
  omega

/-- **A saved state is loaded again**, and a failed load changes nothing. The interval of
the periodic message takes one byte of the image: the state comes back equal in every part
exactly when this interval is between 0 and 255 minutes. -/
theorem saved_state_loads (rb1 rb2 array : Aligned4) (stack : Vector Byte totalImageSize)
    (saved loaded : LockablePersistentState) (baseAddress : BitVec 32) (memory : RedundantFm25w) :
    let fram := persistentStorageAccess rb1 rb2 array
    let written := writePersistentState fram stack saved true baseAddress memory
    let result := readPersistentState fram loaded true baseAddress written.2.2
    (written.1 = true ∧ result.1 = true ∧
        result.2.state.parts = saved.state.parts.throughByte ∧
        (result.2.state.parts = saved.state.parts ↔
          saved.state.parts.messageState.interval.toNat < 256)) ∧
      ∀ (μ : Type) (storage : StorageAccess μ) (stateObject : LockablePersistentState)
        (locked : Bool) (address : BitVec 32) (m : μ),
        let load := readPersistentState storage stateObject locked address m
        load.1 = true ∨ load.2 = stateObject := by
  intro fram written result
  have hresult : result = (true, ⟨⟨saved.state.parts.throughByte, false⟩⟩) :=
    load_saved rb1 rb2 array stack saved loaded baseAddress memory
  constructor
  · have hwritten : written.1 = true := by
      simp only [written, writePersistentState_eq]
    rw [hresult]
    exact ⟨hwritten, rfl, rfl, throughByte_eq_iff saved.state.parts⟩
  · intro μ storage stateObject locked address m load
    cases hload : load.1 with
    | true => exact Or.inl rfl
    | false => exact Or.inr (read_failed_unchanged storage stateObject locked address m hload)

/-- A longer interval is lost. -/
theorem load_saved_ne (rb1 rb2 array : Aligned4) (stack : Vector Byte totalImageSize)
    (saved loaded : LockablePersistentState) (baseAddress : BitVec 32) (memory : RedundantFm25w)
    (hlong : 256 ≤ saved.state.parts.messageState.interval.toNat) :
    let fram := persistentStorageAccess rb1 rb2 array
    let result := readPersistentState fram loaded true baseAddress
      (writePersistentState fram stack saved true baseAddress memory).2.2
    result.1 = true ∧ result.2.state.parts ≠ saved.state.parts := by
  intro fram result
  have hresult : result = (true, ⟨⟨saved.state.parts.throughByte, false⟩⟩) :=
    load_saved rb1 rb2 array stack saved loaded baseAddress memory
  rw [hresult]
  refine ⟨rfl, ?_⟩
  intro h
  have hfits := (throughByte_eq_iff saved.state.parts).1 h
  omega

/-- A state whose periodic message is due every 256 minutes. -/
def longInterval : LockablePersistentState :=
  ⟨{ PersistentState.init with
      parts := { Parts.init with messageState := { MessageState.init with interval := 256 } } }⟩

/-- It is loaded without an error, and not as it was saved. -/
theorem longInterval_lost :
    let fram := persistentStorageAccess ⟨0, rfl⟩ ⟨0, rfl⟩ ⟨0, rfl⟩
    let result := readPersistentState fram ⟨PersistentState.init⟩ true 8
      (writePersistentState fram (Vector.replicate totalImageSize 0) longInterval true 8
        ⟨fun _ => 0, fun _ => 0, fun _ => 0⟩).2.2
    result.1 = true ∧ result.2.state.parts ≠ longInterval.state.parts := by
  have hlong : longInterval.state.parts.messageState.interval = 256 := rfl
  exact load_saved_ne _ _ _ _ longInterval _ _ _ (by rw [hlong]; decide)

end ObcState

end PWSat2OBC
