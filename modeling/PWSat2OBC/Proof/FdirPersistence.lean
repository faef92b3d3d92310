import PWSat2OBC.Lib.TornWrites
import PWSat2OBC.Proof.StateSaving
import PWSat2OBC.Spec.FdirPersistence

/-!
# A saved configuration stays

What a power cut leaves of a write is a beginning of the new image before the rest of the old one. All
images have the configuration in the same place (`Images`), so a mixture of two with the same
configuration has it too (`Images.torn`), and a load finds it whatever the rest of the image is
(`parse_of_images`). The image has 289 bytes, so the FRAM driver does not vote and reads the first chip
alone (`read_eq`).
-/

namespace PWSat2OBC

open State ObcState Runs TornWrites

/-! ## Images with a configuration -/

/-- An image with the configuration in its place, between whatever bytes. -/
def Images (c : ErrorCountersConfigState) (bytes : List Byte) : Prop :=
  ∃ a b : List Byte, a.length = 22 ∧ b.length = 203 ∧
    bytes = Redundancy.storeWord signature ++ (a ++ (c.bytes ++ (b ++ Redundancy.storeWord signature)))

theorem images_image {p : Parts} : Images p.errorCountersConfigState (image p) := by
  refine ⟨p.antennaConfiguration.bytes ++ (p.timeState.bytes ++
    (p.timeCorrectionConfiguration.bytes ++ p.sailState.bytes)), p.adcsState.bytes ++ p.messageState.bytes,
    ?_, ?_, ?_⟩
  · simp [AntennaConfiguration.bytes, TimeState.bytes, TimeCorrectionConfiguration.bytes, SailState.bytes]
  · rw [List.length_append, MessageState.bytes, List.length_append, List.length_append,
      p.messageState.length_message]
    rfl
  · simp only [image, Parts.bytes, List.append_assoc]

theorem Images.torn {c : ErrorCountersConfigState} {new old : List Byte} (hnew : Images c new)
    (hold : Images c old) (k : ℕ) : Images c (torn k new old) := by
  obtain ⟨a, b, ha, hb, rfl⟩ := hnew
  obtain ⟨a', b', ha', hb', rfl⟩ := hold
  rw [torn_append rfl, torn_self, torn_append (ha.trans ha'.symm), torn_append rfl, torn_self,
    torn_append (hb.trans hb'.symm), torn_self]
  exact ⟨_, _, (length_torn (ha.trans ha'.symm)).trans ha, (length_torn (hb.trans hb'.symm)).trans hb, rfl⟩

theorem length_configBytes (c : ErrorCountersConfigState) : c.bytes.length = 56 := by
  rw [ErrorCountersConfigState.bytes, length_flatMap_storeWord, c.length_config]
  rfl

theorem Images.length {c : ErrorCountersConfigState} {bytes : List Byte} (h : Images c bytes) :
    bytes.length = totalImageSize := by
  obtain ⟨a, b, ha, hb, rfl⟩ := h
  simp only [List.length_append, ha, hb, length_configBytes, Redundancy.storeWord,
    List.length_cons, List.length_nil]
  rfl

/-- A reader goes on behind the bytes it was asked for. -/
theorem Reader.At.after {r : Reader} {xs : List Byte} {n : ℕ} (h : r.At xs) (hn : n ≤ xs.length) :
    (r.updateState n).At (xs.drop n) := by
  rw [← List.take_append_drop n xs] at h
  exact (h.updateState (List.length_take_of_le hn)).1

/-- The reads of the parts before the configuration. -/
theorem at_configuration {r : Reader} {a rest : List Byte} (h : r.At (a ++ rest)) (ha : a.length = 22)
    (p : Parts) :
    (p.sailState.read (p.timeCorrectionConfiguration.read (p.timeState.read
      (p.antennaConfiguration.read r).2).2).2).2.At rest := by
  have hlength : (a ++ rest).length = 22 + rest.length := by rw [List.length_append, ha]
  have h1 := h.after (n := 1) (by omega)
  have h2 := h1.after (n := 8) (by rw [List.length_drop]; omega)
  have h3 := h2.after (n := 8) (by simp only [List.length_drop]; omega)
  have h4 := h3.after (n := 2) (by simp only [List.length_drop]; omega)
  have h5 := h4.after (n := 2) (by simp only [List.length_drop]; omega)
  have h6 := h5.after (n := 1) (by simp only [List.length_drop]; omega)
  have hdrop : (((((((a ++ rest).drop 1).drop 8).drop 8).drop 2).drop 2).drop 1) = rest := by
    simp only [List.drop_drop]
    exact List.drop_left' ha
  rw [hdrop] at h6
  exact h6

/-- And behind it. -/
theorem at_footer {r : Reader} {b rest : List Byte} (h : r.At (b ++ rest)) (hb : b.length = 203)
    (p : Parts) : (p.messageState.read (p.adcsState.read r).2).2.At rest := by
  have hlength : (b ++ rest).length = 203 + rest.length := by rw [List.length_append, hb]
  have h1 := h.after (n := 1) (by omega)
  have h2 := h1.after (n := 1) (by simp only [List.length_drop]; omega)
  have h3 := h2.after (n := 1) (by simp only [List.length_drop]; omega)
  have h4 := h3.after (n := p.messageState.message.length)
    (by simp only [List.length_drop, p.messageState.length_message, messageLength]; omega)
  have hdrop : ((((b ++ rest).drop 1).drop 1).drop 1).drop p.messageState.message.length = rest := by
    simp only [List.drop_drop, p.messageState.length_message]
    exact List.drop_left' hb
  rw [hdrop] at h4
  exact h4

/-- **A load finds the configuration**, whatever the rest of the image is. -/
theorem parse_of_images {c : ErrorCountersConfigState} {bytes : List Byte} (h : Images c bytes) :
    ∃ p, parse bytes = some ⟨p, false⟩ ∧ p.errorCountersConfigState = c := by
  have hlength := h.length
  obtain ⟨a, b, ha, hb, rfl⟩ := h
  generalize hbytes : Redundancy.storeWord signature ++ (a ++ (c.bytes ++ (b ++ Redundancy.storeWord signature))) =
    bytes at hlength
  have hne : bytes ≠ [] := by
    intro hnil
    rw [hnil] at hlength
    exact absurd hlength (by decide)
  have h0 : (Reader.init bytes).At (Redundancy.storeWord signature ++
      (a ++ (c.bytes ++ (b ++ Redundancy.storeWord signature)))) := by
    rw [hbytes]
    exact Reader.at_init hne (by rw [hlength]; decide)
  obtain ⟨hheader, h1⟩ := (stored_doubleWord signature).found h0
  have h2 := at_configuration h1 ha Parts.init
  obtain ⟨hconfig, h3⟩ := (c.stored Parts.init.errorCountersConfigState).found h2
  have h4 := at_footer h3 hb Parts.init
  rw [← List.append_nil (Redundancy.storeWord signature)] at h4
  obtain ⟨hfooter, h5⟩ := (stored_doubleWord signature).found h4
  refine ⟨(Parts.init.read (Reader.init bytes).readDoubleWordLE.2).1, ?_, hconfig⟩
  have hstatus : (Reader.init bytes).readDoubleWordLE.2.status = true := h1.isValid
  have hstatus' : (Parts.init.read (Reader.init bytes).readDoubleWordLE.2).2.readDoubleWordLE.2.status = true :=
    h5.isValid
  have hfooter' : (Parts.init.read (Reader.init bytes).readDoubleWordLE.2).2.readDoubleWordLE.1 = signature :=
    hfooter
  simp only [parse, PersistentState.read, PersistentState.init, hheader, hstatus, hfooter', hstatus']
  rfl

/-! ## The chips -/

section

variable {chip : Fm25w} {address : Address} {image : List Byte}

theorem Fm25w.length_read (chip : Fm25w) (address : Address) (n : ℕ) : (chip.read address n).length = n := by
  simp [Fm25w.read]

/-- A beginning that is written stands before what was there. -/
theorem Fm25w.read_write_take (h : image.length ≤ 2 ^ 16) (k : ℕ) :
    (chip.write address (image.take k)).read address image.length =
      torn k image (chip.read address image.length) := by
  apply List.ext_getElem?
  intro i
  rw [getElem?_torn (Fm25w.length_read _ _ _).symm]
  by_cases hi : i < image.length
  · have hread : ∀ c : Fm25w, (c.read address image.length)[i]? = some (c (address + BitVec.ofNat 16 i)) := by
      intro c
      simp [Fm25w.read, hi]
    rw [hread, hread]
    by_cases hk : i < k
    · rw [if_pos hk, Fm25w.write_add chip address (by rw [List.length_take]; omega) (by rw [List.length_take]; omega),
        List.getElem_take, List.getElem?_eq_getElem hi]
    · have hto : (address + BitVec.ofNat 16 i - address).toNat = i := by
        rw [BitVec.add_comm, BitVec.add_sub_cancel, BitVec.toNat_ofNat]
        exact Nat.mod_eq_of_lt (by omega)
      rw [if_neg hk, Fm25w.write_of_le chip (by rw [hto, List.length_take]; omega)]
  · have hnone : ∀ c : Fm25w, (c.read address image.length)[i]? = none := by
      intro c
      rw [List.getElem?_eq_none (by rw [Fm25w.length_read]; omega)]
    rw [hnone, hnone, List.getElem?_eq_none (by omega), ite_self]

end

/-- **The first chip alone**: 289 bytes are no whole number of words, so there is no vote. -/
theorem read_eq (rb1 rb2 array : Aligned4) (memory : RedundantFm25w) (baseAddress : BitVec 32) :
    (persistentStorageAccess rb1 rb2 array).read memory baseAddress totalImageSize =
      memory.chip0.read (baseAddress.setWidth 16) totalImageSize := by
  have hodd : ¬ (totalImageSize % 4 = 0 ∧ array.addr % 4 = 0) := fun h => absurd h.1 (by decide)
  unfold persistentStorageAccess
  dsimp only
  rw [RedundantFm25w.read_one_chunk _ _ _ _ _ (by decide) (by decide), RedundantFm25w.readChunk_fst, if_neg hodd]

/-! ## The saving task -/

namespace FdirPersistence

section

variable {rb1 rb2 array : Aligned4} {baseAddress : BitVec 32} {c : Vector (BitVec 32) maxDevices}

/-- An image on its way to the storage is one of parts with the property. -/
def Carries (Q : Parts → Prop) : SavePc → Prop
  | .idle => True
  | .capture writer => writer.Holds totalImageSize (Redundancy.storeWord signature)
  | .footer writer => ∃ p, writer.Holds totalImageSize (Redundancy.storeWord signature ++ p.bytes) ∧ Q p
  | .store bytes => ∃ p, bytes = image p ∧ Q p

/-- The state has been captured for it. -/
def Captured : SavePc → Prop
  | .footer _ => True
  | .store _ => True
  | _ => False

/-- The first chip holds an image with the configuration. -/
def Stored (baseAddress : BitVec 32) (c : Vector (BitVec 32) maxDevices) (memory : RedundantFm25w) : Prop :=
  Images (configState c) (memory.chip0.read (baseAddress.setWidth 16) totalImageSize)

theorem stored_write {p : Parts} (hp : p.errorCountersConfigState = configState c) (memory : RedundantFm25w) :
    Stored baseAddress c (memory.write (baseAddress.setWidth 16) (image p)) := by
  have hlength := length_image p
  have hread := @Fm25w.read_write_take memory.chip0 (baseAddress.setWidth 16) (image p)
    (by rw [hlength]; decide) (image p).length
  rw [List.take_length, torn, List.take_length, List.drop_eq_nil_of_le (Fm25w.length_read _ _ _).le,
    List.append_nil, hlength] at hread
  rw [Stored, ← hp]
  change Images _ ((memory.chip0.write (baseAddress.setWidth 16) (image p)).read _ _)
  rw [hread]
  exact images_image

/-- A write that the power cut ends leaves the configuration that both images have. -/
theorem stored_writeCut {p : Parts} (hp : p.errorCountersConfigState = configState c) {memory : RedundantFm25w}
    (h : Stored baseAddress c memory) (chip bytes : ℕ) :
    Stored baseAddress c (memory.writeCut (baseAddress.setWidth 16) (image p) chip bytes) := by
  have hlength := length_image p
  have himage : Images (configState c) (image p) := by
    rw [← hp]
    exact images_image
  have htaken : ∃ k, (if 0 < chip then image p else if 0 = chip then (image p).take bytes else []) =
      (image p).take k := by
    by_cases h0 : 0 < chip
    · exact ⟨(image p).length, by rw [if_pos h0, List.take_length]⟩
    · exact ⟨bytes, by rw [if_neg h0, if_pos (by omega)]⟩
  obtain ⟨k, hk⟩ := htaken
  have hread := @Fm25w.read_write_take memory.chip0 (baseAddress.setWidth 16) (image p)
    (by rw [hlength]; decide) k
  rw [hlength, ← hk] at hread
  rw [Stored]
  change Images _ ((memory.chip0.write (baseAddress.setWidth 16) _).read _ _)
  rw [hread]
  exact himage.torn h k

variable {s t : StateSaving RedundantFm25w} {Q : Parts → Prop}

/-- **What the saving task does**: an image carries what was true of the parts when they were captured. -/
theorem carries_step {e : SaveEvent} (hcarries : Carries Q s.pc) (hparts : Q s.parts)
    (h : s.step (persistentStorageAccess rb1 rb2 array) baseAddress e = some t) : Carries Q t.pc := by
  cases e with
  | set locked change =>
    obtain rfl := Option.some.inj h
    exact hcarries
  | condition locked array =>
    rw [StateSaving.step] at h
    cases hpc : s.pc with
    | idle =>
      simp only [hpc] at h
      split at h
      · obtain rfl := Option.some.inj h
        exact StateSaving.header_holds array
      · obtain rfl := Option.some.inj h
        exact hcarries
    | _ => simp [hpc] at h
  | capture locked =>
    rw [StateSaving.step] at h
    cases hpc : s.pc with
    | capture writer =>
      simp only [hpc] at h
      rw [hpc] at hcarries
      cases locked with
      | false =>
        obtain rfl := Option.some.inj h
        trivial
      | true =>
        obtain rfl := Option.some.inj h
        exact ⟨s.parts, StateSaving.parts_hold hcarries s.parts, hparts⟩
    | _ => simp [hpc] at h
  | footer =>
    rw [StateSaving.step] at h
    cases hpc : s.pc with
    | footer writer =>
      simp only [hpc] at h
      rw [hpc] at hcarries
      obtain ⟨p, hw, hp⟩ := hcarries
      obtain ⟨hstatus, hcapture⟩ := StateSaving.footer_holds hw
      rw [hstatus, hcapture] at h
      obtain rfl := Option.some.inj h
      exact ⟨p, rfl, hp⟩
    | _ => simp [hpc] at h
  | store =>
    rw [StateSaving.step] at h
    cases hpc : s.pc with
    | store bytes =>
      simp only [hpc] at h
      obtain rfl := Option.some.inj h
      trivial
    | _ => simp [hpc] at h

/-- The parts change by a `set` alone. -/
theorem parts_step {e : SaveEvent} (hquiet : FdirPersistenceEvent.Quiet (.saving e))
    (h : s.step (persistentStorageAccess rb1 rb2 array) baseAddress e = some t) :
    t.parts.errorCountersConfigState = s.parts.errorCountersConfigState := by
  cases e with
  | set locked change =>
    obtain rfl := Option.some.inj h
    cases locked with
    | false => rfl
    | true => exact hquiet s.parts
  | condition locked array =>
    rw [StateSaving.step] at h
    split at h
    · split at h <;> obtain rfl := Option.some.inj h <;> rfl
    · exact absurd h (by simp)
  | capture locked =>
    rw [StateSaving.step] at h
    split at h
    · cases locked with
      | false => obtain rfl := Option.some.inj h; rfl
      | true => obtain rfl := Option.some.inj h; rfl
    · exact absurd h (by simp)
  | footer =>
    rw [StateSaving.step] at h
    split at h
    · dsimp only at h
      split at h <;> obtain rfl := Option.some.inj h <;> rfl
    · exact absurd h (by simp)
  | store =>
    rw [StateSaving.step] at h
    split at h
    · obtain rfl := Option.some.inj h
      rfl
    · exact absurd h (by simp)

/-- The memory changes by a `store` alone. -/
theorem memory_step {e : SaveEvent}
    (h : s.step (persistentStorageAccess rb1 rb2 array) baseAddress e = some t) :
    t.memory = s.memory ∨ ∃ bytes, s.pc = .store bytes ∧
      t.memory = s.memory.write (baseAddress.setWidth 16) bytes := by
  cases e with
  | set locked change =>
    obtain rfl := Option.some.inj h
    exact Or.inl rfl
  | condition locked array =>
    rw [StateSaving.step] at h
    split at h
    · split at h <;> obtain rfl := Option.some.inj h <;> exact Or.inl rfl
    · exact absurd h (by simp)
  | capture locked =>
    rw [StateSaving.step] at h
    split at h
    · dsimp only at h
      split at h <;> obtain rfl := Option.some.inj h <;> exact Or.inl rfl
    · exact absurd h (by simp)
  | footer =>
    rw [StateSaving.step] at h
    split at h
    · dsimp only at h
      split at h <;> obtain rfl := Option.some.inj h <;> exact Or.inl rfl
    · exact absurd h (by simp)
  | store =>
    rw [StateSaving.step] at h
    cases hpc : s.pc with
    | store bytes =>
      simp only [hpc] at h
      obtain rfl := Option.some.inj h
      exact Or.inr ⟨bytes, rfl, rfl⟩
    | _ => simp [hpc] at h

theorem stored_step {e : SaveEvent} (hcarries : Carries (fun p => p.errorCountersConfigState = configState c) s.pc)
    (hstored : Stored baseAddress c s.memory)
    (h : s.step (persistentStorageAccess rb1 rb2 array) baseAddress e = some t) :
    Stored baseAddress c t.memory := by
  rcases memory_step h with hsame | ⟨bytes, hpc, hwritten⟩
  · rw [hsame]
    exact hstored
  · rw [hpc] at hcarries
    obtain ⟨p, rfl, hp⟩ := hcarries
    rw [hwritten]
    exact stored_write hp s.memory

/-- An image that has been captured stays on its way until it is stored. -/
theorem captured_step {e : SaveEvent} (hcarries : Carries (fun p => p.errorCountersConfigState = configState c) s.pc)
    (hcaptured : Captured s.pc)
    (h : s.step (persistentStorageAccess rb1 rb2 array) baseAddress e = some t) :
    Captured t.pc ∧ e ≠ .store ∨ Stored baseAddress c t.memory := by
  cases e with
  | set locked change =>
    obtain rfl := Option.some.inj h
    exact Or.inl ⟨hcaptured, by simp⟩
  | condition locked array =>
    rw [StateSaving.step] at h
    cases hpc : s.pc with
    | idle => rw [hpc] at hcaptured; exact hcaptured.elim
    | _ => simp [hpc] at h
  | capture locked =>
    rw [StateSaving.step] at h
    cases hpc : s.pc with
    | capture writer => rw [hpc] at hcaptured; exact hcaptured.elim
    | _ => simp [hpc] at h
  | footer =>
    rw [StateSaving.step] at h
    cases hpc : s.pc with
    | footer writer =>
      simp only [hpc] at h
      rw [hpc] at hcarries
      obtain ⟨p, hw, -⟩ := hcarries
      obtain ⟨hstatus, -⟩ := StateSaving.footer_holds hw
      rw [hstatus] at h
      obtain rfl := Option.some.inj h
      exact Or.inl ⟨trivial, by simp⟩
    | _ => simp [hpc] at h
  | store =>
    rw [StateSaving.step] at h
    cases hpc : s.pc with
    | store bytes =>
      simp only [hpc] at h
      rw [hpc] at hcarries
      obtain ⟨p, rfl, hp⟩ := hcarries
      obtain rfl := Option.some.inj h
      exact Or.inr (stored_write hp s.memory)
    | _ => simp [hpc] at h

end

/-! ## The configuration -/

section

variable {rb1 rb2 array : Aligned4} {baseAddress : BitVec 32} {c : Vector (BitVec 32) maxDevices}
  {s t u : FdirPersistence}

theorem loadConfig_configState (c : Vector (BitVec 32) maxDevices) : loadConfig (configState c) = c := by
  apply Vector.ext
  intro i hi
  simp [loadConfig, configState]

/-- The configuration is `c`, and so is its copy in the persistent state. -/
structure Current (c : Vector (BitVec 32) maxDevices) (s : FdirPersistence) : Prop where
  configuration : s.configuration = c
  part : s.saving.parts.errorCountersConfigState = configState c

/-- The saving task is somewhere in a save. -/
def Writing (s : FdirPersistence) : Prop := Carries (fun _ => True) s.saving.pc

/-- An image on its way has the configuration. -/
def Bound (c : Vector (BitVec 32) maxDevices) (s : FdirPersistence) : Prop :=
  Carries (fun p => p.errorCountersConfigState = configState c) s.saving.pc

theorem current_step (h : Current c s) {e : FdirPersistenceEvent} (hrunning : e.Running)
    (hs : s.step (persistentStorageAccess rb1 rb2 array) baseAddress e = some t) : Current c t := by
  cases e with
  | set device limit increment decrement => exact absurd hrunning.1 id
  | update locked =>
    obtain rfl := Option.some.inj hs
    refine ⟨h.configuration, ?_⟩
    cases locked with
    | false => exact h.part
    | true => exact congrArg configState h.configuration
  | saving e =>
    obtain ⟨saving, hsaving, rfl⟩ := Option.map_eq_some_iff.1 hs
    exact ⟨h.configuration, (parts_step hrunning.1 hsaving).trans h.part⟩
  | restart r => exact absurd rfl (hrunning.2 r)

/-- What is true of an image on its way and of the parts stays true. -/
theorem carried_step {Q : Parts → Prop} (hcarries : Carries Q s.saving.pc) (hparts : Q s.saving.parts)
    {e : FdirPersistenceEvent} (hs : s.step (persistentStorageAccess rb1 rb2 array) baseAddress e = some t) :
    Carries Q t.saving.pc := by
  cases e with
  | set device limit increment decrement => obtain rfl := Option.some.inj hs; exact hcarries
  | update locked => obtain rfl := Option.some.inj hs; exact hcarries
  | saving e =>
    obtain ⟨saving, hsaving, rfl⟩ := Option.map_eq_some_iff.1 hs
    exact carries_step hcarries hparts hsaving
  | restart r =>
    obtain rfl := Option.some.inj hs
    trivial

/-- **The configuration is safe**: it is in force, in the persistent state and in the storage, and so it is
after each restart. -/
structure Safe (baseAddress : BitVec 32) (c : Vector (BitVec 32) maxDevices) (s : FdirPersistence) : Prop where
  current : Current c s
  bound : Bound c s
  stored : Stored baseAddress c s.saving.memory

theorem stored_cut (h : Safe baseAddress c s) (r : Restart) : Stored baseAddress c (s.cut baseAddress r) := by
  have hbound := h.bound
  unfold Bound at hbound
  unfold cut
  cases hpc : s.saving.pc with
  | store bytes =>
    rw [hpc] at hbound
    obtain ⟨p, rfl, hp⟩ := hbound
    exact stored_writeCut hp h.stored r.chip r.bytes
  | _ => exact h.stored

theorem Safe.restart (h : Safe baseAddress c s) {r : Restart}
    (hr : r.clearStateOnStartup = false ∧ r.loadLock = true ∧ r.getLock = true) :
    Safe baseAddress c (s.restart (persistentStorageAccess rb1 rb2 array) baseAddress r) := by
  obtain ⟨hclear, hload, hget⟩ := hr
  have hstored := stored_cut h r
  obtain ⟨p, hparse, hp⟩ := parse_of_images hstored
  have hread : readPersistentState (persistentStorageAccess rb1 rb2 array) ⟨PersistentState.init⟩ true baseAddress
      (s.cut baseAddress r) = (true, ⟨⟨p, false⟩⟩) := by
    rw [readPersistentState, read_eq, hparse]
    rfl
  have hrestart : s.restart (persistentStorageAccess rb1 rb2 array) baseAddress r =
      ⟨c, ⟨⟨⟨p, false⟩⟩, s.cut baseAddress r, .idle⟩⟩ := by
    unfold FdirPersistence.restart
    simp only [hclear, hload, hget, hread, Bool.false_eq_true, if_false, LockablePersistentState.get,
      Bool.not_true]
    rw [hp, loadConfig_configState]
  rw [hrestart]
  exact ⟨⟨rfl, hp⟩, trivial, hstored⟩

theorem Safe.step (h : Safe baseAddress c s) {e : FdirPersistenceEvent} (hquiet : e.Quiet)
    (hs : s.step (persistentStorageAccess rb1 rb2 array) baseAddress e = some t) : Safe baseAddress c t := by
  have hbound : Bound c t := carried_step h.bound h.current.part hs
  cases e with
  | set device limit increment decrement => exact absurd hquiet id
  | update locked =>
    have hrunning : (FdirPersistenceEvent.update locked).Running := ⟨hquiet, by simp⟩
    refine ⟨current_step h.current hrunning hs, hbound, ?_⟩
    obtain rfl := Option.some.inj hs
    exact h.stored
  | saving e =>
    have hrunning : (FdirPersistenceEvent.saving e).Running := ⟨hquiet, by simp⟩
    refine ⟨current_step h.current hrunning hs, hbound, ?_⟩
    obtain ⟨saving, hsaving, rfl⟩ := Option.map_eq_some_iff.1 hs
    exact stored_step h.bound h.stored hsaving
  | restart r =>
    obtain rfl := Option.some.inj hs
    exact h.restart hquiet

/-- With its image captured the configuration is on its way to the storage, or there already. -/
structure Leaving (baseAddress : BitVec 32) (c : Vector (BitVec 32) maxDevices) (s : FdirPersistence) : Prop where
  current : Current c s
  bound : Bound c s
  left : Captured s.saving.pc ∨ Stored baseAddress c s.saving.memory

theorem Leaving.step (h : Leaving baseAddress c s) {e : FdirPersistenceEvent} (hrunning : e.Running)
    (hs : s.step (persistentStorageAccess rb1 rb2 array) baseAddress e = some t) :
    Leaving baseAddress c t ∧ (e = .saving .store → Stored baseAddress c t.saving.memory) := by
  have hcurrent := current_step h.current hrunning hs
  have hbound : Bound c t := carried_step h.bound h.current.part hs
  rcases h.left with hcaptured | hstored
  · cases e with
    | set device limit increment decrement => exact absurd hrunning.1 id
    | update locked =>
      obtain rfl := Option.some.inj hs
      exact ⟨⟨hcurrent, hbound, Or.inl hcaptured⟩, fun he => absurd he (by simp)⟩
    | saving e =>
      obtain ⟨saving, hsaving, rfl⟩ := Option.map_eq_some_iff.1 hs
      rcases captured_step h.bound hcaptured hsaving with ⟨hcaptured', hne⟩ | hstored
      · exact ⟨⟨hcurrent, hbound, Or.inl hcaptured'⟩, fun he => absurd (FdirPersistenceEvent.saving.inj he) hne⟩
      · exact ⟨⟨hcurrent, hbound, Or.inr hstored⟩, fun _ => hstored⟩
    | restart r => exact absurd rfl (hrunning.2 r)
  · have hsafe := Safe.step ⟨h.current, h.bound, hstored⟩ hrunning.1 hs
    exact ⟨⟨hcurrent, hbound, Or.inr hsafe.stored⟩, fun _ => hsafe.stored⟩

/-- A capture takes the configuration along. -/
theorem leaving_of_capture (hcurrent : Current c s) (hwriting : Writing s)
    (hs : s.step (persistentStorageAccess rb1 rb2 array) baseAddress (.saving (.capture true)) = some t) :
    Leaving baseAddress c t := by
  have hrunning : (FdirPersistenceEvent.saving (.capture true)).Running := ⟨trivial, by simp⟩
  have hcurrent' := current_step hcurrent hrunning hs
  obtain ⟨saving, hsaving, rfl⟩ := Option.map_eq_some_iff.1 hs
  rw [StateSaving.step] at hsaving
  unfold Writing at hwriting
  cases hpc : s.saving.pc with
  | capture writer =>
    rw [hpc] at hwriting
    simp only [hpc] at hsaving
    obtain rfl := Option.some.inj hsaving
    exact ⟨hcurrent', ⟨s.saving.parts, StateSaving.parts_hold hwriting s.saving.parts, hcurrent.part⟩, Or.inl trivial⟩
  | _ => simp [hpc] at hsaving

/-! ## Runs -/

/-- No condition but on the event. -/
def Running (_ : FdirPersistence) (e : FdirPersistenceEvent) : Prop := e.Running

def Quiet (_ : FdirPersistence) (e : FdirPersistenceEvent) : Prop := e.Quiet

/-- A copy and a save of it make the configuration safe. -/
theorem safe_of_saved (hcurrent : Current c s) (hwriting : Writing s) {es : List FdirPersistenceEvent}
    (hsaved : SavedIn es)
    (h : Run (step (persistentStorageAccess rb1 rb2 array) baseAddress) Running s es t) :
    Safe baseAddress c t := by
  obtain ⟨before, between, after, rfl⟩ := hsaved
  obtain ⟨s₁, hbefore, hrest⟩ := h.split
  obtain ⟨s₂, -, hcapture, hrest⟩ := hrest.uncons
  obtain ⟨s₃, hbetween, hrest⟩ := hrest.split
  obtain ⟨s₄, hrunning, hstore, hafter⟩ := hrest.uncons
  have hcurrent₁ : Current c s₁ ∧ Writing s₁ := by
    refine Run.inv (I := fun s => Current c s ∧ Writing s) ⟨hcurrent, hwriting⟩ ?_ hbefore
    intro s e t hI hrunning hs
    exact ⟨current_step hI.1 hrunning hs, carried_step hI.2 trivial hs⟩
  have hleaving₂ : Leaving baseAddress c s₂ := leaving_of_capture hcurrent₁.1 hcurrent₁.2 hcapture
  have hleaving₃ : Leaving baseAddress c s₃ :=
    hbetween.inv hleaving₂ fun _ _ _ hI hrunning hs => (hI.step hrunning hs).1
  obtain ⟨hleaving₄, hstored⟩ := hleaving₃.step hrunning hstore
  have hsafe₄ : Safe baseAddress c s₄ := ⟨hleaving₄.current, hleaving₄.bound, hstored rfl⟩
  exact hafter.inv hsafe₄ fun _ _ _ hI hrunning hs => hI.step hrunning.1 hs

/-- **A saved configuration stays.** Once the mission loop has copied it and the state has been saved,
the configuration of the error counters stays as it is, through whatever is saved later and any number of
restarts, also if the power goes away in the middle of a write, until it is set again. -/
theorem configuration_kept {s₀ : FdirPersistence} {es₀ es₁ es₂ : List FdirPersistenceEvent}
    (hidle : s₀.saving.pc = .idle)
    (hcopied : Run (step (persistentStorageAccess rb1 rb2 array) baseAddress) always s₀ (es₀ ++ [.update true]) s)
    (hsave : Run (step (persistentStorageAccess rb1 rb2 array) baseAddress) Running s es₁ t) (hsaved : SavedIn es₁)
    (hlater : Run (step (persistentStorageAccess rb1 rb2 array) baseAddress) Quiet t es₂ u) :
    u.configuration = s.configuration := by
  have hwriting : Writing s := by
    have hwriting₀ : Writing s₀ := by
      unfold Writing
      rw [hidle]
      trivial
    exact hcopied.inv hwriting₀ fun _ _ _ hI _ hs => carried_step hI trivial hs
  have hcurrent : Current s.configuration s := by
    obtain ⟨r, -, -, hupdate⟩ := hcopied.unsnoc
    obtain rfl := Option.some.inj hupdate
    exact ⟨rfl, rfl⟩
  have hsafe := safe_of_saved hcurrent hwriting hsaved hsave
  have hend : Safe baseAddress s.configuration u := hlater.inv hsafe fun _ _ _ hI hquiet hs => hI.step hquiet hs
  exact hend.current.configuration

end

/-- A run of the saving task alone. -/
theorem run_saving {storage : StorageAccess RedundantFm25w} {baseAddress : BitVec 32}
    {ok : FdirPersistence → FdirPersistenceEvent → Prop} {s t : StateSaving RedundantFm25w} {es : List SaveEvent}
    (hes : ∀ e ∈ es, ∀ s, ok s (.saving e)) (configuration : Vector (BitVec 32) maxDevices)
    (h : Run (StateSaving.step storage baseAddress) always s es t) :
    Run (step storage baseAddress) ok ⟨configuration, s⟩ (es.map .saving) ⟨configuration, t⟩ := by
  induction h with
  | nil => exact .nil
  | @snoc es t t' e hrun hok hs ih =>
    rw [List.map_append, List.map_singleton]
    have hstep : (⟨configuration, t⟩ : FdirPersistence).step storage baseAddress (.saving e) =
        some ⟨configuration, t'⟩ := by
      rw [FdirPersistence.step, hs]
      rfl
    have hlast := hes e (List.mem_append_right _ (List.mem_singleton_self e))
    exact (ih fun e' he' => hes e' (List.mem_append_left _ he')).snoc (hlast _) hstep

theorem zero_lt_maxDevices : 0 < maxDevices := by decide

/-- The limit of a device is set and saved; the clock is set, and while that is saved the power goes away
with the first chip written and 100 bytes on the second one. -/
theorem configuration_kept_restart : ∃ (t u : FdirPersistence) (image : List Byte),
    t.saving.pc = .store image ∧ u.saving.memory = t.saving.memory.writeCut 16 image 1 100 ∧
      u.configuration = defaultConfiguration.set 0 (SetErrorCounterConfig.config 9 5 2) zero_lt_maxDevices := by
  have hzero : 0 % 4 = 0 := rfl
  let fram := persistentStorageAccess ⟨0, hzero⟩ ⟨0, hzero⟩ ⟨0, hzero⟩
  let array : Vector Byte totalImageSize := Vector.replicate totalImageSize 0
  let s₀ : FdirPersistence :=
    ⟨defaultConfiguration, ⟨⟨PersistentState.init⟩, ⟨fun _ => 0, fun _ => 0, fun _ => 0⟩, .idle⟩⟩
  let set : FdirPersistenceEvent := .set ⟨0, zero_lt_maxDevices⟩ 9 5 2
  have hset : ∃ s, Run (step fram 16) always s₀ ([set] ++ [.update true]) s ∧ s.saving.pc = .idle ∧
      s.saving.stateObject.state.isModified = true ∧
      s.configuration = defaultConfiguration.set 0 (SetErrorCounterConfig.config 9 5 2) zero_lt_maxDevices :=
    ⟨_, (Run.nil.snoc trivial rfl).snoc trivial rfl, rfl, rfl, rfl⟩
  obtain ⟨s, hcopied, hpc, hmodified, hconfiguration⟩ := hset
  let first : List SaveEvent := [.condition true array, .capture true, .footer, .store]
  have hsave : ∃ saved : StateSaving RedundantFm25w, saved.pc = .idle ∧
      Run (step fram 16) Running s (first.map .saving) ⟨s.configuration, saved⟩ :=
    ⟨_, rfl, run_saving (by simp [first, Running, FdirPersistenceEvent.Running, FdirPersistenceEvent.Quiet])
      s.configuration (StateSaving.uninterrupted_save hpc hmodified array)⟩
  obtain ⟨saved, hidle, hsave⟩ := hsave
  have hsaved : SavedIn (first.map .saving) :=
    ⟨[.saving (.condition true array)], [.saving .footer], [], rfl⟩
  let clock : FdirPersistenceEvent := .saving (.set true fun p => { p with timeState := ⟨7, 7⟩ })
  have hclock : clock.Quiet := fun _ => rfl
  let changed : StateSaving RedundantFm25w :=
    { saved with stateObject := (saved.stateObject.set true fun p => { p with timeState := ⟨7, 7⟩ }).2 }
  let second : List SaveEvent := [.condition true array, .capture true, .footer]
  have hwritten : Run (step fram 16) Quiet ⟨s.configuration, changed⟩ (second.map .saving) _ :=
    run_saving (by simp [second, Quiet, FdirPersistenceEvent.Quiet]) s.configuration
      (@StateSaving.reaches_store _ fram 16 changed hidle rfl array)
  have hrestart : FdirPersistenceEvent.Quiet (.restart ⟨1, 100, false, true, true, array⟩) := ⟨rfl, rfl, rfl⟩
  have hlater : Run (step fram 16) Quiet ⟨s.configuration, saved⟩ _ _ :=
    .cons (e := clock) hclock rfl (hwritten.snoc hrestart rfl)
  exact ⟨_, _, _, rfl, rfl, (configuration_kept rfl hcopied hsave hsaved hlater).trans hconfiguration⟩

end FdirPersistence

end PWSat2OBC
