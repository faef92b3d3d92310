import PWSat2OBC.Proof.PersistentState
import PWSat2OBC.Spec.StateSaving

/-!
# Saving drops no change

`Saved`: outside a save the state is modified or its image is stored; inside one the image
being written is that of the parts as they were captured, and if they have changed since,
the state is modified. Every step keeps this, because the parts always fit the buffer, so
a save that has cleared the flag reaches the storage.
-/

namespace PWSat2OBC

open State ObcState Runs

namespace StateSaving

variable {μ : Type} {storage : StorageAccess μ} {baseAddress : BitVec 32} {s t : StateSaving μ}

/-! ### The image -/

/-- The buffer after the first signature. -/
theorem header_holds (array : Vector Byte totalImageSize) :
    ((Writer.init array.toList).writeDoubleWordLE signature).2.Holds totalImageSize
      (Redundancy.storeWord signature) := by
  have htotal : totalImageSize = 289 := rfl
  have h0 : (Writer.init array.toList).Holds totalImageSize [] :=
    Writer.holds_reset (w := Writer.init array.toList) (by simp [Writer.init]) (by decide) (by decide)
  have h1 := (stored_doubleWord signature).written h0 (by simp [Redundancy.storeWord, htotal])
  rw [List.nil_append] at h1
  exact h1

/-- All parts fit behind it. -/
theorem parts_hold {w : Writer} (h : w.Holds totalImageSize (Redundancy.storeWord signature)) (p : Parts) :
    (p.write w).Holds totalImageSize (Redundancy.storeWord signature ++ p.bytes) := by
  have hlength := p.length_bytes
  have hsize : Parts.size = 281 := rfl
  have htotal : totalImageSize = 289 := rfl
  exact (Parts.stored p p).written h (by simp [Redundancy.storeWord, hlength, hsize, htotal])

/-- And the second signature behind them: the image is always generated. -/
theorem footer_holds {w : Writer} {p : Parts}
    (h : w.Holds totalImageSize (Redundancy.storeWord signature ++ p.bytes)) :
    (w.writeDoubleWordLE signature).2.status = true ∧
      (w.writeDoubleWordLE signature).2.capture = image p := by
  have hlength := p.length_bytes
  have hsize : Parts.size = 281 := rfl
  have htotal : totalImageSize = 289 := rfl
  have h3 := (stored_doubleWord signature).written h
    (by simp [Redundancy.storeWord, hlength, hsize, htotal])
  refine ⟨h3.isValid, ?_⟩
  rw [h3.capture, image, List.append_assoc]

/-! ### The invariant -/

/-- What is stored or on its way to the storage, or the state is modified. -/
def Saved (storage : StorageAccess μ) (baseAddress : BitVec 32) (s : StateSaving μ) : Prop :=
  match s.pc with
  | .idle => s.stateObject.state.isModified = true ∨ s.stored storage baseAddress = image s.parts
  | .capture writer =>
    (s.stateObject.state.isModified = true ∨ s.stored storage baseAddress = image s.parts) ∧
      writer.Holds totalImageSize (Redundancy.storeWord signature)
  | .footer writer =>
    ∃ p, writer.Holds totalImageSize (Redundancy.storeWord signature ++ p.bytes) ∧
      (s.stateObject.state.isModified = true ∨ p = s.parts)
  | .store bytes => ∃ p, bytes = image p ∧ (s.stateObject.state.isModified = true ∨ p = s.parts)

/-- A `Set` marks the state, or changes nothing. -/
theorem set_spec (o : LockablePersistentState) (locked : Bool) (update : Parts → Parts) :
    (o.set locked update).2.state.isModified = true ∨ (o.set locked update).2 = o := by
  cases locked with
  | false => exact .inr rfl
  | true => exact .inl rfl

theorem Saved.set (h : Saved storage baseAddress s) (locked : Bool) (update : Parts → Parts) :
    Saved storage baseAddress { s with stateObject := (s.stateObject.set locked update).2 } := by
  rcases set_spec s.stateObject locked update with hmodified | hsame
  · -- whatever is on its way, the state is modified now
    unfold Saved at h ⊢
    cases hpc : s.pc with
    | idle => exact .inl hmodified
    | capture writer =>
      rw [hpc] at h
      exact ⟨.inl hmodified, h.2⟩
    | footer writer =>
      rw [hpc] at h
      obtain ⟨p, hw, -⟩ := h
      exact ⟨p, hw, .inl hmodified⟩
    | store bytes =>
      rw [hpc] at h
      obtain ⟨p, hbytes, -⟩ := h
      exact ⟨p, hbytes, .inl hmodified⟩
  · rw [hsame]
    exact h

/-- The storage gives back the image that was written last. -/
def ReadsBack (storage : StorageAccess μ) (baseAddress : BitVec 32) : Prop :=
  ∀ memory p, storage.read (storage.write memory baseAddress (image p)) baseAddress totalImageSize = image p

/-- **Every step keeps the invariant.** -/
theorem Saved.step (hback : ReadsBack storage baseAddress) (h : Saved storage baseAddress s) {e : SaveEvent}
    (hs : s.step storage baseAddress e = some t) : Saved storage baseAddress t := by
  cases e with
  | set locked update =>
    obtain rfl := Option.some.inj hs
    exact h.set locked update
  | condition locked array =>
    rw [StateSaving.step] at hs
    cases hpc : s.pc with
    | idle =>
      simp only [hpc] at hs
      split at hs
      · obtain rfl := Option.some.inj hs
        unfold Saved at h ⊢
        rw [hpc] at h
        exact ⟨h, header_holds array⟩
      · obtain rfl := Option.some.inj hs
        exact h
    | _ => simp [hpc] at hs
  | capture locked =>
    rw [StateSaving.step] at hs
    cases hpc : s.pc with
    | capture writer =>
      simp only [hpc] at hs
      unfold Saved at h
      rw [hpc] at h
      obtain ⟨hstored, hw⟩ := h
      cases locked with
      | false =>
        -- the flag is not cleared
        obtain rfl := Option.some.inj hs
        exact hstored
      | true =>
        obtain rfl := Option.some.inj hs
        exact ⟨s.parts, parts_hold hw s.parts, .inr rfl⟩
    | _ => simp [hpc] at hs
  | footer =>
    rw [StateSaving.step] at hs
    cases hpc : s.pc with
    | footer writer =>
      simp only [hpc] at hs
      unfold Saved at h
      rw [hpc] at h
      obtain ⟨p, hw, hcurrent⟩ := h
      obtain ⟨hstatus, hcapture⟩ := footer_holds hw
      rw [hstatus, hcapture] at hs
      obtain rfl := Option.some.inj hs
      exact ⟨p, rfl, hcurrent⟩
    | _ => simp [hpc] at hs
  | store =>
    rw [StateSaving.step] at hs
    cases hpc : s.pc with
    | store bytes =>
      simp only [hpc] at hs
      unfold Saved at h
      rw [hpc] at h
      obtain ⟨p, rfl, hcurrent⟩ := h
      obtain rfl := Option.some.inj hs
      rcases hcurrent with hmodified | rfl
      · exact .inl hmodified
      · exact .inr (hback s.memory s.parts)
    | _ => simp [hpc] at hs

theorem saved_of_run (hback : ReadsBack storage baseAddress) {es : List SaveEvent} (h0 : Saved storage baseAddress s)
    (h : Run (StateSaving.step storage baseAddress) always s es t) : Saved storage baseAddress t :=
  h.inv h0 fun _ _ _ hi _ hs => Saved.step hback hi hs

/-- A save without anything in between comes to the image of the parts. -/
theorem reaches_store (hidle : s.pc = .idle) (hmodified : s.stateObject.state.isModified = true)
    (array : Vector Byte totalImageSize) :
    Run (StateSaving.step storage baseAddress) always s [.condition true array, .capture true, .footer]
      ⟨⟨{ s.stateObject.state with isModified := false }⟩, s.memory, .store (image s.parts)⟩ := by
  obtain ⟨hstatus, hcapture⟩ := footer_holds (parts_hold (header_holds array) s.parts)
  let header := ((Writer.init array.toList).writeDoubleWordLE signature).2
  let saved : LockablePersistentState := ⟨{ s.stateObject.state with isModified := false }⟩
  have hbegun : s.step storage baseAddress (.condition true array) =
      some { s with pc := .capture header } := by
    have hcondition : s.stateObject.isModified true = true := hmodified
    rw [StateSaving.step]
    simp only [hidle, hcondition, if_true]
    rfl
  have hcaptured : ({ s with pc := .capture header } : StateSaving μ).step storage baseAddress (.capture true) =
      some ⟨saved, s.memory, .footer (s.parts.write header)⟩ := rfl
  have hcompleted : (⟨saved, s.memory, .footer (s.parts.write header)⟩ : StateSaving μ).step storage
      baseAddress .footer = some ⟨saved, s.memory, .store (image s.parts)⟩ := by
    rw [StateSaving.step]
    simp only [header, hstatus, hcapture, Bool.not_true, Bool.false_eq_true, if_false]
  exact .cons trivial hbegun (.cons trivial hcaptured (.cons trivial hcompleted .nil))

/-- A save without anything in between is `WritePersistentState`. -/
theorem uninterrupted_save (hidle : s.pc = .idle) (hmodified : s.stateObject.state.isModified = true)
    (array : Vector Byte totalImageSize) :
    Run (StateSaving.step storage baseAddress) always s
      [.condition true array, .capture true, .footer, .store]
      { stateObject := (writePersistentState storage array s.stateObject true baseAddress s.memory).2.1
        memory := (writePersistentState storage array s.stateObject true baseAddress s.memory).2.2
        pc := .idle } := by
  rw [writePersistentState_eq]
  exact (reaches_store hidle hmodified array).snoc trivial rfl

/-- **Saving never drops a change**: where no save is in progress, the state is modified or
the stored image is that of the parts, with the interval of the periodic message modulo 256
minutes. -/
theorem saving_drops_nothing (rb1 rb2 array : Aligned4) (baseAddress : BitVec 32)
    {s t : StateSaving RedundantFm25w} {es : List SaveEvent} :
    let fram := persistentStorageAccess rb1 rb2 array
    s.pc = .idle → s.stored fram baseAddress = image s.parts →
      Run (StateSaving.step fram baseAddress) always s es t → t.pc = .idle →
        t.stateObject.isModified true = true ∨
          (parse (t.stored fram baseAddress)).map (·.parts) = some t.parts.throughByte ∧
            (t.parts.messageState.interval.toNat < 256 →
              (parse (t.stored fram baseAddress)).map (·.parts) = some t.parts) := by
  intro fram hidle hstored h hend
  have h0 : Saved fram baseAddress s := by
    unfold Saved
    rw [hidle]
    exact .inr hstored
  have hback : ReadsBack fram baseAddress := fun memory p =>
    persistentStorageAccess_read_write rb1 rb2 array memory baseAddress p
  have hsaved := saved_of_run hback h0 h
  unfold Saved at hsaved
  rw [hend] at hsaved
  rcases hsaved with hmodified | hcurrent
  · exact .inl hmodified
  · have hdecoded : (parse (t.stored fram baseAddress)).map (·.parts) = some t.parts.throughByte := by
      rw [hcurrent, parse_image, Option.map_some]
    refine .inr ⟨hdecoded, ?_⟩
    intro hshort
    rw [hdecoded, (throughByte_eq_iff t.parts).2 hshort]

/-- The chips after the default state has been saved. -/
def savedDefault : StateSaving RedundantFm25w where
  stateObject := ⟨PersistentState.init⟩
  memory := RedundantFm25w.write ⟨fun _ => 0, fun _ => 0, fun _ => 0⟩ 8 (image Parts.init)
  pc := .idle

theorem savedDefault_stored :
    savedDefault.stored (persistentStorageAccess ⟨0, rfl⟩ ⟨0, rfl⟩ ⟨0, rfl⟩) 8 = image savedDefault.parts :=
  persistentStorageAccess_read_write ⟨0, rfl⟩ ⟨0, rfl⟩ ⟨0, rfl⟩ _ 8 Parts.init

/-- A changed part and a save that does not get the lock: the state stays modified. -/
theorem savedDefault_failed_save :
    let fram := persistentStorageAccess ⟨0, rfl⟩ ⟨0, rfl⟩ ⟨0, rfl⟩
    let t : StateSaving RedundantFm25w :=
      { savedDefault with stateObject := ⟨⟨{ Parts.init with sailState := ⟨1⟩ }, true⟩⟩ }
    t.stateObject.isModified true = true ∨
      (parse (t.stored fram 8)).map (·.parts) = some t.parts.throughByte ∧
        (t.parts.messageState.interval.toNat < 256 →
          (parse (t.stored fram 8)).map (·.parts) = some t.parts) := by
  intro fram t
  have hrun : Run (StateSaving.step fram 8) always savedDefault
      [.set true fun p => { p with sailState := ⟨1⟩ },
        .condition true (Vector.replicate totalImageSize 0), .capture false] t :=
    .cons trivial rfl (.cons trivial rfl (.cons trivial rfl .nil))
  exact saving_drops_nothing ⟨0, rfl⟩ ⟨0, rfl⟩ ⟨0, rfl⟩ 8 rfl savedDefault_stored hrun rfl

/-- An interval of 256 minutes is set and saved: the state counts as saved, and the image
has another interval. -/
theorem longInterval_dropped :
    let fram := persistentStorageAccess ⟨0, rfl⟩ ⟨0, rfl⟩ ⟨0, rfl⟩
    ∃ t, Run (StateSaving.step fram 8) always savedDefault
        [.set true fun p => { p with messageState := { p.messageState with interval := 256 } },
          .condition true (Vector.replicate totalImageSize 0), .capture true, .footer, .store] t ∧
      t.pc = .idle ∧ t.stateObject.isModified true = false ∧
      t.parts.messageState.interval = 256 ∧
      (parse (t.stored fram 8)).map (·.parts) ≠ some t.parts := by
  intro fram
  have hset : savedDefault.step fram 8
      (.set true fun p => { p with messageState := { p.messageState with interval := 256 } }) =
        some { savedDefault with
          stateObject := ⟨⟨{ Parts.init with messageState := { MessageState.init with interval := 256 } }, true⟩⟩ } :=
    rfl
  refine ⟨_, Run.cons trivial hset
    (uninterrupted_save rfl rfl (Vector.replicate totalImageSize 0)), rfl, ?_, ?_, ?_⟩
  · rw [writePersistentState_eq]
    rfl
  · rw [writePersistentState_eq]
    rfl
  · rw [writePersistentState_eq, stored, persistentStorageAccess_read_write, parse_image, Option.map_some]
    intro h
    have hsame := Option.some.inj h
    have hshort := (throughByte_eq_iff _).1 hsame
    exact absurd hshort (by decide)

end StateSaving

end PWSat2OBC
