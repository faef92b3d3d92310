import PWSat2OBC.Lib.Runs
import PWSat2OBC.Spec.TelemetryTask

/-!
# Telemetry files over whole runs

* `saves_intact`: as long as `Size` reports the real size and `Seek` succeeds, entries are
  appended at aligned offsets, none overlaps an earlier one, and the previous file holds all
  of what was written before it was archived. All other operations may fail.
* `failed_seek`: `SaveToFile` does not look at the result of `Seek`, so after a failed one it
  writes over the start of the file.
-/

namespace PWSat2OBC.TelemetryTask

open Runs

/-! ## Files -/

/-- The best offset is the next multiple of the alignment. -/
theorem calculateBestOffset_spec {size : BitVec 32} (h : size.toNat < 2 ^ 31) :
    (calculateBestOffset size).toNat % 230 = 0 ∧ size.toNat ≤ (calculateBestOffset size).toNat := by
  have hrem : (size % alignFileEntriesTo).toNat = size.toNat % 230 := by
    rw [BitVec.toNat_umod]
    rfl
  have hlt : size.toNat % 230 < 230 := Nat.mod_lt _ (by decide)
  unfold calculateBestOffset
  dsimp only
  -- a size that is a multiple needs no padding
  split
  · rename_i hzero
    have hzero := congrArg BitVec.toNat hzero
    rw [hrem] at hzero
    exact ⟨hzero, le_rfl⟩
  · have hpad : (alignFileEntriesTo - size % alignFileEntriesTo).toNat = 230 - size.toNat % 230 := by
      rw [BitVec.toNat_sub, hrem]
      simp only [alignFileEntriesTo, BitVec.reduceToNat]
      omega
    have hsum : (size + (alignFileEntriesTo - size % alignFileEntriesTo)).toNat = size.toNat + (230 - size.toNat % 230) := by
      rw [BitVec.toNat_add, hpad]
      exact Nat.mod_eq_of_lt (by omega)
    rw [hsum]
    omega

/-- A write behind the end extends the file. -/
theorem prefix_writeAt {file bytes : List Byte} {position : ℕ} (h : file.length ≤ position) :
    file <+: writeAt file position bytes := by
  unfold writeAt
  split
  · exact List.prefix_refl file
  · rw [List.take_of_length_le h, List.append_assoc, List.append_assoc]
    exact List.prefix_append file _

/-- What was written stands at its position. -/
theorem written_writeAt {file bytes : List Byte} {position : ℕ} (h : file.length ≤ position) :
    bytes <+: (writeAt file position bytes).drop position := by
  unfold writeAt
  split
  · rename_i hempty
    rw [List.isEmpty_iff.1 hempty]
    exact List.nil_prefix
  · have hlength : (file.take position ++ List.replicate (position - file.length) 0).length = position := by
      rw [List.take_of_length_le h, List.length_append, List.length_replicate]
      omega
    rw [List.append_assoc, List.drop_append_of_le_length (by rw [hlength]),
      List.drop_of_length_le (by rw [hlength]), List.nil_append]
    exact List.prefix_append bytes _

/-! ## What a file should hold -/

variable {maxFileSize : ℤ}

/-- The file holds the bytes it was found with and all that was written since: each entry at
an aligned offset, behind all bytes of the earlier ones, and appended to a file that was not
full. -/
structure Holds (maxFileSize : ℤ) (c : Contents) (file : List Byte) : Prop where
  found : c.found <+: file
  aligned : ∀ e ∈ c.entries, e.offset % 230 = 0
  notFull : ∀ e ∈ c.entries, (e.sizeBefore : ℤ) < maxFileSize
  stored : ∀ e ∈ c.entries, e.bytes <+: file.drop e.offset
  behind : ∀ e ∈ c.entries, c.found.length ≤ e.offset
  apart : c.entries.Pairwise fun a b => ∀ i < a.bytes.length, a.offset + i < b.offset

theorem holds_found (file : List Byte) : Holds maxFileSize ⟨file, []⟩ file := by
  refine ⟨List.prefix_refl file, ?_, ?_, ?_, ?_, List.Pairwise.nil⟩
  all_goals exact fun e he => absurd he List.not_mem_nil

/-- The bytes of an entry lie in the file. -/
theorem Holds.lt_length {c : Contents} {file : List Byte} (h : Holds maxFileSize c file) {e : Entry}
    (he : e ∈ c.entries) {i : ℕ} (hi : i < e.bytes.length) : e.offset + i < file.length := by
  have hle := (h.stored e he).length_le
  rw [List.length_drop] at hle
  omega

/-- **Appending an entry** keeps the earlier ones. -/
theorem Holds.append {c : Contents} {file : List Byte} (h : Holds maxFileSize c file) {position : ℕ}
    (hposition : file.length ≤ position) (haligned : position % 230 = 0)
    (hfull : (file.length : ℤ) < maxFileSize) (bytes : List Byte) (ok : Bool) :
    Holds maxFileSize ⟨c.found, c.entries ++ [⟨position, bytes, file.length, ok⟩]⟩
      (writeAt file position bytes) := by
  have hextends := @prefix_writeAt file bytes position hposition
  constructor
  · exact h.found.trans hextends
  · intro e he
    rcases List.mem_append.1 he with he | he
    · exact h.aligned e he
    · obtain rfl := List.mem_singleton.1 he
      exact haligned
  · intro e he
    rcases List.mem_append.1 he with he | he
    · exact h.notFull e he
    · obtain rfl := List.mem_singleton.1 he
      exact hfull
  · intro e he
    rcases List.mem_append.1 he with he | he
    · exact (h.stored e he).trans (hextends.drop e.offset)
    · obtain rfl := List.mem_singleton.1 he
      exact written_writeAt hposition
  · intro e he
    rcases List.mem_append.1 he with he | he
    · exact h.behind e he
    · obtain rfl := List.mem_singleton.1 he
      exact le_trans h.found.length_le hposition
  · rw [List.pairwise_append]
    refine ⟨h.apart, List.pairwise_singleton _ _, ?_⟩
    intro a ha b hb i hi
    obtain rfl := List.mem_singleton.1 hb
    exact lt_of_lt_of_le (h.lt_length ha hi) hposition

/-- **Nothing is lost**: the current file holds what was written since the last archiving, and
the previous file all that was written before it. -/
def Intact (maxFileSize : ℤ) (s : TelemetryTask) : Prop :=
  Holds maxFileSize s.written (s.current.getD []) ∧
    ∀ c, s.archived = some c → ∃ file, s.previous = some file ∧ Holds maxFileSize c file

/-! ## Runs -/

/-- The offset that `Seek` gets. -/
def seekOffset (s : TelemetryTask) : BitVec 32 :=
  match s.pc with
  | .seeking _ size => calculateBestOffset size
  | _ => 0

/-- `Size` reports the real size, and `Seek` succeeds unless the file is empty. -/
def SizeAndSeek (s : TelemetryTask) : TelemetryEvent → Prop
  | .size reported => reported.toInt = (s.current.getD []).length
  | .seek ok => seekSucceeds ok s.seekOffset = true ∨ s.current.getD [] = []
  | _ => True

instance (s : TelemetryTask) (e : TelemetryEvent) : Decidable (SizeAndSeek s e) :=
  match e with
  | .size _ => inferInstanceAs (Decidable (_ = _))
  | .seek _ => inferInstanceAs (Decidable (_ ∨ _))
  | .save _ _ | .move _ | .create _ | .write _ _ => inferInstanceAs (Decidable True)

/-- What the task knows of the current file at each operation. -/
def Known (maxFileSize : ℤ) (current : Option (List Byte)) : Pc → Prop
  | .idle => True
  | .sizing _ | .moving _ => current.isSome
  | .creating _ | .sizingNew _ => current.getD [] = []
  | .seeking _ size =>
    size.toInt = (current.getD []).length ∧ ((current.getD []).length : ℤ) < maxFileSize
  | .writing _ position =>
    ((current.getD []).length : ℤ) < maxFileSize ∧ (current.getD []).length ≤ position ∧
      position % 230 = 0

/-- The invariant of the run. -/
structure Inv (maxFileSize : ℤ) (s : TelemetryTask) : Prop where
  intact : Intact maxFileSize s
  known : Known maxFileSize s.current s.pc

/-- The position after a seek that may be ignored. -/
theorem position_spec {file : List Byte} {size : BitVec 32} (hsize : size.toInt = file.length)
    {ok : Bool} (h : seekSucceeds ok (calculateBestOffset size) = true ∨ file = []) :
    let position := if seekSucceeds ok (calculateBestOffset size) then
      (calculateBestOffset size).toNat else 0
    file.length ≤ position ∧ position % 230 = 0 := by
  intro position
  have hnonneg : size.toNat < 2 ^ 31 ∧ size.toNat = file.length := by
    rw [BitVec.toInt_eq_toNat_cond] at hsize
    have := size.isLt
    split at hsize <;> omega
  have hspec := calculateBestOffset_spec hnonneg.1
  simp only [position]
  split
  · rw [← hnonneg.2]
    exact ⟨hspec.2, hspec.1⟩
  · rename_i hfails
    rw [h.resolve_left hfails]
    exact ⟨le_rfl, rfl⟩

/-- **One file operation** keeps the invariant. -/
theorem step_inv (hmax : 0 < maxFileSize) {s t : TelemetryTask} {e : TelemetryEvent}
    (h : Inv maxFileSize s) (hok : SizeAndSeek s e) (hs : step maxFileSize s e = some t) :
    Inv maxFileSize t := by
  obtain ⟨⟨hcurrent, hprevious⟩, hknown⟩ := h
  cases e with
  | save buffer opened =>
    cases hpc : s.pc with
    | idle =>
      simp only [step, hpc] at hs
      split at hs
      · obtain rfl := Option.some.inj hs
        exact ⟨⟨hcurrent, hprevious⟩, rfl⟩
      · obtain rfl := Option.some.inj hs
        exact ⟨⟨hcurrent, hprevious⟩, trivial⟩
    | _ => simp [step, hpc] at hs
  | size reported =>
    have hsize : reported.toInt = (s.current.getD []).length := hok
    cases hpc : s.pc with
    | sizing buffer =>
      rw [hpc] at hknown
      simp only [step, hpc] at hs
      split at hs
      · -- the file is full and will be archived
        obtain rfl := Option.some.inj hs
        exact ⟨⟨hcurrent, hprevious⟩, hknown⟩
      · rename_i hfull
        obtain rfl := Option.some.inj hs
        exact ⟨⟨hcurrent, hprevious⟩, hsize, by rw [← hsize]; exact not_le.1 hfull⟩
    | sizingNew buffer =>
      rw [hpc] at hknown
      have hempty : s.current.getD [] = [] := hknown
      simp only [step, hpc] at hs
      obtain rfl := Option.some.inj hs
      -- the limit is not looked at again, but the new file is below any positive one
      exact ⟨⟨hcurrent, hprevious⟩, hsize, by rw [hempty]; exact hmax⟩
    | _ => simp [step, hpc] at hs
  | move ok =>
    cases hpc : s.pc with
    | moving buffer =>
      rw [hpc] at hknown
      obtain ⟨file, hfile⟩ := Option.isSome_iff_exists.1 hknown
      simp only [step, hpc] at hs
      split at hs
      · -- the current file becomes the previous one
        obtain rfl := Option.some.inj hs
        rw [hfile] at hcurrent
        refine ⟨⟨holds_found [], ?_⟩, rfl⟩
        intro c hc
        obtain rfl := Option.some.inj hc
        exact ⟨file, hfile, hcurrent⟩
      · obtain rfl := Option.some.inj hs
        exact ⟨⟨hcurrent, hprevious⟩, trivial⟩
    | _ => simp [step, hpc] at hs
  | create ok =>
    cases hpc : s.pc with
    | creating buffer =>
      rw [hpc] at hknown
      have hempty : s.current.getD [] = [] := hknown
      simp only [step, hpc] at hs
      -- after the move there was no file, so truncating it loses nothing
      split at hs
      · obtain rfl := Option.some.inj hs
        rw [hempty] at hcurrent
        exact ⟨⟨hcurrent, hprevious⟩, rfl⟩
      · obtain rfl := Option.some.inj hs
        exact ⟨⟨hcurrent, hprevious⟩, trivial⟩
    | _ => simp [step, hpc] at hs
  | seek ok =>
    cases hpc : s.pc with
    | seeking buffer size =>
      rw [hpc] at hknown
      obtain ⟨hsize, hfull⟩ := hknown
      -- where the seek may fail the file is empty, and position 0 is its end
      simp only [SizeAndSeek, seekOffset, hpc] at hok
      simp only [step, hpc] at hs
      obtain rfl := Option.some.inj hs
      exact ⟨⟨hcurrent, hprevious⟩, hfull, position_spec hsize hok⟩
    | _ => simp [step, hpc] at hs
  | write ok stored =>
    cases hpc : s.pc with
    | writing buffer position =>
      rw [hpc] at hknown
      obtain ⟨hfull, hposition, haligned⟩ := hknown
      simp only [step, hpc] at hs
      obtain rfl := Option.some.inj hs
      exact ⟨⟨hcurrent.append hposition haligned hfull (buffer.take stored) ok, hprevious⟩, trivial⟩
    | _ => simp [step, hpc] at hs

/-- The files the task finds are intact. -/
theorem init_inv (current previous : Option (List Byte)) : Inv maxFileSize (init current previous) := by
  refine ⟨⟨holds_found _, ?_⟩, trivial⟩
  intro c hc
  obtain ⟨file, hfile, rfl⟩ := Option.map_eq_some_iff.1 hc
  exact ⟨file, hfile, holds_found file⟩

/-- **Nothing is lost in a run** in which `Size` and `Seek` do their work, whatever files it
begins with. -/
theorem saves_intact (hmax : 0 < maxFileSize) {current previous : Option (List Byte)}
    {es : List TelemetryEvent} {s : TelemetryTask}
    (h : Run (step maxFileSize) SizeAndSeek (init current previous) es s) : Intact maxFileSize s :=
  (h.inv (init_inv current previous) fun _ _ _ hinv hok hs => step_inv hmax hinv hok hs).intact

/-- Files of one byte: each save archives the file of the one before. -/
theorem saves_intact_example :
    ∃ s, s.archived = some ⟨[], [⟨0, [1], 0, true⟩]⟩ ∧ s.current = some [2] ∧ Intact 1 s := by
  have hrun : Run (step 1) SizeAndSeek (init none none)
      [.save [1] true, .size 0, .seek true, .write true 1,
        .save [2] true, .size 1, .move true, .create true, .size 0, .seek true, .write true 1]
      ⟨some [2], some [1], .idle, some true, ⟨[], [⟨0, [2], 0, true⟩]⟩,
        some ⟨[], [⟨0, [1], 0, true⟩]⟩⟩ := run_of_exec _ (by decide +kernel)
  exact ⟨_, rfl, rfl, saves_intact (by decide) hrun⟩

/-- **A failed seek**: the second entry is written over the first one, and both writes
succeed. -/
theorem failed_seek :
    ∃ s, Run (step (512 * 1024)) always (init none none)
        [.save [1] true, .size 0, .seek true, .write true 1,
          .save [2] true, .size 1, .seek false, .write true 1] s ∧
      s.written.entries = [⟨0, [1], 0, true⟩, ⟨0, [2], 1, true⟩] ∧ s.current = some [2] ∧
      ¬ Intact (512 * 1024) s := by
  refine ⟨⟨some [2], none, .idle, some true, ⟨[], [⟨0, [1], 0, true⟩, ⟨0, [2], 1, true⟩]⟩, none⟩,
    run_of_exec _ (by decide +kernel), rfl, rfl, ?_⟩
  rintro ⟨hcurrent, -⟩
  have hfirst := hcurrent.stored ⟨0, [1], 0, true⟩ List.mem_cons_self
  exact absurd hfirst (by decide)

end PWSat2OBC.TelemetryTask
