import PWSat2OBC.Proof.Beacon

/-!
# The beacon, from the satellite to the ground

`beacon_decodes_iff`: the telemetry is written, its bytes are parsed, and the ground shows it
exactly when it is `Decodable`. `shown_iff` cuts the parser's list into the sections,
`written_eq` says that the whole telemetry fits the writer.
-/

namespace PWSat2OBC

open Bits BeaconParser

namespace Telemetry

namespace ManagedTelemetry

variable (t : ManagedTelemetry)

/-- The parser reads the bits of `t` with fields of these lengths. -/
theorem write_lengths :
    (t.write.map BitWrite.bits).map List.length = (rows fullBeaconParser).map fun row => row.2.length := by
  rw [← sections_writes, List.map_map, List.map_flatMap]
  have hrows : rows fullBeaconParser =
      t.sections.flatMap fun s => s.parser.fields.map fun f => (s.parser.category, f) := by
    rw [rows, ← map_parser_sections t, List.flatMap_map]
  rw [hrows, List.map_flatMap, List.flatMap_congr]
  intro s hs
  have h := (t.sections_agree s hs).lengths
  simpa [Function.comp_def] using h

theorem lengths_le : ∀ row ∈ rows fullBeaconParser, row.2.length ≤ 64 := by decide +kernel

theorem lengths_sum : ((rows fullBeaconParser).map fun row => row.2.length).sum = 1832 := by decide +kernel

/-- The number of bits of the beacon. -/
theorem length_bits_write : (t.write.flatMap BitWrite.bits).length = 1832 := by
  rw [List.length_flatMap, ← lengths_sum, ← write_lengths t, List.map_map]
  rfl

/-- No call asks for more bits than its type has. -/
theorem write_within : ∀ op ∈ t.write, op.bits.length ≤ op.width := by
  rw [← sections_writes]
  intro op hop
  obtain ⟨s, hs, hop⟩ := List.mem_flatMap.1 hop
  exact of_decide_eq_true (List.all_eq_true.1 (t.sections_agree s hs).within op hop)

theorem write_small : ∀ op ∈ t.write, op.Small := by
  intro op hop
  have hmem : op.bits.length ∈ (t.write.map BitWrite.bits).map List.length :=
    List.mem_map_of_mem (List.mem_map_of_mem hop)
  rw [write_lengths] at hmem
  obtain ⟨row, hrow, heq⟩ := List.mem_map.1 hmem
  have := lengths_le row hrow
  exact BitWrite.small_of_length (by omega)

/-- The writer after the telemetry. -/
def written (view : List Byte) : BitWriter := ((BitWriter.init view).performAll t.write).2

/-- **The whole telemetry is written** when there is room for its 229 bytes. -/
theorem written_represents {view : List Byte} (hroom : 229 ≤ view.length)
    (hsmall : view.length < 2 ^ 28) :
    (t.written view).Represents view ⟨t.write.flatMap BitWrite.bits, false⟩ := by
  have h0 : view ≠ [] := by
    rintro rfl
    cases hroom
  have hlimit : ([] : List Bool).length + (t.write.flatMap BitWrite.bits).length ≤ 8 * view.length := by
    rw [length_bits_write, List.length_nil]
    omega
  have hall := BitString.appendAll_eq (s := ⟨[], false⟩) t.write rfl t.write_within hlimit
  have hrun := ((BitWriter.represents_init h0 hsmall).performAll t.write t.write_small).2
  rw [hall] at hrun
  exact hrun

/-- One line of a section, as the parser shows it. -/
def line (row : String × Field) (bits : List Bool) : Option (String × String × Value) :=
  (decoded row.2 bits).map fun v => (row.1, row.2.name, v)

/-- The lines of one section. -/
theorem section_lines_iff (category : String) : ∀ (fs : List Field) (ops : List BitWrite)
    (xs : List (String × ℤ)), fs.map (·.name) = xs.map (·.1) →
      (List.zipWith line (fs.map fun f => (category, f)) (ops.map BitWrite.bits) =
          (xs.map fun x => (category, x.1, Value.number x.2)).map some ↔ Shows fs ops xs) := by
  intro fs
  induction fs with
  | nil =>
    intro ops xs h
    obtain rfl := List.map_eq_nil_iff.1 h.symm
    simp [Shows]
  | cons f fs ih =>
    intro ops xs h
    cases xs with
    | nil => cases h
    | cons x xs =>
      obtain ⟨hname, hnames⟩ := List.cons.inj h
      cases ops with
      | nil => simp [Shows]
      | cons op ops =>
        have hline : line (category, f) op.bits = some (category, x.1, Value.number x.2) ↔
            decoded f op.bits = some (.number x.2) := by
          rw [line]
          cases hd : decoded f op.bits with
          | none => simp
          | some v => simp [hname]
        rw [shows_cons, ← ih ops xs hnames, ← hline]
        simp only [List.map_cons, List.zipWith_cons_cons, List.cons_eq_cons]

/-- Lists zipped piece by piece. -/
theorem zipWith_flatMap {ι α β γ : Type} (f : α → β → γ) {a : ι → List α} {b : ι → List β} {l : List ι}
    (h : ∀ i ∈ l, (a i).length = (b i).length) :
    List.zipWith f (l.flatMap a) (l.flatMap b) = l.flatMap fun i => List.zipWith f (a i) (b i) := by
  induction l with
  | nil => rfl
  | cons i l ih =>
    rw [List.flatMap_cons, List.flatMap_cons, List.zipWith_append (h i List.mem_cons_self),
      ih fun j hj => h j (List.mem_cons_of_mem i hj), List.flatMap_cons]

/-- **The lines of the beacon** are those of the telemetry when all sections are shown. -/
theorem shown_iff :
    List.zipWith line (rows fullBeaconParser) (t.write.map BitWrite.bits) = t.fields.map some ↔
      ∀ s ∈ t.sections, Shows s.parser.fields s.writes s.fields := by
  have hrows : rows fullBeaconParser =
      t.sections.flatMap fun s => s.parser.fields.map fun f => (s.parser.category, f) := by
    rw [rows, ← map_parser_sections t, List.flatMap_map]
  have hlengths : ∀ s ∈ t.sections, s.parser.fields.length = s.writes.length := by
    intro s hs
    have h := congrArg List.length (t.sections_agree s hs).lengths
    rw [List.length_map, List.length_map] at h
    exact h.symm
  have hnames : ∀ s ∈ t.sections, s.parser.fields.length = s.fields.length := by
    intro s hs
    have h := congrArg List.length (t.sections_agree s hs).names
    rwa [List.length_map, List.length_map] at h
  rw [hrows, ← sections_writes, List.map_flatMap, zipWith_flatMap, fields, List.map_flatMap,
    Chunks.flatMap_inj]
  · apply forall₂_congr
    intro s hs
    have h := t.sections_agree s hs
    rw [h.category]
    exact section_lines_iff s.category s.parser.fields s.writes s.fields h.names
  · intro s hs
    simp [List.length_zipWith, hlengths s hs, ← hnames s hs]
  · intro s hs
    simp [hlengths s hs]

/-- The parser on the bytes captured: the lines of the beacon, up to the last bit written. -/
theorem parse_capture {view : List Byte} (hroom : 229 ≤ view.length) (hsmall : view.length < 2 ^ 28) :
    (parse (t.written view).capture).map (fun r => (r.1.map Entry.shown, r.2.offset)) =
      (collect (List.zipWith line (rows fullBeaconParser) (t.write.map BitWrite.bits))).map
        fun shown => (shown, (t.written view).getBitDataLength) := by
  have hrepr := t.written_represents hroom hsmall
  have hparse := parseAll_eq (rows fullBeaconParser) (t.write.map BitWrite.bits) []
    (List.replicate (8 * (t.written view).getByteDataLength - (t.write.flatMap BitWrite.bits).length) false)
    t.write_lengths
  have hflatten : (t.write.map BitWrite.bits).flatten = t.write.flatMap BitWrite.bits := rfl
  rw [parse, hrepr.capture rfl, parseCategories_eq, hrepr.holds.getBitDataLength]
  rw [hflatten, List.nil_append, List.length_nil, Nat.zero_add] at hparse
  exact hparse

/-- The beacon that a writer over `view` captures is read up to the last bit written, and the
ground shows the telemetry. -/
def Decodes (view : List Byte) : Prop :=
  ∃ entries reader, parse (t.written view).capture = some (entries, reader) ∧
    reader.offset = (t.written view).getBitDataLength ∧ entries.map Entry.shown = t.fields

theorem decodes_iff_shows {view : List Byte} (hroom : 229 ≤ view.length) (hsmall : view.length < 2 ^ 28) :
    t.Decodes view ↔ ∀ s ∈ t.sections, Shows s.parser.fields s.writes s.fields := by
  have hparse := t.parse_capture hroom hsmall
  rw [← shown_iff, ← collect_eq_some]
  constructor
  · rintro ⟨entries, reader, hsome, -, hshown⟩
    rw [hsome, Option.map_some, hshown] at hparse
    obtain ⟨lines, hlines, heq⟩ := Option.map_eq_some_iff.1 hparse.symm
    rw [hlines, (Prod.mk.inj heq).1]
  · intro hlines
    rw [hlines, Option.map_some] at hparse
    obtain ⟨⟨entries, reader⟩, hsome, heq⟩ := Option.map_eq_some_iff.1 hparse
    obtain ⟨hshown, hoffset⟩ := Prod.mk.inj heq
    exact ⟨entries, reader, hsome, hoffset, hshown⟩

/-- **The beacon decodes to the telemetry that was sent** exactly when the telemetry is
decodable. -/
theorem beacon_decodes_iff {view : List Byte} (hroom : 229 ≤ view.length)
    (hsmall : view.length < 2 ^ 28) (t : ManagedTelemetry) (hfits : t.Fits) :
    t.Decodes view ↔ t.Decodable := by
  rw [t.decodes_iff_shows hroom hsmall, t.sections_show_iff hfits]

/-- Telemetry with these times, this gyroscope and this current, and zeros elsewhere. -/
def sample (missionTime activationTime : ℤ) (gyroscope current : BitVec 16) : ManagedTelemetry :=
  { systemStartup := ⟨0, 0, 0⟩
    programState := 0
    internalTime := ⟨missionTime⟩
    externalTime := ⟨0⟩
    errorCounting := ⟨fun _ => 0⟩
    flashPrimarySlotsScrubbing := 0
    flashSecondarySlotsScrubbing := 0
    ramScrubbing := 0
    osState := 0
    fileSystem := 0
    antenna := ⟨fun _ => ⟨fun _ => 0⟩, fun _ => ⟨fun _ => activationTime⟩, 0, 0, 0, fun _ => 0⟩
    experiment := ⟨0, 0, 0⟩
    gyroscope := ⟨gyroscope, 0, 0, 0⟩
    comm := ⟨⟨0, .comm1200bps, 0, 0, 0, 0, 0, 0, .off, false⟩, ⟨0, 0, 0, 0, 0, 0, 0, 0, 0⟩⟩
    gpioState := false
    mcuTemperature := 0
    controllerA := ⟨⟨0, 0, 0, 0, 0⟩, ⟨0, 0, 0, 0, 0⟩, ⟨0, 0, 0, 0, 0⟩, ⟨0, 0, 0, 0, 0, 0, 0, 0⟩,
      ⟨0, 0, 0, 0, 0⟩, ⟨0, 0⟩, ⟨0⟩, ⟨0, 0, 0, 0, 0⟩, ⟨0⟩, ⟨0⟩⟩
    controllerB := ⟨⟨0⟩, ⟨0⟩, ⟨0⟩, ⟨0, 0, 0, 0, 0⟩⟩
    imtqMagnetometerMeasurements := fun _ => 0
    imtqCoilsActive := false
    imtqDipoles := fun _ => 0
    imtqBDot := fun _ => 0
    imtqHousekeeping := ⟨0, 0, current, 0, 0⟩
    imtqCoilCurrent := fun _ => 0
    imtqCoilTemperature := fun _ => 0
    imtqStatus := 0
    imtqState := ⟨0, 0, false, 0⟩
    imtqSelfTest := fun _ => 0 }

theorem sample_fits {missionTime activationTime : ℤ} (gyroscope current : BitVec 16)
    (hm : 0 ≤ missionTime ∧ missionTime < 2 ^ 64) (ha : 0 ≤ activationTime) :
    (sample missionTime activationTime gyroscope current).Fits where
  internalTime := hm
  externalTime := show (0 : ℤ) ≤ 0 ∧ (0 : ℤ) < 2 ^ 32 by norm_num
  activationTimes := fun _ _ => ha
  transmitterUptime := show (0 : ℤ) ≤ 0 ∧ (0 : ℤ) < 2 ^ 17 by norm_num
  receiverUptime := show (0 : ℤ) ≤ 0 ∧ (0 : ℤ) < 2 ^ 17 by norm_num
  mpptX := show (0 : BitVec 8).toNat < 2 ^ 3 by decide
  mpptYPlus := show (0 : BitVec 8).toNat < 2 ^ 3 by decide
  mpptYMinus := show (0 : BitVec 8).toNat < 2 ^ 3 by decide
  lclState := show (0 : BitVec 8).toNat < 2 ^ 7 by decide
  lclFlagb := show (0 : BitVec 8).toNat < 2 ^ 6 by decide
  batcState := show (0 : BitVec 8).toNat < 2 ^ 3 by decide
  imtqMode := show (0 : BitVec 8).toNat < 2 ^ 2 by decide
  imtqUptime := show (0 : ℤ) ≤ 0 ∧ (0 : ℤ) < 2 ^ 32 by norm_num

/-- The payload of a frame, before the beacon is written to it. -/
theorem emptyPayload_room :
    229 ≤ (List.replicate 229 (0 : Byte)).length ∧ (List.replicate 229 (0 : Byte)).length < 2 ^ 28 := by
  rw [List.length_replicate]
  norm_num

/-- A negative measurement of the gyroscope is shown. -/
theorem beacon_decodes_sample : (sample 1000 300 (-5) 7).Decodes (List.replicate 229 0) := by
  have hfits : (sample 1000 300 (-5) 7).Fits := sample_fits _ _ (by decide) (by decide)
  obtain ⟨hroom, hsmall⟩ := emptyPayload_room
  refine (beacon_decodes_iff hroom hsmall _ hfits).2 ⟨?_, ?_, ?_, ?_, ?_⟩
  · decide
  · exact fun _ _ => .inl (show (300 : ℤ) / 2 < 2 ^ 16 by norm_num)
  · decide
  · decide
  · decide

/-- **Telemetry that fits and is not shown**: a digital current of -0.1 mA; activation times of
131072 s, which are written as 0; a mission time of 10^9 days. -/
theorem beacon_not_shown :
    ((sample 0 0 0 (-1)).Fits ∧ ¬ (sample 0 0 0 (-1)).Decodes (List.replicate 229 0)) ∧
      ((sample 0 131072 0 0).Fits ∧ ¬ (sample 0 131072 0 0).Decodes (List.replicate 229 0)) ∧
        (sample 86400000000000000 0 0 0).Fits ∧
          ¬ (sample 86400000000000000 0 0 0).Decodes (List.replicate 229 0) := by
  obtain ⟨hroom, hsmall⟩ := emptyPayload_room
  refine ⟨⟨sample_fits _ _ (by decide) (by decide), ?_⟩, ⟨sample_fits _ _ (by decide) (by decide), ?_⟩,
    sample_fits _ _ (by decide) (by decide), ?_⟩
  · rw [decodes_iff_shows _ hroom hsmall, sections_show_iff _ (sample_fits _ _ (by decide) (by decide))]
    intro h
    exact absurd h.digitalCurrent (by decide)
  · rw [decodes_iff_shows _ hroom hsmall, sections_show_iff _ (sample_fits _ _ (by decide) (by decide))]
    intro h
    rcases h.activationTimes 0 0 with h | h <;> exact absurd h (by decide)
  · rw [decodes_iff_shows _ hroom hsmall, sections_show_iff _ (sample_fits _ _ (by decide) (by decide))]
    intro h
    exact absurd h.missionTime (by decide)

end ManagedTelemetry

end Telemetry

end PWSat2OBC
