import PWSat2OBC.Proof.ReaderRuns
import PWSat2OBC.Spec.ErrorCounterConfig

/-!
# Error counters are set inside their table

`readEntry_fits`, `readEntry_short`: a turn of the loop reads one entry of the frame, or ends it.
From these `handleEntries_eq` says for every frame which calls of `Set` are made. They stay inside
the table unless the first entry without an index of the table has the index right behind it,
which the comparison with `MaxDevices` lets through (`keepsTable_iff`).
-/

namespace PWSat2OBC

open State

namespace SetErrorCounterConfig

/-! ## Reading an entry -/

/-- A valid reader stands in its buffer. -/
def Sound (r : Reader) : Prop := r.isValid = true → r.position ≤ r.buffer.length ∧ r.position < 2 ^ 16

variable {r : Reader} {parameters : List Byte} {k : ℕ}

/-- A byte is read, or the reader is lost. -/
theorem readByte_cases (h : Sound r) : SpanReader.readByte r = none ∨
    ∃ byte r', SpanReader.readByte r = some (byte, r') ∧ Sound r' ∧ r'.buffer = r.buffer ∧
      (r'.isValid = true → r.isValid = true ∧ r'.position = r.position + 1) := by
  by_cases h16 : r.isValid = true → r.position + 1 < 2 ^ 16
  · refine .inr ⟨r.readByte.1, r.updateState 1, SpanReader.readByte_eq h16, ?_⟩
    cases hstays : (r.updateState 1).isValid with
    | true =>
      obtain ⟨hnext, hfits⟩ := SpanReader.updateState_eq_of_valid h16 hstays
      have hvalid := Reader.isValid_of_updateState hstays
      rw [hnext]
      exact ⟨fun _ => ⟨hfits, h16 hvalid⟩, rfl, fun _ => ⟨hvalid, rfl⟩⟩
    | false =>
      refine ⟨fun hvalid => absurd (hstays.symm.trans hvalid) Bool.false_ne_true, ?_,
        fun hvalid => absurd hvalid Bool.false_ne_true⟩
      unfold Reader.updateState
      split <;> rfl
  · rw [Classical.not_imp, Nat.not_lt] at h16
    obtain ⟨hle, hsmall⟩ := h h16.1
    exact .inl (SpanReader.readNumber_eq_none h16.1 hle hsmall (by decide) (List.mem_singleton_self 1) h16.2)

theorem readEntry_eq (r : Reader) : readEntry r =
    (SpanReader.readByte r).bind fun x₁ => (SpanReader.readByte x₁.2).bind fun x₂ =>
      (SpanReader.readByte x₂.2).bind fun x₃ => (SpanReader.readByte x₃.2).bind fun x₄ =>
        some (⟨x₁.1, x₂.1, x₃.1, x₄.1⟩, x₄.2) := rfl

/-- A reader that is valid after the four reads of a turn has read four bytes. -/
theorem readEntry_cases (h : Sound r) : readEntry r = none ∨
    ∃ entry r', readEntry r = some (entry, r') ∧ Sound r' ∧ r'.buffer = r.buffer ∧
      (r'.isValid = true → r.isValid = true ∧ r'.position = r.position + 4) := by
  rw [readEntry_eq]
  rcases readByte_cases h with h1 | ⟨device, r1, h1, hs1, hb1, hv1⟩
  · exact .inl (by rw [h1, Option.bind_none])
  rcases readByte_cases hs1 with h2 | ⟨limit, r2, h2, hs2, hb2, hv2⟩
  · exact .inl (by simp only [h1, h2, Option.bind_some, Option.bind_none])
  rcases readByte_cases hs2 with h3 | ⟨increment, r3, h3, hs3, hb3, hv3⟩
  · exact .inl (by simp only [h1, h2, h3, Option.bind_some, Option.bind_none])
  rcases readByte_cases hs3 with h4 | ⟨decrement, r4, h4, hs4, hb4, hv4⟩
  · exact .inl (by simp only [h1, h2, h3, h4, Option.bind_some, Option.bind_none])
  refine .inr ⟨⟨device, limit, increment, decrement⟩, r4, by simp only [h1, h2, h3, h4, Option.bind_some], hs4,
    by rw [hb4, hb3, hb2, hb1], fun hvalid => ?_⟩
  obtain ⟨v3, p3⟩ := hv4 hvalid
  obtain ⟨v2, p2⟩ := hv3 v3
  obtain ⟨v1, p1⟩ := hv2 v2
  obtain ⟨v0, p0⟩ := hv1 v1
  exact ⟨v0, by omega⟩

/-- A byte that is there. -/
theorem readByte_fits {i : ℕ} (hlt : i < parameters.length) (h16 : i + 1 < 2 ^ 16) :
    SpanReader.readByte ⟨parameters, i, true⟩ = some (parameters.getD i 0, ⟨parameters, i + 1, true⟩) := by
  have hnext : (⟨parameters, i, true⟩ : Reader).updateState 1 = ⟨parameters, i + 1, true⟩ :=
    Reader.updateState_fits rfl hlt h16
  rw [SpanReader.readByte_eq fun _ => h16, Reader.readByte, hnext]
  rfl

/-- The entry at a place of the frame. -/
def entryAt (parameters : List Byte) (i : ℕ) : Entry :=
  ⟨parameters.getD i 0, parameters.getD (i + 1) 0, parameters.getD (i + 2) 0, parameters.getD (i + 3) 0⟩

/-- A turn in front of a complete entry reads it. -/
theorem readEntry_fits {i : ℕ} (hle : i + 4 ≤ parameters.length) (h16 : i + 4 < 2 ^ 16) :
    readEntry ⟨parameters, i, true⟩ = some (entryAt parameters i, ⟨parameters, i + 4, true⟩) := by
  have hbyte : ∀ j, j < i + 4 →
      SpanReader.readByte ⟨parameters, j, true⟩ = some (parameters.getD j 0, ⟨parameters, j + 1, true⟩) :=
    fun j hj => readByte_fits (by omega) (by omega)
  have h1 := hbyte i (by omega)
  have h2 := hbyte (i + 1) (by omega)
  have h3 := hbyte (i + 1 + 1) (by omega)
  have h4 := hbyte (i + 1 + 1 + 1) (by omega)
  simp only [readEntry_eq, h1, h2, h3, h4, Option.bind_some]
  rfl

/-- A turn in front of less ends the loop. -/
theorem readEntry_short {i : ℕ} (hi : i ≤ parameters.length) (h16 : i < 2 ^ 16)
    (hshort : ¬ (i + 4 ≤ parameters.length ∧ i + 4 < 2 ^ 16)) : readEntry ⟨parameters, i, true⟩ = none ∨
      ∃ entry r', readEntry ⟨parameters, i, true⟩ = some (entry, r') ∧ r'.status = false := by
  have hsound : Sound ⟨parameters, i, true⟩ := fun _ => ⟨hi, h16⟩
  rcases readEntry_cases hsound with hnone | ⟨entry, r', hread, hs, hbuffer, hvalid⟩
  · exact .inl hnone
  refine .inr ⟨entry, r', hread, ?_⟩
  rw [Reader.status, ← Bool.not_eq_true]
  intro hstays
  obtain ⟨hle, hsmall⟩ := hs hstays
  rw [hbuffer, (hvalid hstays).2] at hle
  rw [(hvalid hstays).2] at hsmall
  exact hshort ⟨hle, hsmall⟩

/-! ## The entries of a frame -/

theorem entries_short {bytes : List Byte} (h : bytes.length < 4) : entries bytes = [] := by
  rcases bytes with _ | ⟨a, _ | ⟨b, _ | ⟨c, _ | ⟨d, rest⟩⟩⟩⟩
  · rfl
  · rfl
  · rfl
  · rfl
  · simp only [List.length_cons] at h
    omega

theorem entries_drop {i : ℕ} (hle : i + 4 ≤ parameters.length) :
    entries (parameters.drop i) = entryAt parameters i :: entries (parameters.drop (i + 4)) := by
  have hcons : ∀ j, j < parameters.length → parameters.drop j = parameters.getD j 0 :: parameters.drop (j + 1) := by
    intro j hj
    rw [List.drop_eq_getElem_cons hj, List.getD_eq_getElem?_getD, List.getElem?_eq_getElem hj, Option.getD_some]
  rw [hcons i (by omega), hcons (i + 1) (by omega), hcons (i + 1 + 1) (by omega), hcons (i + 1 + 1 + 1) (by omega)]
  rfl

/-! ## The calls of `Set` -/

/-- The calls made for a list of entries. -/
def calls : List Entry → List Entry
  | [] => []
  | e :: es =>
    if e.device.toNat < maxDevices then e :: calls es
    else if e.device.toNat = maxDevices then [e]
    else []

theorem calls_initial (es : List Entry) : calls es <+: es := by
  induction es with
  | nil => exact List.prefix_refl []
  | cons e es ih =>
    rw [calls]
    split
    · exact List.prefix_cons_inj e |>.2 ih
    · split
      · exact List.prefix_cons_inj e |>.2 (List.nil_prefix)
      · exact List.nil_prefix

/-- The calls have indices of the table unless the first entry that has none has the next one. -/
theorem calls_inside_iff (es : List Entry) : (∀ e ∈ calls es, e.device.toNat < maxDevices) ↔
    ∀ e, es.find? (fun e => maxDevices ≤ e.device.toNat) = some e → e.device.toNat ≠ maxDevices := by
  induction es with
  | nil => exact ⟨fun _ e he => absurd he.symm (Option.some_ne_none e), fun _ e he => absurd he List.not_mem_nil⟩
  | cons e es ih =>
    rw [calls]
    by_cases hinside : e.device.toNat < maxDevices
    · rw [if_pos hinside, List.find?_cons_of_neg (by simpa using hinside), ← ih]
      exact ⟨fun hall e' he' => hall e' (List.mem_cons_of_mem e he'), fun hall e' he' => by
        rcases List.mem_cons.1 he' with rfl | he'
        · exact hinside
        · exact hall e' he'⟩
    · rw [if_neg hinside, List.find?_cons_of_pos (by simpa using hinside)]
      by_cases hend : e.device.toNat = maxDevices
      · rw [if_pos hend]
        exact ⟨fun hall => absurd (hall e (List.mem_singleton_self e)) hinside, fun hne => absurd hend (hne e rfl)⟩
      · rw [if_neg hend]
        exact ⟨fun _ e' he' => by rw [← Option.some.inj he']; exact hend, fun _ e' he' => absurd he' List.not_mem_nil⟩

section

variable {fuel : ℕ} (payload : List Byte) (applied : List Entry) (configuration : Vector (BitVec 32) maxDevices)

/-- A turn with an entry. -/
theorem setEntries_of_entry {e : Entry} {r' : Reader} (hread : readEntry r = some (e, r')) (hstatus : r'.status = true) :
    setEntries (fuel + 1) r payload applied configuration =
      if maxDevices < e.device.toNat then ⟨applied, configuration, .answered payload⟩
      else if h : e.device.toNat < maxDevices then
        setEntries fuel r' (payload ++ [e.device]) (applied ++ [e])
          (configuration.set e.device.toNat (config e.limit e.increment e.decrement) h)
      else ⟨applied ++ [e], configuration, .outside⟩ := by
  rw [setEntries, hread]
  dsimp only
  rw [hstatus]
  rfl

/-- A turn without one makes no calls. -/
theorem setEntries_of_short (h : readEntry r = none ∨ ∃ e r', readEntry r = some (e, r') ∧ r'.status = false) :
    (setEntries (fuel + 1) r payload applied configuration).applied = applied ∧
      (setEntries (fuel + 1) r payload applied configuration).configuration = configuration := by
  rw [setEntries]
  rcases h with hread | ⟨e, r', hread, hstatus⟩
  · rw [hread]
    exact ⟨rfl, rfl⟩
  · rw [hread]
    dsimp only
    rw [hstatus]
    exact ⟨rfl, rfl⟩

end

/-- **The loop**, from the entry `k` on. A reader comes to 16383 entries at most. -/
theorem setEntries_eq {fuel : ℕ} (payload : List Byte) (applied : List Entry)
    (configuration : Vector (BitVec 32) maxDevices) (hpos : 4 * k + 1 ≤ parameters.length) (hk : k ≤ 16383)
    (hfuel : parameters.length < 4 * (k + fuel) + 1) :
    (setEntries fuel ⟨parameters, 4 * k + 1, true⟩ payload applied configuration).applied =
        applied ++ calls ((entries (parameters.drop (4 * k + 1))).take (16383 - k)) ∧
      (setEntries fuel ⟨parameters, 4 * k + 1, true⟩ payload applied configuration).configuration =
        (calls ((entries (parameters.drop (4 * k + 1))).take (16383 - k))).foldl Entry.apply configuration := by
  induction fuel generalizing k payload applied configuration with
  | zero => omega
  | succ fuel ih =>
    by_cases hroom : 4 * k + 1 + 4 ≤ parameters.length ∧ 4 * k + 1 + 4 < 2 ^ 16
    · have hread := readEntry_fits hroom.1 hroom.2
      have hentries := entries_drop hroom.1
      have hcount : 16383 - k = (16383 - (k + 1)) + 1 := by omega
      have hnext : 4 * k + 1 + 4 = 4 * (k + 1) + 1 := by omega
      have ih := fun payload applied configuration =>
        ih (k := k + 1) payload applied configuration (by omega) (by omega) (by omega)
      rw [hentries, hcount, List.take_succ_cons, calls, setEntries_of_entry _ _ _ hread rfl, hnext]
      generalize entryAt parameters (4 * k + 1) = e
      by_cases hinside : e.device.toNat < maxDevices
      · rw [if_neg (by omega), dif_pos hinside, if_pos hinside, List.foldl_cons, Entry.apply, dif_pos hinside]
        obtain ⟨happlied, hconfiguration⟩ := ih (payload ++ [e.device]) (applied ++ [e])
          (configuration.set e.device.toNat (config e.limit e.increment e.decrement) hinside)
        exact ⟨by rw [happlied, List.append_assoc]; rfl, hconfiguration⟩
      · by_cases hend : e.device.toNat = maxDevices
        · rw [if_neg (by omega), dif_neg hinside, if_neg hinside, if_pos hend, List.foldl_cons, Entry.apply,
            dif_neg hinside]
          exact ⟨rfl, rfl⟩
        · rw [if_pos (by omega), if_neg hinside, if_neg hend]
          exact ⟨(List.append_nil applied).symm, rfl⟩
    · have hnone : (entries (parameters.drop (4 * k + 1))).take (16383 - k) = [] := by
        rcases Nat.lt_or_ge k 16383 with hlt | hge
        · rw [entries_short (by rw [List.length_drop]; omega), List.take_nil]
        · rw [Nat.sub_eq_zero_of_le hge, List.take_zero]
      rw [hnone, calls, List.append_nil, List.foldl_nil]
      exact setEntries_of_short payload applied configuration (readEntry_short hpos (by omega) hroom)

/-- **The whole handler**: the calls for the entries that are reached, and their effect. -/
theorem handleEntries_eq (configuration : Vector (BitVec 32) maxDevices) (parameters : List Byte) :
    (handleEntries configuration parameters).applied = calls (reached parameters) ∧
      (handleEntries configuration parameters).configuration =
        (calls (reached parameters)).foldl Entry.apply configuration := by
  cases parameters with
  | nil => exact ⟨rfl, rfl⟩
  | cons byte bytes =>
    have hread : SpanReader.readByte (Reader.init (byte :: bytes)) = some (byte, ⟨byte :: bytes, 1, true⟩) :=
      readByte_fits (Nat.zero_lt_succ _) (by decide)
    have hpos : 4 * 0 + 1 ≤ (byte :: bytes).length := Nat.le_add_left 1 _
    have hfuel : (byte :: bytes).length < 4 * (0 + (byte :: bytes).length) + 1 := by omega
    rw [handleEntries, hread]
    exact setEntries_eq [byte, 0] [] configuration hpos (by decide) hfuel

/-! ## The handler of `Spec/Telecommands` -/

theorem readByte_of_small (h : Sound r) (hlen : r.buffer.length + 1 < 2 ^ 16) :
    SpanReader.readByte r = some r.readByte ∧ Sound r.readByte.2 ∧ r.readByte.2.buffer = r.buffer := by
  have hread := SpanReader.readByte_eq (r := r) fun hvalid => by
    have := (h hvalid).1
    omega
  rcases readByte_cases h with hnone | ⟨byte, r', hsome, hs, hbuffer, -⟩
  · exact absurd (hread.symm.trans hnone) (Option.some_ne_none _)
  · have hnext : r.readByte.2 = r' := congrArg Prod.snd (Option.some.inj (hread.symm.trans hsome))
    rw [hnext]
    exact ⟨hread, hs, hbuffer⟩

/-- What the frame of a handling says. -/
def Handling.answer (h : Handling) : Option (List Byte × Vector (BitVec 32) maxDevices) :=
  match h.ending with
  | .answered payload => some (payload, h.configuration)
  | _ => none

theorem setAll_eq (fuel : ℕ) (payload : List Byte) (applied : List Entry)
    (configuration : Vector (BitVec 32) maxDevices) (h : Sound r) (hlen : r.buffer.length + 1 < 2 ^ 16) :
    setAll fuel r payload configuration = (setEntries fuel r payload applied configuration).answer ∧
      (setEntries fuel r payload applied configuration).ending ≠ .stopped := by
  induction fuel generalizing r payload applied configuration with
  | zero => exact ⟨rfl, by rw [setEntries]; exact Ending.noConfusion⟩
  | succ fuel ih =>
    obtain ⟨h1, hs1, hb1⟩ := readByte_of_small h hlen
    obtain ⟨h2, hs2, hb2⟩ := readByte_of_small hs1 (by rwa [hb1])
    obtain ⟨h3, hs3, hb3⟩ := readByte_of_small hs2 (by rwa [hb2, hb1])
    obtain ⟨h4, hs4, hb4⟩ := readByte_of_small hs3 (by rwa [hb3, hb2, hb1])
    have hread : readEntry r = some (⟨r.readByte.1, r.readByte.2.readByte.1, r.readByte.2.readByte.2.readByte.1,
        r.readByte.2.readByte.2.readByte.2.readByte.1⟩, r.readByte.2.readByte.2.readByte.2.readByte.2) := by
      simp only [readEntry_eq, h1, h2, h3, h4, Option.bind_some]
    have hturn : setAll (fuel + 1) r payload configuration =
        if !r.readByte.2.readByte.2.readByte.2.readByte.2.status then some (payload, configuration)
        else if maxDevices < r.readByte.1.toNat then some (payload, configuration)
        else if h : r.readByte.1.toNat < maxDevices then
          setAll fuel r.readByte.2.readByte.2.readByte.2.readByte.2 (payload ++ [r.readByte.1])
            (configuration.set r.readByte.1.toNat (config r.readByte.2.readByte.1 r.readByte.2.readByte.2.readByte.1
              r.readByte.2.readByte.2.readByte.2.readByte.1) h)
        else none := rfl
    rw [hturn]
    cases hstatus : r.readByte.2.readByte.2.readByte.2.readByte.2.status with
    | false =>
      rw [setEntries, hread]
      dsimp only
      rw [hstatus]
      exact ⟨rfl, Ending.noConfusion⟩
    | true =>
      rw [setEntries_of_entry payload applied configuration hread hstatus]
      dsimp only
      rw [Bool.not_true, if_neg Bool.false_ne_true]
      by_cases habove : maxDevices < r.readByte.1.toNat
      · rw [if_pos habove, if_pos habove]
        exact ⟨rfl, Ending.noConfusion⟩
      · rw [if_neg habove, if_neg habove]
        by_cases hinside : r.readByte.1.toNat < maxDevices
        · rw [dif_pos hinside, dif_pos hinside]
          exact ih (payload ++ [r.readByte.1]) (applied ++ [_]) _ hs4 (by rwa [hb4, hb3, hb2, hb1])
        · rw [dif_neg hinside, dif_neg hinside]
          exact ⟨rfl, Ending.noConfusion⟩

/-- **Frames up to 64 KB** are handled as in `Spec/Telecommands`. -/
theorem handle_eq (s : OnboardState) (h : parameters.length + 1 < 2 ^ 16) :
    handle s parameters = (handleEntries s.errorCounters parameters).toHandled s := by
  have hinit : Sound (Reader.init parameters) := fun _ => ⟨Nat.zero_le _, Nat.two_pow_pos 16⟩
  obtain ⟨hread, hs, hbuffer⟩ := readByte_of_small hinit h
  rw [handleEntries, hread]
  unfold handle
  dsimp only
  cases hstatus : (Reader.init parameters).readByte.2.status with
  | false => rfl
  | true =>
    obtain ⟨hall, hstopped⟩ := setAll_eq parameters.length [(Reader.init parameters).readByte.1, 0] []
      s.errorCounters hs (by rwa [hbuffer])
    rw [Bool.not_true, if_neg Bool.false_ne_true, if_neg Bool.false_ne_true, hall]
    generalize setEntries parameters.length (Reader.init parameters).readByte.2
      [(Reader.init parameters).readByte.1, 0] [] s.errorCounters = handling at hstopped ⊢
    obtain ⟨applied, configuration, ending⟩ := handling
    cases ending with
    | answered payload => rfl
    | outside => rfl
    | stopped => exact absurd rfl hstopped

/-! ## The table -/

/-- **Exactly when only the table is written.** -/
theorem keepsTable_iff (configuration : Vector (BitVec 32) maxDevices) (parameters : List Byte) :
    KeepsTable configuration parameters ↔ SparesEnd parameters := by
  obtain ⟨happlied, hconfiguration⟩ := handleEntries_eq configuration parameters
  have hinside := calls_inside_iff (reached parameters)
  constructor
  · intro hkeeps
    have hall := hkeeps.inside
    rw [happlied] at hall
    exact hinside.1 hall
  · intro hspares
    refine ⟨?_, ?_, ?_⟩
    · rw [happlied]
      exact hinside.2 hspares
    · rw [happlied]
      exact (calls_initial _).sublist.trans (List.take_sublist _ _)
    · rw [happlied, hconfiguration]

/-- One entry for device 14, the first index behind the array. -/
theorem writes_behind_table : ¬ ∀ configuration parameters, KeepsTable configuration parameters := by
  intro hall
  have hkeeps := (hall (Vector.replicate maxDevices 0) [1, 14, 10, 5, 2]).inside
  rw [(handleEntries_eq _ _).1] at hkeeps
  exact absurd (hkeeps ⟨14, 10, 5, 2⟩ (List.mem_singleton_self _)) (by decide)

end SetErrorCounterConfig

end PWSat2OBC
