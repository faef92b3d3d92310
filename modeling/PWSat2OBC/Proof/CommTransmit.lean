import PWSat2OBC.Lib.Runs
import PWSat2OBC.Proof.CommReceive

/-!
# Frames that are transmitted

The driver compares the number of free slots in the answer of the transmitter with the number in
the transmission recorded last. A call of `ScheduleFrameTransmission` does one of three things
(`transmit_cases`): a frame that is too long changes nothing; a stalled queue is answered with a
reset, and the record is gone; any other transmission is recorded. So over a run the record is
that of the last transmission that was neither too long nor the cause of a reset.
-/

namespace PWSat2OBC

namespace CommObject

/-- A call of `ScheduleFrameTransmission`. -/
structure Transmission where
  frame : List Byte
  surroundings : SendSurroundings
deriving DecidableEq, Repr

/-- The object after the call. -/
def transmit (c : CommObject) (t : Transmission) : CommObject :=
  (c.scheduleFrameTransmission t.frame t.surroundings).2

/-- What the call returns. -/
def returns (c : CommObject) (t : Transmission) : Bool :=
  (c.scheduleFrameTransmission t.frame t.surroundings).1

/-- A history of transmissions. -/
def step (c : CommObject) (t : Transmission) : Option CommObject := some (c.transmit t)

/-- The answer of the device to the frame, if one is received. -/
def answer (c : CommObject) (t : Transmission) : Option Byte :=
  (c.sendBufferWithResponse .transmitter (TransmitterCommand.sendFrame.num :: t.frame) 1).1.map (·.getD 0 0)

/-- What the driver takes for the answer. -/
def slots (c : CommObject) (t : Transmission) : Byte :=
  (c.answer t).getD t.surroundings.remainingBufferSize

/-- The command that resets the transmitter. -/
def softReset : CommEvent := .write .transmitter [TransmitterCommand.softReset.num]

/-- The call resets the transmitter. -/
def Resets (c : CommObject) (t : Transmission) : Prop :=
  softReset ∈ (c.transmit t).trace.drop c.trace.length

instance (c : CommObject) (t : Transmission) : Decidable (c.Resets t) :=
  inferInstanceAs (Decidable (softReset ∈ (c.transmit t).trace.drop c.trace.length))

/-- The device has the frame: its answer is there, and is not 255. -/
def Accepts (c : CommObject) (t : Transmission) : Prop :=
  t.frame.length ≤ maxDownlinkFrameSize ∧ ∃ n ∈ c.answer t, n ≠ 0xff

/-- There is a record, and compared with it the queue is stalled. -/
def Stalled (c : CommObject) (t : Transmission) : Prop :=
  ∃ last ∈ c.lastSend, isStalled last t.surroundings.uptime (c.slots t) = true

variable {c c₀ u : CommObject} {t e : Transmission}

/-! ## One call -/

theorem transmit_tooLong (h : maxDownlinkFrameSize < t.frame.length) :
    c.scheduleFrameTransmission t.frame t.surroundings = (false, c) := by
  unfold scheduleFrameTransmission
  rw [if_pos h]

/-- The frame goes to the transmitter, and at most a read follows. No reset is among this. -/
theorem sendBufferWithResponse_after (c : CommObject) (frame : List Byte) :
    ∃ events, softReset ∉ events ∧
      After c events
        (c.sendBufferWithResponse .transmitter (TransmitterCommand.sendFrame.num :: frame) 1).2 ∧
      (c.sendBufferWithResponse .transmitter (TransmitterCommand.sendFrame.num :: frame) 1).2.lastSend =
        c.lastSend := by
  have hwrite : softReset ≠ .write .transmitter (TransmitterCommand.sendFrame.num :: frame) := by
    intro heq
    unfold softReset at heq
    injection heq with _ hbytes
    injection hbytes with hcommand
    exact absurd hcommand (by decide)
  have hread : ∀ bytes, softReset ≠ .read .transmitter bytes := by
    intro bytes heq
    unfold softReset at heq
    contradiction
  unfold sendBufferWithResponse
  rw [if_neg (by simp)]
  split
  · exact ⟨_, fun hmem => hwrite (List.mem_singleton.1 hmem), after_next c _, rfl⟩
  · split
    · exact ⟨_, fun hmem => hwrite (List.mem_singleton.1 hmem), after_next c _, rfl⟩
    · refine ⟨_, ?_, after_next c _, rfl⟩
      rw [List.mem_cons, List.mem_singleton, not_or]
      exact ⟨hwrite, hread _⟩

/-- The events of a call are the end of the trace. -/
theorem drop_trace {events : List CommEvent} {c' : CommObject} (h : c'.trace = c.trace ++ events) :
    c'.trace.drop c.trace.length = events := by
  rw [h, List.drop_left]

/-- The call in terms of what the driver takes for the answer. -/
theorem scheduleFrameTransmission_eq (h : t.frame.length ≤ maxDownlinkFrameSize) :
    ∃ c₁ : CommObject, (∃ events, softReset ∉ events ∧ After c events c₁) ∧
      c.scheduleFrameTransmission t.frame t.surroundings =
        if (c.lastSend.any fun last => isStalled last t.surroundings.uptime (c.slots t)) = true then
          (false, { c₁.resetTransmitter.2 with lastSend := none })
        else
          ((c.answer t).isSome && c.slots t != 0xff,
            { c₁ with lastSend := some ⟨t.surroundings.uptimeRecorded, c.slots t⟩ }) := by
  obtain ⟨events, hevents, hafter, hlast⟩ := c.sendBufferWithResponse_after t.frame
  refine ⟨_, ⟨events, hevents, hafter⟩, ?_⟩
  unfold scheduleFrameTransmission slots answer
  rw [if_neg (not_lt.2 h), ← hlast]
  generalize c.sendBufferWithResponse .transmitter (TransmitterCommand.sendFrame.num :: t.frame) 1 = result
  obtain ⟨response, c₁⟩ := result
  cases response with
  | none => rfl
  | some bytes => rfl

/-- **A call with a frame that is not too long**: a reset, without a record from here on, or a new
record. -/
theorem transmit_cases (c : CommObject) (h : t.frame.length ≤ maxDownlinkFrameSize) :
    (c.Stalled t ∧ c.Resets t ∧ c.returns t = false ∧ (c.transmit t).lastSend = none) ∨
      (¬ c.Stalled t ∧ ¬ c.Resets t ∧ c.returns t = ((c.answer t).isSome && c.slots t != 0xff) ∧
        (c.transmit t).lastSend = some ⟨t.surroundings.uptimeRecorded, c.slots t⟩) := by
  obtain ⟨c₁, ⟨events, hevents, hafter⟩, hcall⟩ := c.scheduleFrameTransmission_eq h
  unfold Stalled Resets returns transmit
  rw [hcall]
  by_cases hstalled : (c.lastSend.any fun last => isStalled last t.surroundings.uptime (c.slots t)) = true
  · -- the reset is written after the frame
    rw [if_pos hstalled]
    have htrace := (hafter.trans (sendCommand_after c₁ .transmitter TransmitterCommand.softReset.num)).trace
    refine .inl ⟨(Option.any_eq_true _ _).1 hstalled, ?_, rfl, rfl⟩
    unfold resetTransmitter
    rw [drop_trace htrace]
    exact List.mem_append_right _ List.mem_cons_self
  · rw [if_neg hstalled]
    refine .inr ⟨fun h => hstalled ((Option.any_eq_true _ _).2 h), ?_, rfl, rfl⟩
    rw [drop_trace hafter.trace]
    exact hevents

theorem resets_iff : c.Resets t ↔ t.frame.length ≤ maxDownlinkFrameSize ∧ c.Stalled t := by
  by_cases h : t.frame.length ≤ maxDownlinkFrameSize
  · obtain ⟨hs, hr, -, -⟩ | ⟨hs, hr, -, -⟩ := c.transmit_cases h
    · exact iff_of_true hr ⟨h, hs⟩
    · exact iff_of_false hr fun h => hs h.2
  · refine iff_of_false ?_ fun h' => h h'.1
    unfold Resets transmit
    rw [transmit_tooLong (not_le.1 h), List.drop_length]
    exact List.not_mem_nil

/-- **What a call returns.** -/
theorem returns_iff : c.returns t = true ↔ c.Accepts t ∧ ¬ c.Resets t := by
  unfold Accepts
  by_cases h : t.frame.length ≤ maxDownlinkFrameSize
  · obtain ⟨-, hr, hreturns, -⟩ | ⟨-, hr, hreturns, -⟩ := c.transmit_cases h
    · rw [hreturns]
      exact iff_of_false Bool.false_ne_true fun h => h.2 hr
    · rw [hreturns]
      unfold slots
      cases c.answer t with
      | none => simp
      | some n => simp [h, hr]
  · unfold returns
    rw [transmit_tooLong (not_le.1 h)]
    exact iff_of_false Bool.false_ne_true fun h' => h h'.1.1

/-- The check, where the answer is a number that a signed byte holds. -/
theorem isStalled_iff {last : LastSendTimestamp} {uptime : ℤ} {n : Byte} (hn : n.toNat ≤ 127) :
    isStalled last uptime n = true ↔ 15000 ≤ uptime - last.timestamp ∧ n.toNat < last.freeSlots.toNat := by
  have hsigned : n.toInt = n.toNat := BitVec.toInt_eq_toNat_of_lt (by omega)
  unfold isStalled
  rw [Bool.and_eq_true, decide_eq_true_eq, decide_eq_true_eq, hsigned]
  omega

/-! ## Histories -/

/-- The transmission `e`, made in the state `u`, is the one recorded last: it was sent, without a
reset, and whatever came after it was too long to be sent. -/
structure LastRecorded (c₀ : CommObject) (es : List Transmission) (c : CommObject) (pre : List Transmission)
    (e : Transmission) (post : List Transmission) (u : CommObject) : Prop where
  events : es = pre ++ e :: post
  before : Runs.Run step Runs.always c₀ pre u
  sent : e.frame.length ≤ maxDownlinkFrameSize
  noReset : ¬ u.Resets e
  after : Runs.Run step Runs.always (u.transmit e) post c
  skipped : ∀ x ∈ post, maxDownlinkFrameSize < x.frame.length

/-- Frames that are too long leave no trace. -/
theorem eq_of_skipped {es : List Transmission} (hrun : Runs.Run step Runs.always c₀ es c)
    (h : ∀ x ∈ es, maxDownlinkFrameSize < x.frame.length) : c = c₀ := by
  induction hrun with
  | nil => rfl
  | @snoc es s c e hrun _ hs ih =>
    have he := h e (List.mem_append_right es (List.mem_singleton_self e))
    have hsame := ih fun x hx => h x (List.mem_append_left _ hx)
    unfold step transmit at hs
    rw [transmit_tooLong he] at hs
    exact (Option.some.inj hs).symm.trans hsame

/-- **The record is that of the transmission recorded last.** -/
theorem LastRecorded.lastSend {es pre post : List Transmission} (h : LastRecorded c₀ es c pre e post u) :
    c.lastSend = some ⟨e.surroundings.uptimeRecorded, u.slots e⟩ := by
  rw [eq_of_skipped h.after h.skipped]
  obtain ⟨-, hr, -, -⟩ | ⟨-, -, -, hlast⟩ := u.transmit_cases h.sent
  · exact absurd hr h.noReset
  · exact hlast

/-- One more frame that is too long. -/
theorem LastRecorded.snoc {es pre post : List Transmission} (h : LastRecorded c₀ es c pre e post u)
    (ht : maxDownlinkFrameSize < t.frame.length) : LastRecorded c₀ (es ++ [t]) c pre e (post ++ [t]) u where
  events := by rw [h.events, List.append_assoc, List.cons_append]
  before := h.before
  sent := h.sent
  noReset := h.noReset
  after := by
    refine .snoc h.after trivial ?_
    unfold step transmit
    rw [transmit_tooLong ht]
  skipped := by
    intro x hx
    obtain hx | hx := List.mem_append.1 hx
    · exact h.skipped x hx
    · rw [List.mem_singleton.1 hx]
      exact ht

/-- **Where there is a record, a transmission was recorded.** -/
theorem exists_lastRecorded {es : List Transmission} (hfirst : c₀.lastSend = none)
    (hrun : Runs.Run step Runs.always c₀ es c) (hsome : c.lastSend ≠ none) :
    ∃ pre e post u, LastRecorded c₀ es c pre e post u := by
  induction hrun with
  | nil => exact absurd hfirst hsome
  | @snoc es s c t hrun _ hs ih =>
    obtain rfl : s.transmit t = c := Option.some.inj hs
    -- a call either decides about the record or leaves everything as it was
    by_cases h : t.frame.length ≤ maxDownlinkFrameSize
    · obtain ⟨-, -, -, hnone⟩ | ⟨-, hr, -, -⟩ := s.transmit_cases h
      · exact absurd hnone hsome
      · exact ⟨es, t, [], s, rfl, hrun, h, hr, .nil, fun x hx => by contradiction⟩
    · have hsame : s.transmit t = s := by
        unfold transmit
        rw [transmit_tooLong (not_le.1 h)]
      rw [hsame] at hsome ⊢
      obtain ⟨pre, e, post, u, hlast⟩ := ih hsome
      exact ⟨pre, e, post ++ [t], u, hlast.snoc (not_le.1 h)⟩

/-- **Stall detection.** A reset needs a transmission on record. Where the device accepted that
transmission, a reset needs 15 s since then; and if the present one has got an answer too, a number
that a signed byte holds, the time and the two answers alone decide. What a call returns is whether
the device has the frame, and still has it after the call. -/
theorem stallDetection {es : List Transmission} (hfirst : c₀.lastSend = none)
    (hrun : Runs.Run step Runs.always c₀ es c) (t : Transmission) :
    (c.Resets t → ∃ pre e post u, LastRecorded c₀ es c pre e post u) ∧
    (∀ pre e post u m, LastRecorded c₀ es c pre e post u → m ∈ u.answer e → m ≠ 0xff →
      (c.Resets t → 15000 ≤ t.surroundings.uptime - e.surroundings.uptimeRecorded) ∧
      ∀ n, t.frame.length ≤ maxDownlinkFrameSize → n ∈ c.answer t → n.toNat ≤ 127 →
        (c.Resets t ↔
          15000 ≤ t.surroundings.uptime - e.surroundings.uptimeRecorded ∧ n.toNat < m.toNat)) ∧
    (c.returns t = true ↔ c.Accepts t ∧ ¬ c.Resets t) := by
  refine ⟨?_, ?_, returns_iff⟩
  · -- the record that the queue was compared with is that of a transmission
    intro hreset
    obtain ⟨last, hlast, -⟩ := (resets_iff.1 hreset).2
    have hsome : c.lastSend ≠ none := by
      rw [Option.mem_def.1 hlast]
      exact Option.some_ne_none last
    exact exists_lastRecorded hfirst hrun hsome
  · -- what the driver takes for the answers is what they are
    intro pre e post u m hrecorded hm _
    have hlast := hrecorded.lastSend
    have hthen : u.slots e = m := by
      unfold slots
      rw [Option.mem_def.1 hm, Option.getD_some]
    rw [hthen] at hlast
    have hstalled : c.Stalled t ↔
        isStalled ⟨e.surroundings.uptimeRecorded, m⟩ t.surroundings.uptime (c.slots t) = true := by
      unfold Stalled
      rw [hlast]
      simp
    constructor
    · intro hreset
      have hcheck := hstalled.1 (resets_iff.1 hreset).2
      unfold isStalled at hcheck
      rw [Bool.and_eq_true] at hcheck
      exact of_decide_eq_true hcheck.1
    · intro n hlength hn hsmall
      have hnow : c.slots t = n := by
        unfold slots
        rw [Option.mem_def.1 hn, Option.getD_some]
      rw [resets_iff, hstalled, hnow, isStalled_iff hsmall]
      exact and_iff_right hlength

/-- A transmitter with twelve free slots, and then with eleven. -/
def elevenLeft : CommObject :=
  ⟨fun i => ⟨true, some fun _ => if i = 0 then 12 else 11⟩, [], false, none⟩

/-- Two frames, 15 s apart. -/
def sentAt (uptime : ℤ) : Transmission := ⟨[1, 2, 3], 0, uptime, uptime⟩

theorem stallDetection_elevenLeft :
    elevenLeft.lastSend = none ∧
      Runs.Run step Runs.always elevenLeft [sentAt 30000] (elevenLeft.transmit (sentAt 30000)) ∧
      ((elevenLeft.transmit (sentAt 30000)).Resets (sentAt 45000) ↔ 15000 ≤ (45000 : ℤ) - 30000 ∧ 11 < 12) := by
  have hrun : Runs.Run step Runs.always elevenLeft ([] ++ [sentAt 30000])
      (elevenLeft.transmit (sentAt 30000)) := .snoc .nil trivial rfl
  refine ⟨rfl, hrun, ?_⟩
  exact ((stallDetection rfl hrun (sentAt 45000)).2.1 [] (sentAt 30000) [] elevenLeft 12
    ⟨rfl, .nil, by decide, by decide, .nil, fun x hx => by contradiction⟩ rfl (by decide)).2 11
    (by decide) rfl (by decide)

/-- The device has the second frame, and the call returns false. -/
theorem elevenLeft_returnsFalse :
    ∃ c, Runs.Run step Runs.always elevenLeft [sentAt 30000] c ∧ c.Accepts (sentAt 45000) ∧
      c.returns (sentAt 45000) = false := by
  have hrun : Runs.Run step Runs.always elevenLeft ([] ++ [sentAt 30000])
      (elevenLeft.transmit (sentAt 30000)) := .snoc .nil trivial rfl
  exact ⟨_, hrun, ⟨by decide, 11, rfl, by decide⟩, by decide⟩

end CommObject

end PWSat2OBC
