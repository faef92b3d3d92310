import PWSat2OBC.Proof.Reader
import PWSat2OBC.Spec.Comm

/-!
# Frames that are received

The events of one poll are those of the query for the number of frames, one `Segment` for each
frame, and those of the watchdogs. A segment is what `GetFrame` reads, at most one call of the
handler, and one RemoveFrame. The frame of a call is `Received`: both sizes that the device
announced are the length of the payload, so nothing of it is missing.
-/

namespace PWSat2OBC

/-! ## Frames -/

/-- The word at a place, low byte first. -/
def wordOf (bytes : List Byte) (i : ℕ) : BitVec 16 := bytes.getD (i + 1) 0 ++ bytes.getD i 0

/-- A value of the receiver that the mask for the upper four bits lets through. -/
theorem lt_of_mask {x : BitVec 16} (h : x &&& 0xf000 = 0) : x.toNat < 2 ^ 12 := by
  apply Nat.lt_pow_two_of_testBit
  intro i hi
  by_contra hbit
  rw [Bool.not_eq_false] at hbit
  have hlt : i < 16 := by
    by_contra hge
    rw [Nat.testBit_lt_two_pow (lt_of_lt_of_le x.isLt (Nat.pow_le_pow_right (by omega) (not_lt.1 hge)))] at hbit
    contradiction
  have hmask : (0xf000 : BitVec 16).getLsbD i = true := by
    interval_cases i <;> rfl
  have hand := congrArg (·.getLsbD i) h
  rw [BitVec.getLsbD_and, hmask, BitVec.getLsbD, hbit] at hand
  simp at hand

namespace CommObject

/-- **The frame in the buffer**: three words and the payload. -/
theorem frameOf_eq {buffer : List Byte} (hsmall : buffer.length < 2 ^ 16) (hlong : 6 ≤ buffer.length) :
    (frameOf buffer).fullFrameSize = wordOf buffer 0 ∧ (frameOf buffer).doppler = wordOf buffer 2 ∧
      (frameOf buffer).rssi = wordOf buffer 4 ∧ (frameOf buffer).content = buffer.drop 6 := by
  have h0 := Reader.Consumed.init buffer
  have h2 : (Reader.init buffer).readWordLE.2.Consumed buffer 2 := h0.updateState (n := 2) (by omega)
  have h4 : (Reader.init buffer).readWordLE.2.readWordLE.2.Consumed buffer 4 :=
    h2.updateState (n := 2) (by omega)
  have h6 : (Reader.init buffer).readWordLE.2.readWordLE.2.readWordLE.2.Consumed buffer 6 :=
    h4.updateState (n := 2) (by omega)
  unfold frameOf
  dsimp only
  refine ⟨?_, ?_, ?_, ?_⟩
  · rw [h0.readWordLE (by omega), if_pos (by omega)]
    rfl
  · rw [h2.readWordLE (by omega), if_pos (by omega)]
    rfl
  · rw [h4.readWordLE (by omega), if_pos (by omega)]
    rfl
  · have hvalid := h6.valid_of_le (by omega) hlong
    generalize (Reader.init buffer).readWordLE.2.readWordLE.2.readWordLE.2 = r at h6 hvalid
    have hat : r.At (buffer.drop 6 ++ []) := by
      refine ⟨hvalid, ?_, ?_, ?_⟩
      · rw [h6.buffer]
        exact hsmall
      · rw [h6.position hvalid, h6.buffer, List.append_nil, List.length_drop]
        omega
      · rw [h6.position hvalid, h6.buffer, List.append_nil]
    have hsize : (r.remainingSize % 2 ^ 16).toNat = (buffer.drop 6).length := by
      unfold Reader.remainingSize
      rw [h6.position hvalid, h6.buffer, List.length_drop]
      omega
    rw [Reader.status, hvalid, hsize]
    exact (hat.readArray rfl).1

/-- The frame is the whole of what the device announced, in both reads: first the size alone, then
size, doppler, RSSI and payload, and all of it inside the receive buffer. -/
structure Received (first second : List Byte) (f : Frame) : Prop where
  announced : (wordOf first 0).toNat = f.content.length
  announcedAgain : (wordOf second 0).toNat = f.content.length
  content : f.content = second.drop 6
  inside : second.length = 6 + f.content.length ∧ second.length ≤ prefferedBufferSize
  doppler : f.doppler = wordOf second 2 ∧ f.doppler.toNat < 2 ^ 12
  rssi : f.rssi = wordOf second 4 ∧ f.rssi.toNat < 2 ^ 12

/-- **A verified frame is complete.** A payload that was cut off at the end of the buffer is too
long to be verified. -/
theorem received_of_verify {first second : List Byte}
    (hlength : second.length = receiveSpan (wordOf first 0).toNat prefferedBufferSize)
    (hverify : (frameOf second).verify = true) : Received first second (frameOf second) := by
  have hbuffer : prefferedBufferSize = 255 := rfl
  have hmax : maxDownlinkFrameSize = 235 := rfl
  unfold receiveSpan at hlength
  have hlong : 6 ≤ second.length ∧ second.length ≤ 255 := by
    split at hlength <;> omega
  obtain ⟨hsize, hdoppler, hrssi, hcontent⟩ := frameOf_eq (by omega) hlong.1
  unfold Frame.verify at hverify
  simp only [Bool.and_eq_true] at hverify
  obtain ⟨⟨⟨hd, hr⟩, hs⟩, hc⟩ := hverify
  unfold Frame.isSizeValid at hs
  unfold Frame.isComplete at hc
  have hs := of_decide_eq_true hs
  have hc := beq_iff_eq.1 hc
  have hdrop : (frameOf second).content.length = second.length - 6 := by
    rw [hcontent, List.length_drop]
  refine ⟨?_, ?_, hcontent, ⟨by omega, by omega⟩, ⟨hdoppler, lt_of_mask (beq_iff_eq.1 hd)⟩,
    ⟨hrssi, lt_of_mask (beq_iff_eq.1 hr)⟩⟩
  · -- cut off at the end of the buffer the payload would be longer than a frame
    split at hlength <;> omega
  · rw [← hsize, hc]

/-! ## The bus -/

/-- The object after some more events. -/
structure After (c : CommObject) (events : List CommEvent) (c' : CommObject) : Prop where
  trace : c'.trace = c.trace ++ events
  handler : c'.hasFrameHandler = c.hasFrameHandler

theorem After.trans {c c' c'' : CommObject} {events events' : List CommEvent} (h : After c events c')
    (h' : After c' events' c'') : After c (events ++ events') c'' where
  trace := by rw [h'.trace, h.trace, List.append_assoc]
  handler := h'.handler.trans h.handler

theorem after_next (c : CommObject) (events : List CommEvent) : After c events (c.next events) := ⟨rfl, rfl⟩

variable {c : CommObject}

theorem sendCommand_after (c : CommObject) (address : CommAddress) (command : Byte) :
    After c [.write address [command]] (c.sendCommand address command).2 := after_next c _

/-- **A command with a response**: nothing, or as many bytes as were asked for. -/
theorem sendCommandWithResponse_cases (c : CommObject) (address : CommAddress) (command : Byte) (length : ℕ) :
    (∃ c', c.sendCommandWithResponse address command length = (none, c') ∧
        After c [.write address [command]] c') ∨
      ∃ bytes c', c.sendCommandWithResponse address command length = (some bytes, c') ∧
        bytes.length = length ∧ After c [.write address [command], .read address bytes] c' := by
  unfold sendCommandWithResponse sendBufferWithResponse
  rw [if_neg (by simp)]
  cases (c.bus 0).write with
  | false => exact .inl ⟨_, rfl, after_next c _⟩
  | true =>
    cases (c.bus 0).read with
    | none => exact .inl ⟨_, rfl, after_next c _⟩
    | some data =>
      refine .inr ⟨(List.range length).map data, _, rfl, ?_, after_next c _⟩
      rw [List.length_map, List.length_range]

/-! ## Receiving -/

/-- Part of the reception of a frame: the command, or what is read. -/
def IsGetFrame (e : CommEvent) : Prop :=
  e = .write .receiver [ReceiverCommand.getFrame.num] ∨ ∃ bytes, e = .read .receiver bytes

/-- The events of a reception that succeeds. -/
def reception (first second : List Byte) : List CommEvent :=
  [.write .receiver [ReceiverCommand.getFrame.num], .read .receiver first,
    .write .receiver [ReceiverCommand.getFrame.num], .read .receiver second]

theorem isGetFrame_reception (first second : List Byte) : ∀ e ∈ reception first second, IsGetFrame e := by
  intro e he
  unfold reception at he
  simp only [List.mem_cons, List.not_mem_nil, or_false] at he
  obtain rfl | rfl | rfl | rfl := he
  · exact .inl rfl
  · exact .inr ⟨first, rfl⟩
  · exact .inl rfl
  · exact .inr ⟨second, rfl⟩

/-- A size read back from two bytes. -/
theorem readWordLE_init {bytes : List Byte} (h : bytes.length = 2) :
    (Reader.init bytes).readWordLE.1 = wordOf bytes 0 := by
  rw [(Reader.Consumed.init bytes).readWordLE (by omega), if_pos (by omega)]
  rfl

/-- **A reception**: it fails, with the frame as it was, or the frame is what was read. -/
theorem receiveFrameInternal_cases (c : CommObject) (frame : Frame) :
    (∃ c' events, c.receiveFrameInternal prefferedBufferSize frame = (false, frame, c') ∧
        After c events c' ∧ ∀ e ∈ events, IsGetFrame e) ∨
      ∃ c' first second, c.receiveFrameInternal prefferedBufferSize frame = (true, frameOf second, c') ∧
        After c (reception first second) c' ∧
        second.length = receiveSpan (wordOf first 0).toNat prefferedBufferSize := by
  have hbuffer : ¬ prefferedBufferSize < 2 := by decide
  have hcommand : ∀ e ∈ [CommEvent.write .receiver [ReceiverCommand.getFrame.num]], IsGetFrame e :=
    List.forall_mem_singleton.2 (.inl rfl)
  unfold receiveFrameInternal
  rw [if_neg hbuffer]
  obtain ⟨c₁, hsend, hafter⟩ | ⟨first, c₁, hsend, hlength, hafter⟩ :=
    c.sendCommandWithResponse_cases .receiver ReceiverCommand.getFrame.num 2
  · rw [hsend]
    exact .inl ⟨c₁, _, rfl, hafter, hcommand⟩
  · rw [hsend]
    dsimp only
    rw [readWordLE_init hlength]
    obtain ⟨c₂, hsend', hafter'⟩ | ⟨second, c₂, hsend', hlength', hafter'⟩ :=
      c₁.sendCommandWithResponse_cases .receiver ReceiverCommand.getFrame.num
        (receiveSpan (wordOf first 0).toNat prefferedBufferSize)
    · rw [hsend']
      refine .inl ⟨c₂, _, rfl, hafter.trans hafter', ?_⟩
      intro e he
      simp only [List.mem_append, List.mem_cons, List.not_mem_nil, or_false] at he
      obtain (rfl | rfl) | rfl := he
      · exact .inl rfl
      · exact .inr ⟨first, rfl⟩
      · exact .inl rfl
    · rw [hsend']
      exact .inr ⟨c₂, first, second, rfl, hafter.trans hafter', hlength'⟩

/-- What comes out of `GetFrame`: no frame, or a verified one from the last two reads. -/
inductive GetFrameOutcome (c : CommObject) : Bool × Frame × CommObject → Prop
  | failed (frame : Frame) (c' : CommObject) (events : List CommEvent) (hafter : After c events c')
    (hevents : ∀ e ∈ events, IsGetFrame e) : GetFrameOutcome c (false, frame, c')
  | received (frame : Frame) (c' : CommObject) (events : List CommEvent) (first second : List Byte)
    (hafter : After c (events ++ reception first second) c') (hevents : ∀ e ∈ events, IsGetFrame e)
    (hverify : frame.verify = true) (hreceived : Received first second frame) :
    GetFrameOutcome c (true, frame, c')

/-- The outcome of the attempts after a failed one. -/
theorem GetFrameOutcome.after {c₁ : CommObject} {events₁ : List CommEvent} {result : Bool × Frame × CommObject}
    (hafter₁ : After c events₁ c₁) (hevents₁ : ∀ e ∈ events₁, IsGetFrame e)
    (h : GetFrameOutcome c₁ result) : GetFrameOutcome c result := by
  have happend : ∀ events, (∀ e ∈ events, IsGetFrame e) → ∀ e ∈ events₁ ++ events, IsGetFrame e :=
    fun events hevents e he => (List.mem_append.1 he).elim (hevents₁ e) (hevents e)
  cases h with
  | failed frame c' events hafter hevents =>
    exact .failed frame c' (events₁ ++ events) (hafter₁.trans hafter) (happend events hevents)
  | received frame c' events first second hafter hevents hverify hreceived =>
    refine .received frame c' (events₁ ++ events) first second ?_ (happend events hevents) hverify hreceived
    rw [List.append_assoc]
    exact hafter₁.trans hafter

/-- **The retries.** -/
theorem getFrame_outcome (retryCount : ℕ) (frame : Frame) (c : CommObject) :
    GetFrameOutcome c (getFrame prefferedBufferSize retryCount frame c) := by
  induction retryCount generalizing frame c with
  | zero => exact .failed frame c [] ⟨(List.append_nil _).symm, rfl⟩ fun e he => by contradiction
  | succ retryCount ih =>
    unfold getFrame
    obtain ⟨c₁, events, hreceive, hafter, hevents⟩ | ⟨c₁, first, second, hreceive, hafter, hlength⟩ :=
      c.receiveFrameInternal_cases frame
    · rw [hreceive]
      exact (ih frame c₁).after hafter hevents
    · rw [hreceive]
      dsimp only
      cases hverify : (frameOf second).verify with
      | true =>
        exact .received (frameOf second) c₁ [] first second hafter (fun e he => by contradiction) hverify
          (received_of_verify hlength hverify)
      | false => exact (ih (frameOf second) c₁).after hafter (isGetFrame_reception first second)

/-! ## Handling -/

/-- RemoveFrame. -/
def removal : CommEvent := .write .receiver [ReceiverCommand.removeFrame.num]

/-- The events for one frame: what is read, at most one call of the handler, with the frame that
the last two reads have brought, and the removal. -/
inductive Segment : List CommEvent → Prop
  | dropped (events : List CommEvent) (h : ∀ e ∈ events, IsGetFrame e) : Segment (events ++ [removal])
  | handled (events : List CommEvent) (first second : List Byte) (f : Frame)
    (h : ∀ e ∈ events, IsGetFrame e) (hf : Received first second f) :
    Segment (events ++ reception first second ++ [.handleFrame f] ++ [removal])

theorem processSingleFrame_segment (c : CommObject) :
    ∃ segment, Segment segment ∧ After c segment c.processSingleFrame := by
  unfold processSingleFrame
  have h := getFrame_outcome 3 emptyFrame c
  generalize getFrame prefferedBufferSize 3 emptyFrame c = result at h
  cases h with
  | failed frame c' events hafter hevents =>
    exact ⟨_, .dropped events hevents, hafter.trans (sendCommand_after c' _ _)⟩
  | received frame c' events first second hafter hevents hverify hreceived =>
    dsimp only
    rw [hverify]
    by_cases hhandler : (true && true && c'.hasFrameHandler) = true
    · rw [if_pos hhandler]
      have hhandled : After c' [.handleFrame frame] { c' with trace := c'.trace ++ [.handleFrame frame] } :=
        ⟨rfl, rfl⟩
      exact ⟨_, .handled events first second frame hevents hreceived,
        (hafter.trans hhandled).trans (sendCommand_after _ _ _)⟩
    · -- nobody to call
      rw [if_neg hhandler]
      refine ⟨_, .dropped (events ++ reception first second) ?_, hafter.trans (sendCommand_after c' _ _)⟩
      exact fun e he => (List.mem_append.1 he).elim (hevents e) (isGetFrame_reception first second e)

/-- **The loop**: one segment after the other. -/
theorem processFrames_segments (frameCount : ℕ) (c : CommObject) :
    ∃ segments : List (List CommEvent), segments.length = frameCount ∧
      (∀ segment ∈ segments, Segment segment) ∧ After c segments.flatten (processFrames frameCount c) := by
  induction frameCount generalizing c with
  | zero => exact ⟨[], rfl, fun segment h => by contradiction, ⟨(List.append_nil _).symm, rfl⟩⟩
  | succ frameCount ih =>
    obtain ⟨segment, hsegment, hafter⟩ := c.processSingleFrame_segment
    obtain ⟨segments, hlength, hsegments, hrest⟩ := ih c.processSingleFrame
    refine ⟨segment :: segments, congrArg (· + 1) hlength, List.forall_mem_cons.2 ⟨hsegment, hsegments⟩, ?_⟩
    rw [List.flatten_cons]
    exact hafter.trans hrest

/-- One removal in each segment. -/
theorem Segment.count_removal {segment : List CommEvent} (h : Segment segment) :
    segment.count removal = 1 := by
  have hnone : ∀ events : List CommEvent, (∀ e ∈ events, IsGetFrame e) → events.count removal = 0 := by
    intro events hevents
    rw [List.count_eq_zero]
    intro hmem
    obtain hwrite | ⟨bytes, hread⟩ := hevents removal hmem
    · exact absurd hwrite (by decide)
    · unfold removal at hread
      contradiction
  cases h with
  | dropped events hevents => rw [List.count_append, hnone events hevents, List.count_singleton_self]
  | handled events first second f hevents _ =>
    have hhandler : [CommEvent.handleFrame f].count removal = 0 := by
      rw [List.count_eq_zero, List.mem_singleton]
      unfold removal
      intro heq
      contradiction
    rw [List.count_append, List.count_append, List.count_append, hnone events hevents,
      hnone _ (isGetFrame_reception first second), hhandler, List.count_singleton_self]

theorem count_removal_flatten {segments : List (List CommEvent)} (h : ∀ segment ∈ segments, Segment segment) :
    segments.flatten.count removal = segments.length := by
  induction segments with
  | nil => rfl
  | cons segment segments ih =>
    have hsegment := (h segment List.mem_cons_self).count_removal
    have hsegments := ih fun s hs => h s (List.mem_cons_of_mem segment hs)
    rw [List.flatten_cons, List.count_append, hsegment, hsegments, List.length_cons, Nat.add_comm]

/-! ## Polling -/

/-- The number in the answer to GetFrameCount, if there is an answer. -/
def announced (c : CommObject) : Option ℕ :=
  if (c.bus 0).write then (c.bus 0).read.map fun data => (data 1 ++ data 0 : BitVec 16).toNat else none

/-- The frames to process: those announced, unless there are more than the receiver can hold. -/
def toProcess (c : CommObject) : ℕ :=
  match c.announced with
  | some n => if n ≤ receiverBufferSize then n else 0
  | none => 0

/-- Neither a call of the handler nor a removal. -/
def IsOther (e : CommEvent) : Prop := e ≠ removal ∧ ∀ f, e ≠ .handleFrame f

theorem isOther_write {address : CommAddress} {command : Byte} (h : command ≠ ReceiverCommand.removeFrame.num) :
    IsOther (.write address [command]) := by
  refine ⟨fun heq => ?_, fun f heq => by contradiction⟩
  unfold removal at heq
  injection heq with _ hbytes
  exact h (List.singleton_inj.1 hbytes)

theorem isOther_read (address : CommAddress) (bytes : List Byte) : IsOther (.read address bytes) :=
  ⟨fun heq => by contradiction, fun f heq => by contradiction⟩

/-- **The query**: its status says whether there is something to process. -/
theorem getFrameCount_cases (c : CommObject) :
    ∃ response c' query, c.getFrameCount = (response, c') ∧ After c query c' ∧ (∀ e ∈ query, IsOther e) ∧
      (if response.status then response.frameCount.toNat else 0) = c.toProcess := by
  have hcommand : IsOther (.write .receiver [ReceiverCommand.getFrameCount.num]) := isOther_write (by decide)
  unfold getFrameCount sendCommandWithResponse sendBufferWithResponse toProcess announced
  rw [if_neg (by simp)]
  cases (c.bus 0).write with
  | false => exact ⟨_, _, _, rfl, after_next c _, List.forall_mem_singleton.2 hcommand, rfl⟩
  | true =>
    cases (c.bus 0).read with
    | none => exact ⟨_, _, _, rfl, after_next c _, List.forall_mem_singleton.2 hcommand, rfl⟩
    | some data =>
      have hquery : ∀ e ∈ [CommEvent.write .receiver [ReceiverCommand.getFrameCount.num],
          .read .receiver ((List.range 2).map data)], IsOther e :=
        List.forall_mem_cons.2 ⟨hcommand, List.forall_mem_singleton.2 (isOther_read _ _)⟩
      have hcount : (Reader.init ((List.range 2).map data)).readWordLE.1 = data 1 ++ data 0 :=
        readWordLE_init (by simp)
      have hstatus : (Reader.init ((List.range 2).map data)).readWordLE.2.status = true := rfl
      simp only [Bool.not_true, Bool.false_eq_true, if_false]
      rw [hstatus, hcount]
      by_cases hmany : receiverBufferSize < (data 1 ++ data 0 : BitVec 16).toNat
      · refine ⟨⟨false, 0⟩, _, _, ?_, after_next c _, hquery, ?_⟩
        · rw [if_pos hmany]
          rfl
        · exact (if_neg (not_le.2 hmany)).symm
      · refine ⟨⟨true, data 1 ++ data 0⟩, _, _, ?_, after_next c _, hquery, ?_⟩
        · rw [if_neg hmany]
          rfl
        · exact (if_pos (not_lt.1 hmany)).symm

/-- The frames, if the answer says that there are any. -/
theorem frames_after (response : ReceiverFrameCount) (c : CommObject) :
    ∃ segments : List (List CommEvent),
      segments.length = (if response.status then response.frameCount.toNat else 0) ∧
      (∀ segment ∈ segments, Segment segment) ∧
      After c segments.flatten (if (response.status && decide (0 < response.frameCount.toNat)) = true then
        processFrames response.frameCount.toNat c else c) := by
  by_cases hany : (response.status && decide (0 < response.frameCount.toNat)) = true
  · rw [if_pos hany, if_pos (Bool.and_eq_true _ _ ▸ hany).1]
    exact processFrames_segments response.frameCount.toNat c
  · rw [if_neg hany]
    refine ⟨[], ?_, fun segment h => by contradiction, ⟨(List.append_nil _).symm, rfl⟩⟩
    rw [Bool.and_eq_true, not_and, decide_eq_true_eq] at hany
    rw [List.length_nil]
    split
    · have := hany (by assumption)
      omega
    · rfl

/-- The watchdogs: that of the transmitter is reset where that of the receiver cannot be. -/
theorem watchdogs_after (c : CommObject) :
    ∃ watchdogs, (∀ e ∈ watchdogs, IsOther e) ∧
      After c watchdogs (if (!(c.sendCommand .receiver ReceiverCommand.resetWatchdog.num).1) = true then
        ((c.sendCommand .receiver ReceiverCommand.resetWatchdog.num).2.sendCommand .transmitter
          TransmitterCommand.resetWatchdog.num).2
        else (c.sendCommand .receiver ReceiverCommand.resetWatchdog.num).2) := by
  have hreceiver : IsOther (.write .receiver [ReceiverCommand.resetWatchdog.num]) := isOther_write (by decide)
  have htransmitter : IsOther (.write .transmitter [TransmitterCommand.resetWatchdog.num]) :=
    isOther_write (by decide)
  split
  · exact ⟨_, List.forall_mem_cons.2 ⟨hreceiver, List.forall_mem_singleton.2 htransmitter⟩,
      (sendCommand_after c _ _).trans (sendCommand_after _ _ _)⟩
  · exact ⟨_, List.forall_mem_singleton.2 hreceiver, sendCommand_after c _ _⟩

/-- **Frames are handled completely or not at all**: apart from the query and the watchdogs, a poll
has one segment for each frame that was announced, if these are not more than 64, and so as
many removals. -/
theorem pollHardware_segments (c : CommObject) :
    ∃ (query watchdogs : List CommEvent) (segments : List (List CommEvent)),
      c.pollHardware.2.trace = c.trace ++ (query ++ segments.flatten ++ watchdogs) ∧
      (∀ e ∈ query ++ watchdogs, IsOther e) ∧ (∀ segment ∈ segments, Segment segment) ∧
      segments.length = c.toProcess ∧
      (query ++ segments.flatten ++ watchdogs).count removal = c.toProcess := by
  obtain ⟨response, c₁, query, hquery, hafter, hother, hcount⟩ := c.getFrameCount_cases
  obtain ⟨segments, hlength, hsegments, hframes⟩ := frames_after response c₁
  rw [hcount] at hlength
  obtain ⟨watchdogs, hwatchdog, hlast⟩ := watchdogs_after
    (if (response.status && decide (0 < response.frameCount.toNat)) = true then
      processFrames response.frameCount.toNat c₁ else c₁)
  have hnone : ∀ events : List CommEvent, (∀ e ∈ events, IsOther e) → events.count removal = 0 :=
    fun events hevents => List.count_eq_zero.2 fun hmem => (hevents removal hmem).1 rfl
  refine ⟨query, watchdogs, segments, ?_, ?_, hsegments, hlength, ?_⟩
  · unfold pollHardware
    rw [hquery]
    exact ((hafter.trans hframes).trans hlast).trace
  · exact fun e he => (List.mem_append.1 he).elim (hother e) (hwatchdog e)
  · rw [List.count_append, List.count_append, hnone query hother, hnone watchdogs hwatchdog,
      count_removal_flatten hsegments, hlength]
    omega

/-- A receiver that announces 65 frames. -/
def sixtyFive : CommObject := ⟨fun _ => ⟨true, some fun i => if i = 0 then 65 else 0⟩, [], true, none⟩

/-- No frame is removed. -/
theorem sixtyFive_not_removed :
    sixtyFive.announced = some 65 ∧ sixtyFive.pollHardware.2.trace.count removal ≠ 65 := by decide

end CommObject

end PWSat2OBC
