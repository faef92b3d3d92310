import PWSat2OBC.Proof.Telecommands
import PWSat2OBC.Spec.Uplink

/-!
# The way of a periodic message from a frame to the persistent state

The receiver checks a frame against the maximal size of a downlink frame, 235 bytes; the
security code, the command code and the parameters in front of the message take 8 of them
(`decode_success`, `handle_cases`). That leaves messages of up to 227 bytes for an array of 200.
-/

namespace PWSat2OBC

open State

/-! ## Decoding -/

/-- **What a decoded frame is**: five bytes and the parameters. -/
theorem UplinkProtocol.decode_success {securityCode : BitVec 32} {frame parameters : List Byte}
    {commandCode : Byte} (hsmall : frame.length < 2 ^ 16)
    (h : decode securityCode frame = some (.success commandCode parameters)) :
    5 ≤ frame.length ∧ parameters = frame.drop 5 := by
  have hconsumed : (Reader.init frame).readDoubleWordBE.2.readByte.2.Consumed frame 5 :=
    ((Reader.Consumed.init frame).updateState (n := 4) (by omega)).updateState (n := 1) (by omega)
  unfold decode at h
  dsimp only at h
  rcases Nat.lt_or_ge frame.length 5 with hshort | hlong
  · -- a frame without room for the header is malformed
    have hstatus := hconsumed.status_eq_false hshort
    rw [Reader.readToEnd_of_not_valid hstatus] at h
    dsimp only at h
    rw [hstatus] at h
    cases Option.some.inj h
  · refine ⟨hlong, ?_⟩
    have hne : frame ≠ [] := by
      rintro rfl
      rw [List.length_nil] at hlong
      omega
    have hat : (Reader.init frame).At (frame.take 4 ++ (frame.drop 4)) := by
      rw [List.take_append_drop]
      exact Reader.at_init hne hsmall
    have hat4 := (hat.updateState (n := 4) (by rw [List.length_take]; omega)).1
    rw [← List.take_append_drop 1 (frame.drop 4), List.drop_drop] at hat4
    have hat5 := (hat4.updateState (n := 1) (by rw [List.length_take, List.length_drop]; omega)).1
    obtain ⟨r', hread, hr'⟩ := hat5.readToEnd
    have hdecoded : (Reader.init frame).readDoubleWordBE.2.readByte.2.readToEnd =
        some (frame.drop (4 + 1), r') := hread
    rw [hdecoded] at h
    dsimp only at h
    rw [Reader.status, hr'.isValid] at h
    split at h
    · contradiction
    · split at h
      · cases Option.some.inj h
      · injection Option.some.inj h with _ hparameters
        exact hparameters.symm

/-! ## The handler -/

namespace SetPeriodicMessageTelecommand

/-- `Telecommand<0x05>`. -/
def telecommand : HandleTelecommand (Surroundings → OnboardState → Handled × OnboardState) :=
  ⟨0x05, fun parameters surroundings s => handle surroundings s parameters⟩

/-- The array with a message at its beginning and zeros behind it. -/
def padded (message : List Byte) : List Byte := message ++ List.replicate (messageLength - message.length) 0

theorem messageState_eq (interval repeatCount : Byte) {message : List Byte}
    (h : message.length ≤ messageLength) :
    ∃ newSettings, messageState interval repeatCount message = some newSettings ∧
      newSettings.message = padded message := by
  unfold messageState
  rw [dif_pos h]
  refine ⟨_, rfl, ?_⟩
  dsimp only
  rw [MessageState.copy, List.drop_replicate]
  rfl

theorem messageState_none {interval repeatCount : Byte} {message : List Byte}
    (h : messageLength < message.length) : messageState interval repeatCount message = none := by
  unfold messageState
  rw [dif_neg (by omega)]

/-- **The handler**: without a message nothing changes, one of up to 200 bytes is set, and a
longer one is written over the end of the array. -/
theorem handle_cases (surroundings : Surroundings) (s : OnboardState) {parameters : List Byte}
    (hsmall : parameters.length < 2 ^ 16) :
    parameters.length ≤ 3 ∧ (∃ payload, handle surroundings s parameters = (.frame apid payload, s)) ∨
    3 < parameters.length ∧ messageLength < (parameters.drop 3).length ∧
      handle surroundings s parameters = (.outOfBounds, s) ∨
    3 < parameters.length ∧ (parameters.drop 3).length ≤ messageLength ∧
      ∃ payload newSettings, newSettings.message = padded (parameters.drop 3) ∧
        handle surroundings s parameters = (.frame apid payload,
          (s.setPart surroundings fun p => { p with messageState := newSettings }).2) := by
  rcases Nat.lt_or_ge parameters.length 3 with hshort | hlong
  · have hstatus := consumed_bytes.status_eq_false hshort
    refine .inl ⟨hshort.le, [(Reader.init parameters).readByte.1, 1], ?_⟩
    unfold handle
    dsimp only
    rw [Reader.readToEnd_of_not_valid hstatus]
    exact if_pos (.inr rfl)
  · -- three bytes, and the message behind them
    obtain ⟨b0, b1, b2, message, rfl⟩ : ∃ b0 b1 b2 message, parameters = b0 :: b1 :: b2 :: message := by
      match parameters, hlong with
      | b0 :: b1 :: b2 :: message, _ => exact ⟨b0, b1, b2, message, rfl⟩
    have hat : (Reader.init (b0 :: b1 :: b2 :: message)).At ([b0] ++ ([b1] ++ ([b2] ++ message))) :=
      Reader.at_init (List.cons_ne_nil _ _) hsmall
    obtain ⟨-, h1⟩ := hat.readByte
    obtain ⟨-, h2⟩ := h1.readByte
    obtain ⟨-, h3⟩ := h2.readByte
    obtain ⟨r', hread, hr'⟩ := h3.readToEnd
    have hstatus : r'.status = true := hr'.isValid
    have hdrop : (b0 :: b1 :: b2 :: message).drop 3 = message := rfl
    have hlength : (b0 :: b1 :: b2 :: message).length = message.length + 3 := rfl
    rw [hdrop, hlength]
    unfold handle
    dsimp only
    rw [hread]
    dsimp only
    rw [hstatus]
    rcases Nat.eq_zero_or_pos message.length with hempty | hpos
    · -- an empty message is refused
      refine .inl ⟨by omega, [(Reader.init (b0 :: b1 :: b2 :: message)).readByte.1, 1], ?_⟩
      exact if_pos (.inr hempty)
    · have hcheck : ¬ ((!true) = true ∨ message.length = 0) := by
        rintro (hfalse | hzero)
        · contradiction
        · omega
      rw [if_neg hcheck]
      rcases Nat.lt_or_ge messageLength message.length with hover | hfits
      · refine .inr (.inl ⟨by omega, hover, ?_⟩)
        rw [messageState_none hover]
      · obtain ⟨newSettings, hsettings, hmessage⟩ := messageState_eq
          (Reader.init (b0 :: b1 :: b2 :: message)).readByte.2.readByte.1
          (Reader.init (b0 :: b1 :: b2 :: message)).readByte.2.readByte.2.readByte.1 hfits
        refine .inr (.inr ⟨by omega, hfits, [(Reader.init (b0 :: b1 :: b2 :: message)).readByte.1, 0],
          newSettings, hmessage, ?_⟩)
        rw [hsettings]

/-- Without the lock the old message stays. -/
theorem handle_unlocked {surroundings : Surroundings} {s : OnboardState} {parameters : List Byte}
    (hlock : surroundings.setLock = false) (hsmall : parameters.length < 2 ^ 16) :
    (handle surroundings s parameters).2 = s := by
  obtain ⟨-, payload, hhandle⟩ | ⟨-, -, hhandle⟩ | ⟨-, -, payload, newSettings, -, hhandle⟩ :=
    handle_cases surroundings s hsmall
  · rw [hhandle]
  · rw [hhandle]
  · rw [hhandle]
    unfold OnboardState.setPart LockablePersistentState.set
    rw [hlock]
    rfl

end SetPeriodicMessageTelecommand

/-! ## From the frame to the state -/

/-- A frame that passes the checks of the receiver and of the protocol, for the handler above. -/
structure Dispatched (securityCode : BitVec 32)
    (telecommands : List (HandleTelecommand (Surroundings → OnboardState → Handled × OnboardState)))
    (f : Frame) (parameters : List Byte) : Prop where
  verify : f.verify = true
  decode : UplinkProtocol.decode securityCode f.content =
    some (.success SetPeriodicMessageTelecommand.telecommand.commandCode parameters)
  found : (telecommands.find? fun p =>
    p.commandCode == SetPeriodicMessageTelecommand.telecommand.commandCode) =
      some SetPeriodicMessageTelecommand.telecommand

/-- The message in a frame. -/
def Frame.message (f : Frame) : List Byte := f.content.drop 8

/-- The frame is handled without a write over the end of the array, and a message in it can be
read back from the persistent state. -/
def MessageFits (securityCode : BitVec 32)
    (telecommands : List (HandleTelecommand (Surroundings → OnboardState → Handled × OnboardState)))
    (surroundings : Surroundings) (f : Frame) (s : OnboardState) : Prop :=
  ∃ handler, IncomingTelecommandHandler.handleFrame securityCode telecommands f = some handler ∧
    (handler surroundings s).1 ≠ .outOfBounds ∧
    (f.message ≠ [] → (handler surroundings s).2.persistentState.get true (·.messageState.message) =
      some (SetPeriodicMessageTelecommand.padded f.message))

variable {securityCode : BitVec 32} {f : Frame} {parameters : List Byte}
  {telecommands : List (HandleTelecommand (Surroundings → OnboardState → Handled × OnboardState))}

theorem Dispatched.handleFrame (h : Dispatched securityCode telecommands f parameters) :
    IncomingTelecommandHandler.handleFrame securityCode telecommands f =
      some fun surroundings s => SetPeriodicMessageTelecommand.handle surroundings s parameters := by
  unfold IncomingTelecommandHandler.handleFrame IncomingTelecommandHandler.dispatchCommandHandler
  rw [h.decode]
  dsimp only
  rw [h.found]
  rfl

theorem Dispatched.fits_handle {surroundings : Surroundings} {s : OnboardState}
    (h : Dispatched securityCode telecommands f parameters) :
    MessageFits securityCode telecommands surroundings f s ↔
      (SetPeriodicMessageTelecommand.handle surroundings s parameters).1 ≠ .outOfBounds ∧
      (f.message ≠ [] → (SetPeriodicMessageTelecommand.handle surroundings s
        parameters).2.persistentState.get true (·.messageState.message) =
          some (SetPeriodicMessageTelecommand.padded f.message)) := by
  unfold MessageFits
  rw [h.handleFrame]
  constructor
  · rintro ⟨handler, hhandler, hfits⟩
    obtain rfl := Option.some.inj hhandler
    exact hfits
  · intro hfits
    exact ⟨_, rfl, hfits⟩

/-- The parameters are what is behind the security code and the command code. -/
theorem Dispatched.parameters_eq (h : Dispatched securityCode telecommands f parameters) :
    parameters.drop 3 = f.message ∧ f.content.length = parameters.length + 5 := by
  obtain ⟨hlong, hparameters⟩ := UplinkProtocol.decode_success f.small h.decode
  constructor
  · rw [hparameters, List.drop_drop]
    rfl
  · rw [hparameters, List.length_drop]
    omega

theorem add_one_ne (b : Byte) : b + 1 ≠ b := by
  intro heq
  have hlt := b.isLt
  have hnat := congrArg BitVec.toNat heq
  rw [BitVec.toNat_add] at hnat
  change (b.toNat + 1) % 2 ^ 8 = b.toNat at hnat
  omega

/-- A state with another message. -/
def otherMessage (b : Byte) : OnboardState :=
  { sampleState with persistentState := ⟨{ sampleState.persistentState.state with
      parts := { sampleState.persistentState.state.parts with
        messageState := ⟨0, 0, List.replicate messageLength b, List.length_replicate⟩ } }⟩ }

/-- **The periodic message fits**, whatever the state, exactly in frames of up to 208 bytes, with
the lock obtained if there is a message. -/
theorem messageFits_iff {surroundings : Surroundings} (h : Dispatched securityCode telecommands f parameters) :
    (∀ s, MessageFits securityCode telecommands surroundings f s) ↔
      f.content.length ≤ messageLength + 8 ∧ (8 < f.content.length → surroundings.setLock = true) := by
  simp only [h.fits_handle]
  obtain ⟨hmessage, hlength⟩ := h.parameters_eq
  have hsmall : parameters.length < 2 ^ 16 := by
    have := f.small
    omega
  have hmessageLength : f.message.length = f.content.length - 8 := List.length_drop
  have hcases := fun s => SetPeriodicMessageTelecommand.handle_cases surroundings s hsmall
  rw [hmessage] at hcases
  constructor
  · intro hall
    constructor
    · -- a longer message is written over the end
      by_contra hover
      have hbounds := (hall sampleState).1
      obtain ⟨hshort, -⟩ | ⟨-, -, hout⟩ | ⟨-, hfits, -⟩ := hcases sampleState
      · omega
      · rw [hout] at hbounds
        exact hbounds rfl
      · omega
    · -- without the lock the old message stays
      intro hsome
      by_contra hlock
      obtain ⟨b, rest, hcons⟩ : ∃ b rest, f.message = b :: rest := by
        cases hm : f.message with
        | nil =>
          rw [hm, List.length_nil] at hmessageLength
          omega
        | cons b rest => exact ⟨b, rest, rfl⟩
      have hread := (hall (otherMessage (b + 1))).2 (by rw [hcons]; exact List.cons_ne_nil _ _)
      rw [SetPeriodicMessageTelecommand.handle_unlocked (Bool.eq_false_iff.2 hlock) hsmall, hcons] at hread
      have hhead := congrArg (fun m => m.bind List.head?) hread
      exact add_one_ne b (Option.some.inj hhead)
  · rintro ⟨hfits, hlock⟩ s
    obtain ⟨hshort, payload, hhandle⟩ | ⟨-, hover, -⟩ | ⟨hlong, -, payload, newSettings, hnew, hhandle⟩ :=
      hcases s
    · rw [hhandle]
      refine ⟨by simp, fun hsome => absurd (List.length_eq_zero_iff.1 ?_) hsome⟩
      omega
    · omega
    · rw [hhandle]
      refine ⟨by simp, fun _ => ?_⟩
      unfold OnboardState.setPart LockablePersistentState.set LockablePersistentState.get
      rw [hlock (by omega)]
      exact congrArg some hnew

/-- A frame for the handler, with a message of so many bytes. -/
def messageFrame (n : ℕ) (h : n ≤ 227) : Frame where
  doppler := 0
  rssi := 0
  fullFrameSize := BitVec.ofNat 16 (8 + n)
  content := [0, 0, 0, 0, 5, 0x11, 10, 2] ++ List.replicate n 0x41
  small := by
    rw [List.length_append, List.length_replicate]
    change 8 + n < 2 ^ 16
    omega

/-- The only telecommand. -/
def onlyPeriodicMessage : List (HandleTelecommand (Surroundings → OnboardState → Handled × OnboardState)) :=
  [SetPeriodicMessageTelecommand.telecommand]

/-- A message of three bytes. -/
theorem messageFits_iff_short :
    Dispatched 0 onlyPeriodicMessage (messageFrame 3 (by omega)) [0x11, 10, 2, 0x41, 0x41, 0x41] ∧
      ∀ s, MessageFits 0 onlyPeriodicMessage sampleSurroundings (messageFrame 3 (by omega)) s := by
  have h : Dispatched 0 onlyPeriodicMessage (messageFrame 3 (by omega)) [0x11, 10, 2, 0x41, 0x41, 0x41] :=
    ⟨by decide, by decide, rfl⟩
  exact ⟨h, (messageFits_iff h).2 ⟨by decide, fun _ => rfl⟩⟩

/-- A message of 201 bytes. -/
theorem longMessage_not_fits :
    (∃ parameters, Dispatched 0 onlyPeriodicMessage (messageFrame 201 (by omega)) parameters) ∧
      ¬ MessageFits 0 onlyPeriodicMessage sampleSurroundings (messageFrame 201 (by omega)) sampleState := by
  have h : Dispatched 0 onlyPeriodicMessage (messageFrame 201 (by omega))
      ([0x11, 10, 2] ++ List.replicate 201 0x41) := ⟨by decide +kernel, by decide +kernel, rfl⟩
  have hlength : ([0x11, 10, 2] ++ List.replicate 201 (0x41 : Byte)).length = 204 := by
    rw [List.length_append, List.length_replicate]
    rfl
  have hsmall : ([0x11, 10, 2] ++ List.replicate 201 (0x41 : Byte)).length < 2 ^ 16 := by omega
  have hmax : messageLength = 200 := rfl
  refine ⟨⟨_, h⟩, ?_⟩
  rw [h.fits_handle]
  rintro ⟨hbounds, -⟩
  obtain ⟨hshort, -⟩ | ⟨-, -, hhandle⟩ | ⟨-, hfits, -⟩ :=
    SetPeriodicMessageTelecommand.handle_cases sampleSurroundings sampleState hsmall
  · omega
  · rw [hhandle] at hbounds
    exact hbounds rfl
  · rw [List.length_drop] at hfits
    omega

end PWSat2OBC
