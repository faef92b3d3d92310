import PWSat2OBC.Proof.BootSettings
import PWSat2OBC.Proof.Downlink
import PWSat2OBC.Proof.Fdir
import PWSat2OBC.Proof.Telecommands
import PWSat2OBC.Proof.Uplink
import PWSat2OBC.Spec.GroundSettings

/-!
# The settings follow the ground

What the ground packs is what a handler reads (`receive_build`), and a frame without the security code
reaches no handler (`receive_other`). The handlers change the settings as the telecommand means it or
leave them as they are, and tell which (`Outcome`), but for the clock and the periodic message: there
only the handler knows.
-/

namespace PWSat2OBC

open State Runs

/-! ## Frames -/

namespace GroundLink

variable {securityCode : BitVec 32} {content : List Byte} {surroundings : Surroundings} {s : OnboardState}

/-- The bytes of a word, highest first. -/
theorem eq_storeWord_reverse (b0 b1 b2 b3 : Byte) :
    ∃ word : BitVec 32, (Redundancy.storeWord word).reverse = [b0, b1, b2, b3] := by
  refine ⟨Redundancy.loadWord b3 b2 b1 b0, ?_⟩
  rw [Redundancy.storeWord_loadWord]
  rfl

/-- **Frames of others** reach no handler. -/
theorem receive_other (h : ¬ Authenticated securityCode content) (hsmall : content.length < 2 ^ 16) :
    receive securityCode content surroundings s = none := by
  have hfailed : ∀ commandCode parameters,
      UplinkProtocol.decode securityCode content ≠ some (.success commandCode parameters) := by
    by_cases hshort : content.length < 5
    · exact UplinkProtocol.decode_short securityCode hshort
    match content, h, hsmall, hshort with
    | b0 :: b1 :: b2 :: b3 :: command :: parameters, h, hsmall, _ =>
      obtain ⟨word, hword⟩ := eq_storeWord_reverse b0 b1 b2 b3
      have hne : word ≠ securityCode := by
        rintro rfl
        exact h ⟨by simp, hword.symm⟩
      have hdecode := UplinkProtocol.decode_fields securityCode word command parameters
        (by simpa using hsmall)
      rw [hword, if_pos hne] at hdecode
      intro commandCode parameters' hsuccess
      have hboth := hdecode.symm.trans hsuccess
      simp at hboth
    | [], _, _, hshort => simp at hshort
    | [_], _, _, hshort => simp at hshort
    | [_, _], _, _, hshort => simp at hshort
    | [_, _, _], _, _, hshort => simp at hshort
    | [_, _, _, _], _, _, hshort => simp at hshort
  unfold receive
  split
  · rename_i commandCode parameters hsuccess
    exact absurd hsuccess (hfailed commandCode parameters)
  · rfl

/-- The handler that a telecommand is for. -/
def kind : GroundTelecommand → SettingTelecommand
  | .setTimeCorrectionConfig .. => .setTimeCorrectionConfig
  | .setTime .. => .setTime
  | .setErrorCounterConfig .. => .setErrorCounterConfig
  | .setBootSlots .. => .setBootSlots
  | .setPeriodicMessage .. => .setPeriodicMessage
  | .stopSailDeployment .. => .stopSailDeployment

/-- **Frames of the ground** reach the handler of their telecommand, with what was packed. -/
theorem receive_build (tc : GroundTelecommand) (hsize : tc.payload.length ≤ UploadSoftware.maxPayloadSize) :
    receive securityCode (tc.build securityCode) surroundings s =
      some ((kind tc).handle surroundings s tc.payload) := by
  unfold UploadSoftware.maxPayloadSize at hsize
  have hdecode := UplinkProtocol.decode_fields securityCode securityCode tc.apid tc.payload (by omega)
  rw [if_neg (not_not.2 rfl)] at hdecode
  unfold receive GroundTelecommand.build
  rw [hdecode]
  cases tc <;> rfl

/-! ## Responses -/

theorem carries_foldl {f : DownlinkFrame} {apid : Byte} {seq : BitVec 32} {sent : List Byte}
    (h : f.Carries apid seq sent) (payload : List Byte) (hfits : sent.length + payload.length ≤ DownlinkFrame.maxPayloadSize) :
    (payload.foldl DownlinkFrame.writeByte f).Carries apid seq (sent ++ payload) := by
  induction payload generalizing f sent with
  | nil => rwa [List.append_nil]
  | cons byte payload ih =>
    rw [List.length_cons] at hfits
    have hbyte := h.writeByte byte (by omega)
    have ih := ih hbyte (by rw [List.length_append, List.length_singleton]; omega)
    rwa [List.append_assoc] at ih

/-- **What the ground takes for a success**: a zero behind the correlation id, or anything if it has set
the time. -/
theorem accepts_responseFrame (tc : GroundTelecommand) (status : Byte) (rest : List Byte)
    (hfits : rest.length + 2 ≤ DownlinkFrame.maxPayloadSize) :
    tc.accepts (responseFrame (BitVec.ofNat 8 tc.responseApid) (tc.correlationId :: status :: rest)) =
      (decide (kind tc = .setTime) || status == 0) := by
  have hcarries := carries_foldl (DownlinkFrame.carries_init (BitVec.ofNat 8 tc.responseApid) 0)
    (tc.correlationId :: status :: rest) (by simp only [List.length_nil, List.length_cons]; omega)
  have hparse := hcarries.parse
  rw [List.nil_append] at hparse
  have hapid : (BitVec.ofNat 8 tc.responseApid).toNat % 2 ^ 6 = tc.responseApid := by cases tc <;> rfl
  rw [hapid] at hparse
  unfold GroundTelecommand.accepts responseFrame
  simp only [hparse, beq_self_eq_true, Bool.true_and]
  by_cases hzero : status = 0#8
  · subst hzero
    cases tc <;> simp [SettingResponse.decode, GroundTelecommand.responseApid, kind]
  · cases tc <;> simp [SettingResponse.decode, GroundTelecommand.responseApid, kind, hzero]

/-! ## Handlers -/

/-- **How a telecommand ends**: its settings are in force if the ground takes the response for a success,
and nothing has changed otherwise. -/
def Outcome (tc : GroundTelecommand) (surroundings : Surroundings) (s : OnboardState) : Prop :=
  ∃ status rest s', (kind tc).handle surroundings s tc.payload =
      (.frame (BitVec.ofNat 8 tc.responseApid) (tc.correlationId :: status :: rest), s') ∧
    rest.length + 2 ≤ DownlinkFrame.maxPayloadSize ∧
    s'.settings = if (decide (kind tc = .setTime) || status == 0) then s.settings.after tc else s.settings

/-- The reader of a payload, behind the correlation id. -/
theorem payload_at {correlationId : Byte} {rest : List Byte} (hsmall : rest.length + 1 < 2 ^ 16) :
    (Reader.init (correlationId :: rest)).readByte.1 = correlationId ∧
      (Reader.init (correlationId :: rest)).readByte.2.At rest := by
  have h0 : (Reader.init (correlationId :: rest)).At ([correlationId] ++ rest) :=
    Reader.at_init (by simp) (by simpa using hsmall)
  exact h0.readByte

theorem outcome_setTimeCorrectionConfig (correlationId : Byte) (missionTimeWeight externalTimeWeight : BitVec 16) :
    Outcome (.setTimeCorrectionConfig correlationId missionTimeWeight externalTimeWeight) surroundings s := by
  obtain ⟨hid, h1⟩ := @payload_at correlationId
    ([missionTimeWeight.extractLsb' 0 8, missionTimeWeight.extractLsb' 8 8] ++
      ([externalTimeWeight.extractLsb' 0 8, externalTimeWeight.extractLsb' 8 8] ++ [])) (by simp)
  obtain ⟨hmission, h2⟩ := h1.readWordLE
  obtain ⟨hexternal, -⟩ := h2.readWordLE
  by_cases hzero : missionTimeWeight = 0 ∧ externalTimeWeight = 0
  · refine ⟨-1, [], s, ?_, by decide, rfl⟩
    unfold kind SettingTelecommand.handle SetTimeCorrectionConfigTelecommand.handle GroundTelecommand.payload
    dsimp only
    simp only [List.cons_append, List.nil_append] at hid hmission hexternal
    rw [hid, hmission, hexternal, if_pos hzero]
    rfl
  · have hhandle : (kind (.setTimeCorrectionConfig correlationId missionTimeWeight externalTimeWeight)).handle
        surroundings s (GroundTelecommand.payload (.setTimeCorrectionConfig correlationId missionTimeWeight
          externalTimeWeight)) =
        (.frame 0x15 [correlationId, if surroundings.setLock then 0 else -2],
          (s.setPart surroundings fun p =>
            { p with timeCorrectionConfiguration := ⟨missionTimeWeight, externalTimeWeight⟩ }).2) := by
      unfold kind SettingTelecommand.handle SetTimeCorrectionConfigTelecommand.handle GroundTelecommand.payload
      dsimp only
      simp only [List.cons_append, List.nil_append] at hid hmission hexternal
      rw [hid, hmission, hexternal, if_neg hzero]
      cases hlock : surroundings.setLock <;>
        simp [OnboardState.setPart, LockablePersistentState.set, hlock, SetTimeCorrectionConfigTelecommand.apid]
    refine ⟨if surroundings.setLock then 0 else -2, [], _, hhandle, by decide, ?_⟩
    cases hlock : surroundings.setLock with
    | false => simp [OnboardState.setPart, LockablePersistentState.set, hlock, kind]
    | true => simp [OnboardState.setPart, LockablePersistentState.set, hlock, OnboardState.settings, Settings.after]

/-- The clock takes whole seconds of a day. -/
theorem targetTime_toNat {seconds : ℕ} (h : seconds < 86400) :
    ((BitVec.ofNat 32 seconds).setWidth 64 * 1000 : BitVec 64).toNat = seconds * 1000 := by
  have hseconds : ((BitVec.ofNat 32 seconds).setWidth 64).toNat = seconds := by
    rw [BitVec.toNat_setWidth, BitVec.toNat_ofNat]
    omega
  have hthousand : (1000 : BitVec 64).toNat = 1000 := rfl
  rw [BitVec.toNat_mul, hseconds, hthousand]
  exact Nat.mod_eq_of_lt (by omega)

theorem outcome_setTime (correlationId : Byte) {newTime : Timedelta} (hday : newTime.days = 0)
    (hobtains : GroundTelecommand.Obtains surroundings (.setTime correlationId newTime)) :
    Outcome (.setTime correlationId newTime) surroundings s := by
  obtain ⟨hsynchronization, htimer, hset, htime⟩ := hobtains
  obtain ⟨hid, h1⟩ := @payload_at correlationId (Redundancy.storeWord (BitVec.ofNat 32 newTime.seconds) ++ [])
    (by simp [Redundancy.storeWord])
  obtain ⟨hseconds, -⟩ := h1.readDoubleWordLE
  rw [List.append_nil] at hid hseconds
  obtain ⟨status, externalTime, hexternal⟩ : ∃ status externalTime,
      SetTimeTelecommand.externalTime surroundings s = some (status, externalTime) := by
    unfold SetTimeTelecommand.externalTime
    cases hrtc : surroundings.rtcTime with
    | some time => exact ⟨0, time, rfl⟩
    | none =>
      have hget : surroundings.getLock = true := by simpa [hrtc] using htime
      exact ⟨1, _, by simp [LockablePersistentState.get, hget]; rfl⟩
  have htarget := targetTime_toNat newTime.seconds_lt
  have hafter : (newTime.totalSeconds * 1000).toNat = newTime.seconds * 1000 := by
    rw [Timedelta.totalSeconds, hday]
    omega
  let target : BitVec 64 := (BitVec.ofNat 32 newTime.seconds).setWidth 64 * 1000
  let s' : OnboardState := { s with
    missionTime := target
    persistentState := ⟨⟨{ s.persistentState.state.parts with timeState := ⟨target, externalTime⟩ }, true⟩⟩ }
  refine ⟨status, [], s', ?_, by decide, ?_⟩
  · unfold kind SettingTelecommand.handle SetTimeTelecommand.handle GroundTelecommand.payload
    simp only [hid, hseconds, hsynchronization, htimer, hset, hexternal, OnboardState.setPart,
      LockablePersistentState.set, Bool.not_true, Bool.false_eq_true, if_false]
    rfl
  · simp only [OnboardState.settings, s', target, kind, decide_true, Bool.true_or, if_true, Settings.after, htarget,
      hafter]

theorem outcome_setBootSlots (correlationId primary failsafe : Byte) :
    Outcome (.setBootSlots correlationId primary failsafe) surroundings s := by
  obtain ⟨hid, h1⟩ := @payload_at correlationId ([primary] ++ ([failsafe] ++ [])) (by simp)
  obtain ⟨hprimary, h2⟩ := h1.readByte
  obtain ⟨hfailsafe, h3⟩ := h2.readByte
  have hstatus : (Reader.init [correlationId, primary, failsafe]).readByte.2.readByte.2.readByte.2.status = true :=
    h3.isValid
  simp only [List.cons_append, List.nil_append] at hid hprimary hfailsafe
  unfold Outcome kind SettingTelecommand.handle SetBootSlotsTelecommand.handle GroundTelecommand.payload
  simp only [hid, hprimary, hfailsafe, hstatus, Bool.not_true, Bool.false_eq_true, if_false]
  by_cases hvalid : BootSettings.isValidBootSlot primary = true
  · by_cases hvalid' : BootSettings.isValidBootSlot failsafe = true
    · simp only [hvalid, hvalid', Bool.not_true, Bool.false_eq_true, if_false]
      refine ⟨0, [_, _], _, rfl, (show 2 + 2 ≤ DownlinkFrame.maxPayloadSize by decide), ?_⟩
      simp only [beq_self_eq_true, Bool.or_true, if_true, OnboardState.settings, Settings.after,
        BootSettings.bootSlots_eq, BootSettings.failsafeBootSlots_eq, BootSettings.content_markAsValid,
        BootSettings.content_setFailsafeBootSlots, BootSettings.content_setBootSlots]
    · rw [Bool.not_eq_true] at hvalid'
      simp only [hvalid, hvalid', Bool.not_true, Bool.not_false, Bool.false_eq_true, if_true, if_false]
      exact ⟨0xE2, [], _, rfl, by decide, rfl⟩
  · rw [Bool.not_eq_true] at hvalid
    simp only [hvalid, Bool.not_false, if_true]
    exact ⟨0xE1, [], _, rfl, by decide, rfl⟩

/-- An empty message is refused, any other one needs the lock. -/
theorem outcome_setPeriodicMessage (correlationId intervalMinutes repeatCount : Byte) {message : List Byte}
    (hsize : message.length ≤ messageLength) (hset : message.length ≠ 0 → surroundings.setLock = true) :
    Outcome (.setPeriodicMessage correlationId intervalMinutes repeatCount message) surroundings s := by
  unfold messageLength at hsize
  obtain ⟨hid, h1⟩ := @payload_at correlationId ([intervalMinutes] ++ ([repeatCount] ++ message))
    (by simp only [List.length_append, List.length_cons, List.length_nil]; omega)
  obtain ⟨hinterval, h2⟩ := h1.readByte
  obtain ⟨hrepeat, h3⟩ := h2.readByte
  obtain ⟨r, hread, hr⟩ := h3.readToEnd
  have hstatus : r.status = true := hr.isValid
  simp only [List.cons_append, List.nil_append] at hid hinterval hrepeat hread
  unfold Outcome kind SettingTelecommand.handle SetPeriodicMessageTelecommand.handle GroundTelecommand.payload
  simp only [hid, hinterval, hrepeat, hread, hstatus, Bool.not_true, Bool.false_eq_true, false_or]
  by_cases hempty : message.length = 0
  · rw [if_pos hempty]
    exact ⟨1, [], _, rfl, by decide, rfl⟩
  · have hfits : message.length ≤ messageLength := hsize
    have hset := hset hempty
    rw [if_neg hempty, SetPeriodicMessageTelecommand.messageState, dif_pos hfits]
    refine ⟨0, [], _, rfl, by decide, ?_⟩
    have hinterval' : (intervalMinutes.setWidth 64).toNat = intervalMinutes.toNat := by
      rw [BitVec.toNat_setWidth]
      exact Nat.mod_eq_of_lt (by omega)
    simp only [beq_self_eq_true, Bool.or_true, if_true, OnboardState.settings, OnboardState.setPart,
      LockablePersistentState.set, hset, Bool.not_true, Bool.false_eq_true, if_false, Settings.after,
      MessageState.copy, List.drop_replicate, hinterval']

theorem outcome_stopSailDeployment (correlationId : Byte) :
    Outcome (.stopSailDeployment correlationId) surroundings s := by
  obtain ⟨hid, h1⟩ := @payload_at correlationId [] (by simp)
  have hstatus : (Reader.init [correlationId]).readByte.2.status = true := h1.isValid
  unfold Outcome kind SettingTelecommand.handle StopSailDeployment.handle GroundTelecommand.payload
  simp only [hid, hstatus, Bool.not_true, Bool.false_eq_true, if_false]
  cases hlock : surroundings.setLock with
  | false =>
    simp only [OnboardState.setPart, LockablePersistentState.set, hlock, Bool.not_false, if_true]
    exact ⟨-2, [], _, rfl, by decide, rfl⟩
  | true =>
    simp only [OnboardState.setPart, LockablePersistentState.set, hlock, Bool.not_true, Bool.false_eq_true, if_false]
    exact ⟨0, [], _, rfl, by decide, rfl⟩

/-! ## The loop over the devices -/

section

open SetErrorCounterConfig

variable {r : Reader} {parameters : List Byte}

/-- A reader at its end reads no more. -/
theorem status_of_at_nil (h : r.At []) (hbuffer : r.buffer = parameters) (hne : parameters ≠ [])
    (hsmall : parameters.length + 4 < 2 ^ 16) : r.readByte.2.readByte.2.readByte.2.readByte.2.status = false := by
  have hposition := h.position
  rw [List.length_nil, Nat.add_zero, hbuffer] at hposition
  have h0 : r.Consumed parameters parameters.length :=
    ⟨hbuffer, fun _ => hposition, fun _ => ⟨hne, le_rfl⟩, fun _ => h.isValid⟩
  have h1 := h0.updateState (n := 1) (by omega)
  have h2 := h1.updateState (n := 1) (by omega)
  have h3 := h2.updateState (n := 1) (by omega)
  exact (h3.updateState (n := 1) (by omega)).status_eq_false (by omega)

/-- **The loop takes all configurations**, in their order. -/
theorem setAll_configs {configs : List Entry} (hfits : ∀ c ∈ configs, c.device.toNat < maxDevices)
    (h : r.At (configs.flatMap GroundTelecommand.pack)) (hbuffer : r.buffer = parameters) (hne : parameters ≠ [])
    (hsmall : parameters.length + 4 < 2 ^ 16) {fuel : ℕ} (hfuel : configs.length < fuel) (response : List Byte)
    (configuration : Vector (BitVec 32) maxDevices) :
    setAll fuel r response configuration =
      some (response ++ configs.map (·.device), configs.foldl Entry.apply configuration) := by
  induction configs generalizing r fuel response configuration with
  | nil =>
    obtain ⟨fuel, rfl⟩ : ∃ k, fuel = k + 1 := ⟨fuel - 1, by omega⟩
    have hstatus := status_of_at_nil h hbuffer hne hsmall
    rw [setAll]
    dsimp only
    rw [hstatus]
    simp
  | cons c configs ih =>
    obtain ⟨fuel, rfl⟩ : ∃ k, fuel = k + 1 := ⟨fuel - 1, by omega⟩
    have hfour : r.At ([c.device] ++ ([c.limit] ++ ([c.increment] ++ ([c.decrement] ++
        configs.flatMap GroundTelecommand.pack)))) := h
    obtain ⟨hdevice, h1⟩ := hfour.readByte
    obtain ⟨hlimit, h2⟩ := h1.readByte
    obtain ⟨hincrement, h3⟩ := h2.readByte
    obtain ⟨hdecrement, h4⟩ := h3.readByte
    have hbuffer4 : r.readByte.2.readByte.2.readByte.2.readByte.2.buffer = parameters :=
      (h3.updateState (n := 1) rfl).2.2.trans ((h2.updateState (n := 1) rfl).2.2.trans
        ((h1.updateState (n := 1) rfl).2.2.trans ((hfour.updateState (n := 1) rfl).2.2.trans hbuffer)))
    have hstatus : r.readByte.2.readByte.2.readByte.2.readByte.2.status = true := h4.isValid
    have hlt := hfits c List.mem_cons_self
    have hfuel' : configs.length < fuel := by
      rw [List.length_cons] at hfuel
      omega
    have ih := ih (fun c' hc' => hfits c' (List.mem_cons_of_mem c hc')) h4 hbuffer4 hfuel'
    rw [setAll]
    dsimp only
    rw [hstatus, Bool.not_true, if_neg Bool.false_ne_true, hdevice, hlimit, hincrement, hdecrement,
      if_neg (by omega), dif_pos hlt, ih, List.foldl_cons, Entry.apply, dif_pos hlt, List.append_assoc]
    rfl

theorem ratesOf_apply {c : Entry} (hlt : c.device.toNat < maxDevices) (configuration : Vector (BitVec 32) maxDevices) :
    Fdir.ratesOf (c.apply configuration) = fun d =>
      if d.val = c.device.toNat then ⟨c.limit, c.increment, c.decrement⟩ else Fdir.ratesOf configuration d := by
  rw [Entry.apply, dif_pos hlt]
  have hset := Fdir.ratesOf_set configuration ⟨c.device.toNat, hlt⟩ c.limit c.increment c.decrement
  refine hset.trans ?_
  funext d
  by_cases hd : d.val = c.device.toNat
  · obtain rfl : d = ⟨c.device.toNat, hlt⟩ := Fin.ext hd
    rw [Function.update_self, if_pos rfl]
  · rw [Function.update_of_ne (fun h => hd (congrArg Fin.val h)), if_neg hd]

theorem ratesOf_foldl {configs : List Entry} (hfits : ∀ c ∈ configs, c.device.toNat < maxDevices)
    (configuration : Vector (BitVec 32) maxDevices) :
    Fdir.ratesOf (configs.foldl Entry.apply configuration) = configs.foldl (fun rates c d =>
      if d.val = c.device.toNat then ⟨c.limit, c.increment, c.decrement⟩ else rates d)
      (Fdir.ratesOf configuration) := by
  induction configs generalizing configuration with
  | nil => rfl
  | cons c configs ih =>
    rw [List.foldl_cons, List.foldl_cons, ih fun c' hc' => hfits c' (List.mem_cons_of_mem c hc'),
      ratesOf_apply (hfits c List.mem_cons_self)]

theorem length_flatMap_pack (configs : List Entry) :
    (configs.flatMap GroundTelecommand.pack).length = 4 * configs.length := by
  induction configs with
  | nil => rfl
  | cons c configs ih =>
    rw [List.flatMap_cons, List.length_append, ih, List.length_cons, GroundTelecommand.pack]
    simp only [List.length_cons, List.length_nil]
    omega

end

theorem outcome_setErrorCounterConfig (correlationId : Byte) {configs : List SetErrorCounterConfig.Entry}
    (hfits : ∀ c ∈ configs, c.device.toNat < maxDevices)
    (hsize : (GroundTelecommand.payload (.setErrorCounterConfig correlationId configs)).length ≤
      UploadSoftware.maxPayloadSize) :
    Outcome (.setErrorCounterConfig correlationId configs) surroundings s := by
  have hlength := length_flatMap_pack configs
  unfold UploadSoftware.maxPayloadSize at hsize
  rw [GroundTelecommand.payload, List.length_cons, hlength] at hsize
  obtain ⟨hid, h1⟩ := @payload_at correlationId (configs.flatMap GroundTelecommand.pack) (by omega)
  have hstatus : (Reader.init (correlationId :: configs.flatMap GroundTelecommand.pack)).readByte.2.status = true :=
    h1.isValid
  have hbuffer : (Reader.init (correlationId :: configs.flatMap GroundTelecommand.pack)).readByte.2.buffer =
      correlationId :: configs.flatMap GroundTelecommand.pack := by
    have h0 : (Reader.init (correlationId :: configs.flatMap GroundTelecommand.pack)).At
        ([correlationId] ++ configs.flatMap GroundTelecommand.pack) :=
      Reader.at_init (by simp) (by rw [List.length_cons, hlength]; omega)
    exact (h0.updateState (n := 1) rfl).2.2
  have hfuel : configs.length < (correlationId :: configs.flatMap GroundTelecommand.pack).length := by
    rw [List.length_cons, hlength]
    omega
  have hall := setAll_configs hfits h1 hbuffer (by simp) (by rw [List.length_cons, hlength]; omega) hfuel
    [correlationId, 0] s.errorCounters
  unfold Outcome kind SettingTelecommand.handle SetErrorCounterConfig.handle GroundTelecommand.payload
  simp only [hid, hstatus, hall, Bool.not_true, Bool.false_eq_true, if_false]
  refine ⟨0, configs.map (·.device), _, rfl, ?_, ?_⟩
  · rw [List.length_map, DownlinkFrame.maxPayloadSize, maxDownlinkFrameSize, DownlinkFrame.headerSize]
    omega
  · simp only [OnboardState.settings, beq_self_eq_true, Bool.or_true, if_true, Settings.after, ratesOf_foldl hfits]

/-- **All telecommands** of the ground end so. -/
theorem outcome (tc : GroundTelecommand) (hsize : tc.payload.length ≤ UploadSoftware.maxPayloadSize) (hfits : tc.Fits)
    (hobtains : tc.Obtains surroundings) : Outcome tc surroundings s := by
  cases tc with
  | setTimeCorrectionConfig correlationId missionTimeWeight externalTimeWeight =>
    exact outcome_setTimeCorrectionConfig correlationId missionTimeWeight externalTimeWeight
  | setTime correlationId newTime => exact outcome_setTime correlationId hfits hobtains
  | setErrorCounterConfig correlationId configs => exact outcome_setErrorCounterConfig correlationId hfits hsize
  | setBootSlots correlationId primary failsafe => exact outcome_setBootSlots correlationId primary failsafe
  | setPeriodicMessage correlationId intervalMinutes repeatCount message =>
    refine outcome_setPeriodicMessage correlationId intervalMinutes repeatCount ?_ fun _ => hobtains
    unfold UploadSoftware.maxPayloadSize at hsize
    rw [GroundTelecommand.payload, List.length_cons, List.length_cons, List.length_cons] at hsize
    rw [messageLength]
    omega
  | stopSailDeployment correlationId => exact outcome_stopSailDeployment correlationId

/-! ## Runs -/

variable {l l' : GroundLink} {e : GroundLinkEvent} {es : List GroundLinkEvent}

/-- Telecommands whose arguments are well chosen and whose operations succeed where the ground does not
look, and frames without the security code. -/
def Proper (securityCode : BitVec 32) (_ : GroundLink) : GroundLinkEvent → Prop
  | .send tc surroundings _ _ =>
    tc.payload.length ≤ UploadSoftware.maxPayloadSize ∧ tc.Fits ∧ tc.Obtains surroundings
  | .other content _ => ¬ Authenticated securityCode content ∧ content.length < 2 ^ 16

/-- The settings come from telecommands that have been sent, with all that are acknowledged among them. -/
def Follows (settings : Settings) (l : GroundLink) : Prop :=
  ∃ done, l.acknowledged.Sublist done ∧ done.Sublist l.sent ∧ l.onboard.settings = done.foldl Settings.after settings

/-- A telecommand that arrives: it is done and its response says so, or neither. -/
theorem step_arrives {tc : GroundTelecommand} (houtcome : Outcome tc surroundings l.onboard)
    (hsize : tc.payload.length ≤ UploadSoftware.maxPayloadSize) (heard : Bool) :
    ∃ onboard accepted, l.step securityCode (.send tc surroundings true heard) =
        some ⟨onboard, l.sent ++ [tc], l.acknowledged ++ if heard && accepted then [tc] else []⟩ ∧
      onboard.settings = if accepted then l.onboard.settings.after tc else l.onboard.settings := by
  obtain ⟨status, rest, onboard, hhandle, hrest, hsettings⟩ := houtcome
  refine ⟨onboard, decide (kind tc = .setTime) || status == 0, ?_, hsettings⟩
  rw [step, if_pos rfl, receive_build tc hsize, hhandle]
  dsimp only
  rw [accepts_responseFrame tc status _ hrest]

theorem Follows.step {settings : Settings} (h : Follows settings l) {e : GroundLinkEvent}
    (hproper : Proper securityCode l e) (hs : l.step securityCode e = some l') : Follows settings l' := by
  obtain ⟨done, hacknowledged, hsent, hsettings⟩ := h
  cases e with
  | send tc surroundings arrives heard =>
    obtain ⟨hsize, hfits, hobtains⟩ := hproper
    cases arrives with
    | false =>
      obtain rfl := Option.some.inj hs
      exact ⟨done, hacknowledged, hsent.trans (List.sublist_append_left _ _), hsettings⟩
    | true =>
      obtain ⟨onboard, accepted, hstep, hafter⟩ := @step_arrives securityCode _ l _
        (outcome tc hsize hfits hobtains) hsize heard
      obtain rfl := Option.some.inj (hstep.symm.trans hs)
      cases accepted with
      | true =>
        refine ⟨done ++ [tc], ?_, hsent.append (List.Sublist.refl _), ?_⟩
        · cases heard with
          | true => exact hacknowledged.append (List.Sublist.refl _)
          | false => simpa using hacknowledged.trans (List.sublist_append_left _ _)
        · rw [List.foldl_append, ← hsettings]
          exact hafter
      | false =>
        refine ⟨done, by simpa using hacknowledged, hsent.trans (List.sublist_append_left _ _), ?_⟩
        exact hafter.trans hsettings
  | other content surroundings =>
    obtain ⟨hcode, hsmall⟩ := hproper
    rw [GroundLink.step, receive_other hcode hsmall] at hs
    obtain rfl := Option.some.inj hs
    exact ⟨done, hacknowledged, hsent, hsettings⟩

/-- The response to a telecommand that arrives is heard. -/
def Heard : GroundLinkEvent → Prop
  | .send _ _ _ heard => heard = true
  | .other _ _ => True

theorem settings_step (hheard : Heard e) (hproper : Proper securityCode l e)
    (hs : l.step securityCode e = some l') {settings : Settings}
    (h : l.onboard.settings = l.acknowledged.foldl Settings.after settings) :
    l'.onboard.settings = l'.acknowledged.foldl Settings.after settings := by
  cases e with
  | send tc surroundings arrives heard =>
    obtain ⟨hsize, hfits, hobtains⟩ := hproper
    obtain rfl : heard = true := hheard
    cases arrives with
    | false =>
      obtain rfl := Option.some.inj hs
      exact h
    | true =>
      obtain ⟨onboard, accepted, hstep, hafter⟩ := @step_arrives securityCode _ l _
        (outcome tc hsize hfits hobtains) hsize true
      obtain rfl := Option.some.inj (hstep.symm.trans hs)
      refine hafter.trans ?_
      cases accepted with
      | true => simp [List.foldl_append, h]
      | false => simpa using h
  | other content surroundings =>
    obtain ⟨hcode, hsmall⟩ := hproper
    rw [GroundLink.step, receive_other hcode hsmall] at hs
    obtain rfl := Option.some.inj hs
    exact h

/-- Nothing that arrives ends the program. -/
theorem exists_step (hproper : Proper securityCode l e) : ∃ l', l.step securityCode e = some l' := by
  cases e with
  | send tc surroundings arrives heard =>
    obtain ⟨hsize, hfits, hobtains⟩ := hproper
    cases arrives with
    | false => exact ⟨_, rfl⟩
    | true =>
      obtain ⟨onboard, accepted, hstep, -⟩ := @step_arrives securityCode _ l _
        (outcome tc hsize hfits hobtains) hsize heard
      exact ⟨_, hstep⟩
  | other content surroundings =>
    obtain ⟨hcode, hsmall⟩ := hproper
    exact ⟨l, by rw [GroundLink.step, receive_other hcode hsmall]⟩

/-- **The settings follow the ground.** Whatever is lost on the way and whatever others send, the settings
are those of telecommands that the ground has sent, one after another, and all that it takes for successful
are among them; they are exactly these if each response is heard. And nothing that arrives ends the
program. -/
theorem settings_follow {onboard : OnboardState}
    (hrun : Run (step securityCode) (Proper securityCode) ⟨onboard, [], []⟩ es l) :
    (∃ done, l.acknowledged.Sublist done ∧ done.Sublist l.sent ∧
        l.onboard.settings = done.foldl Settings.after onboard.settings) ∧
      ((∀ e ∈ es, Heard e) → l.onboard.settings = l.acknowledged.foldl Settings.after onboard.settings) ∧
      ∀ e, Proper securityCode l e → ∃ l', l.step securityCode e = some l' := by
  have hfollows : Follows onboard.settings l :=
    hrun.inv ⟨[], List.Sublist.refl _, List.Sublist.refl _, rfl⟩ fun _ _ _ hI hproper hs => hI.step hproper hs
  refine ⟨hfollows, ?_, fun e hproper => exists_step hproper⟩
  refine Run.inv_trace (I := fun es l => (∀ e ∈ es, Heard e) →
    l.onboard.settings = l.acknowledged.foldl Settings.after onboard.settings) ?_ ?_ hrun
  · intro _
    rfl
  · intro es l e l' hI hproper hs hheard
    exact settings_step (hheard e (by simp)) hproper hs (hI fun e' he' => hheard e' (by simp [he']))

/-- The limits of two devices, a frame that is too short, and the weights of the clocks. -/
theorem settings_follow_example : ∃ (es : List GroundLinkEvent) (l : GroundLink), es.length = 3 ∧
    Run (step 0xBBCCDDEE) (Proper 0xBBCCDDEE) ⟨sampleState, [], []⟩ es l ∧
    l.onboard.settings = l.acknowledged.foldl Settings.after sampleState.settings := by
  let configs : List SetErrorCounterConfig.Entry := [⟨0, 137, 7, 3⟩, ⟨2, 96, 0, 4⟩]
  let limits : GroundLinkEvent := .send (.setErrorCounterConfig 0x21 configs) sampleSurroundings true true
  let noise : GroundLinkEvent := .other [1, 2, 3] sampleSurroundings
  let weights : GroundLinkEvent := .send (.setTimeCorrectionConfig 0x22 3 1) sampleSurroundings true true
  have hconfigs : GroundTelecommand.Fits (.setErrorCounterConfig 0x21 configs) := by
    simp [GroundTelecommand.Fits, configs, maxDevices]
  have hlimits : ∀ l, Proper 0xBBCCDDEE l limits := fun _ => ⟨by decide, hconfigs, trivial⟩
  have hnoise : ∀ l, Proper 0xBBCCDDEE l noise := fun _ => ⟨fun h => absurd h.1 (by decide), by decide⟩
  have hweights : ∀ l, Proper 0xBBCCDDEE l weights := fun _ => ⟨by decide, trivial, trivial⟩
  obtain ⟨l₁, h₁⟩ := exists_step (hlimits ⟨sampleState, [], []⟩)
  obtain ⟨l₂, h₂⟩ := exists_step (hnoise l₁)
  obtain ⟨l₃, h₃⟩ := exists_step (hweights l₂)
  have hrun := ((Run.nil.snoc (hlimits _) h₁).snoc (hnoise _) h₂).snoc (hweights _) h₃
  refine ⟨_, l₃, rfl, hrun, (settings_follow hrun).2.1 ?_⟩
  intro e he
  simp only [List.nil_append, List.cons_append, List.mem_cons, List.not_mem_nil, or_false] at he
  rcases he with rfl | rfl | rfl
  · rfl
  · trivial
  · rfl

/-! ## What the ground cannot see -/

/-- A telecommand taken for successful has done what it is meant to do, wherever it arrives. -/
def Honest (securityCode : BitVec 32) (tc : GroundTelecommand) : Prop :=
  ∀ (l l' : GroundLink) (surroundings : Surroundings),
    l.step securityCode (.send tc surroundings true true) = some l' →
    l'.acknowledged = l.acknowledged ++ [tc] → l'.onboard.settings = l.onboard.settings.after tc

/-- A response that is taken for a success although nothing has changed. -/
theorem not_honest {tc : GroundTelecommand} (hsize : tc.payload.length ≤ UploadSoftware.maxPayloadSize)
    {status : Byte} (hstatus : kind tc = .setTime ∨ status = 0)
    (hhandle : (kind tc).handle surroundings s tc.payload =
      (.frame (BitVec.ofNat 8 tc.responseApid) [tc.correlationId, status], s))
    (hne : s.settings ≠ s.settings.after tc) : ¬ Honest securityCode tc := by
  intro hhonest
  have haccepts := accepts_responseFrame tc status [] (by decide)
  have htrue : (decide (kind tc = .setTime) || status == 0) = true := by
    rcases hstatus with h | rfl
    · rw [decide_eq_true h, Bool.true_or]
    · rw [beq_self_eq_true, Bool.or_true]
  have hstep : (⟨s, [], []⟩ : GroundLink).step securityCode (.send tc surroundings true true) =
      some ⟨s, [tc], [tc]⟩ := by
    rw [step, if_pos rfl, receive_build tc hsize, hhandle]
    dsimp only
    rw [haccepts, htrue]
    rfl
  exact hne (hhonest _ _ surroundings hstep rfl)

/-- One that ends as it should is. -/
theorem honest_of_outcome {tc : GroundTelecommand} (hsize : tc.payload.length ≤ UploadSoftware.maxPayloadSize)
    (houtcome : ∀ surroundings s, Outcome tc surroundings s) : Honest securityCode tc := by
  intro l l' surroundings hs hacknowledged
  obtain ⟨onboard, accepted, hstep, hafter⟩ := @step_arrives securityCode surroundings l _
    (houtcome surroundings l.onboard) hsize true
  obtain rfl := Option.some.inj (hstep.symm.trans hs)
  cases accepted with
  | true => exact hafter
  | false =>
    have hlength := congrArg List.length hacknowledged
    simp at hlength

/-- The clock of the sample stands at no whole second. -/
theorem not_honest_setTime (securityCode : BitVec 32) (correlationId : Byte) (newTime : Timedelta) :
    ¬ Honest securityCode (.setTime correlationId newTime) := by
  obtain ⟨hid, -⟩ := @payload_at correlationId (Redundancy.storeWord (BitVec.ofNat 32 newTime.seconds))
    (by simp [Redundancy.storeWord])
  apply @not_honest securityCode { sampleSurroundings with timeSynchronization := false } sampleState _
    (by simp [GroundTelecommand.payload, Redundancy.storeWord, UploadSoftware.maxPayloadSize]) (-4) (Or.inl rfl)
  · unfold kind SettingTelecommand.handle SetTimeTelecommand.handle GroundTelecommand.payload
    simp only [hid, Bool.not_false, if_true]
    rfl
  · intro hsame
    have htime : (1 : ℕ) = (newTime.totalSeconds * 1000).toNat := congrArg Settings.missionTime hsame
    omega

/-- The message of the sample has another count. -/
theorem not_honest_setPeriodicMessage (securityCode : BitVec 32) (correlationId intervalMinutes repeatCount : Byte)
    {message : List Byte} (hmessage : message.length ≠ 0)
    (hsize : (GroundTelecommand.payload (.setPeriodicMessage correlationId intervalMinutes repeatCount message)).length ≤
      UploadSoftware.maxPayloadSize) :
    ¬ Honest securityCode (.setPeriodicMessage correlationId intervalMinutes repeatCount message) := by
  have hlength : message.length + 3 ≤ 195 := hsize
  obtain ⟨hid, h1⟩ := @payload_at correlationId ([intervalMinutes] ++ ([repeatCount] ++ message))
    (by simp only [List.length_append, List.length_cons, List.length_nil]; omega)
  obtain ⟨hinterval, h2⟩ := h1.readByte
  obtain ⟨hrepeat, h3⟩ := h2.readByte
  obtain ⟨r, hread, hr⟩ := h3.readToEnd
  have hstatus : r.status = true := hr.isValid
  simp only [List.cons_append, List.nil_append] at hid hinterval hrepeat hread
  have hfits : message.length ≤ messageLength := by
    rw [messageLength]
    omega
  let parts : Parts := { Parts.init with messageState := { MessageState.init with repeatCount := repeatCount + 1 } }
  apply @not_honest securityCode { sampleSurroundings with setLock := false }
    { sampleState with persistentState := ⟨⟨parts, false⟩⟩ } _ hsize 0 (Or.inr rfl)
  · unfold kind SettingTelecommand.handle SetPeriodicMessageTelecommand.handle GroundTelecommand.payload
    simp only [hid, hinterval, hrepeat, hread, hstatus, Bool.not_true, Bool.false_eq_true, false_or]
    rw [if_neg hmessage, SetPeriodicMessageTelecommand.messageState, dif_pos hfits]
    rfl
  · intro hsame
    have hcount : repeatCount + 1 = repeatCount := congrArg (fun settings => settings.periodicMessage.2.1) hsame
    have hnext : ∀ byte : Byte, byte + 1 ≠ byte := by decide
    exact hnext repeatCount hcount

/-- **Which acknowledgements are worth something**: all but those of `SetTime`, whose error frames the
ground cannot tell from the others, and those of a periodic message, for which the handler does not look
whether it has been set. -/
theorem honest_iff (securityCode : BitVec 32) (tc : GroundTelecommand)
    (hsize : tc.payload.length ≤ UploadSoftware.maxPayloadSize) (hfits : tc.Fits) :
    Honest securityCode tc ↔ kind tc ≠ .setTime ∧ (kind tc = .setPeriodicMessage → tc.payload.length = 3) := by
  cases tc with
  | setTime correlationId newTime =>
    exact iff_of_false (not_honest_setTime securityCode correlationId newTime) fun h => h.1 rfl
  | setPeriodicMessage correlationId intervalMinutes repeatCount message =>
    have hlength : (GroundTelecommand.payload
        (.setPeriodicMessage correlationId intervalMinutes repeatCount message)).length = message.length + 3 := rfl
    by_cases hmessage : message.length = 0
    · refine iff_of_true (honest_of_outcome hsize fun surroundings s => ?_)
        ⟨fun h => SettingTelecommand.noConfusion h, fun _ => by rw [hlength, hmessage]⟩
      exact outcome_setPeriodicMessage correlationId intervalMinutes repeatCount (by omega)
        fun hne => absurd hmessage hne
    · refine iff_of_false (not_honest_setPeriodicMessage securityCode correlationId intervalMinutes repeatCount
        hmessage hsize) fun h => ?_
      have hthree := h.2 rfl
      omega
  | _ =>
    exact iff_of_true (honest_of_outcome hsize fun surroundings s => outcome _ hsize hfits trivial)
      ⟨fun h => SettingTelecommand.noConfusion h, fun h => SettingTelecommand.noConfusion h⟩

theorem honest_setBootSlots : Honest 0xBBCCDDEE (.setBootSlots 1 0b111 0b111000) :=
  (honest_iff 0xBBCCDDEE (.setBootSlots 1 0b111 0b111000) (by decide) trivial).2 ⟨by decide, by decide⟩

end GroundLink

end PWSat2OBC
