import Mathlib.Data.List.TakeWhile
import PWSat2OBC.Spec.ExperimentTelecommands

/-!
# Parameters of the experiments

* `SunSExperiment.step_uses` and its likes: the parameters a run uses are those the
  experiment object holds.
* `specifies_sunS` and its likes: if the object holds what the setters stored, and nothing was cut
  off, these are the parameters of the telecommand.
* `holds_setup`, `Holds.setup`: what the setters change and what they leave.
-/

namespace PWSat2OBC

/-! ## Well-formed telecommands -/

/-- What every handler has checked when it accepts a frame. -/
def ExperimentParams.WellRead : ExperimentParams → Prop
  | .sunS _ name | .radFET _ _ name | .payloadCommissioning name | .cameraCommissioning name =>
    0 ∉ name ∧ name.length ≤ 30
  | .copyBootSlots source _ => popcount source = 3
  | .detumbling .. => True

theorem Reader.readString_spec (r : Reader) (n : ℕ) :
    0 ∉ (r.readString n).1 ∧ (r.readString n).1.length ≤ n := by
  unfold readString
  constructor
  · intro h
    have := List.mem_takeWhile_imp h
    simp at this
  · have h1 := (List.takeWhile_sublist (fun b : Byte => decide (b ≠ 0))
      (l := (r.buffer.drop r.position).take n)).length_le
    have h2 := List.length_take_le n (r.buffer.drop r.position)
    exact h1.trans h2

/-- **Accepted parameters are well formed**, and of the kind of their handler. -/
theorem ExperimentKind.read_spec {kind : ExperimentKind} {parameters : List Byte} {p : ExperimentParams}
    (h : (kind.read parameters).2 = some p) : p.kind = kind ∧ p.WellRead := by
  cases kind with
  | detumbling =>
    simp only [read, PerformDetumblingExperiment.read] at h
    split_ifs at h
    obtain rfl := Option.some.inj h
    exact ⟨rfl, trivial⟩
  | sunS =>
    simp only [read, PerformSunSExperiment.read] at h
    split_ifs at h
    obtain rfl := Option.some.inj h
    exact ⟨rfl, Reader.readString_spec _ _⟩
  | radFET =>
    simp only [read, PerformRadFETExperiment.read] at h
    split_ifs at h
    obtain rfl := Option.some.inj h
    exact ⟨rfl, Reader.readString_spec _ _⟩
  | payloadCommissioning =>
    simp only [read, PerformPayloadCommisioningExperiment.read, readOutputFile] at h
    split_ifs at h
    obtain rfl := Option.some.inj h
    exact ⟨rfl, Reader.readString_spec _ _⟩
  | cameraCommissioning =>
    simp only [read, PerformCameraCommisioningExperiment.read, readOutputFile] at h
    split_ifs at h
    obtain rfl := Option.some.inj h
    exact ⟨rfl, Reader.readString_spec _ _⟩
  | copyBootSlots =>
    simp only [read, PerformCopyBootSlotsExperiment.read] at h
    split_ifs at h with hbad
    obtain rfl := Option.some.inj h
    simp only [Bool.or_eq_true, decide_eq_true_eq, not_or, not_not] at hbad
    exact ⟨rfl, hbad.1.1.2⟩

/-- Nothing in the telecommand is cut off when it is stored: the name fits its buffer, and
the masks name existing slots only. -/
def ExperimentParams.fits : ExperimentParams → Bool
  | .sunS _ name | .payloadCommissioning name | .cameraCommissioning name => name.length ≤ 29
  | .copyBootSlots source target => source < 64 && target < 64
  | .detumbling .. | .radFET .. => true

theorem strsafecpy_eq {n : ℕ} {name : FileName} (h0 : 0 ∉ name) (hn : name.length ≤ n - 1) :
    strsafecpy n name = name := by
  unfold strsafecpy
  have h : name.takeWhile (· ≠ 0) = name := by
    rw [List.takeWhile_eq_self_iff]
    intro b hb
    have : b ≠ 0 := fun h => h0 (h ▸ hb)
    simpa using this
  rw [h, List.take_of_length_le hn]

/-- The slots a mask names. -/
def slotsOf (mask : Byte) : List Byte := ((List.range 8).filter mask.getLsbD).map (BitVec.ofNat 8)

theorem toSlotNumbers_eq {mask : Byte} (h3 : popcount mask = 3) (h6 : mask < 64) :
    CopyBootSlotsExperiment.toSlotNumbers (mask.setWidth 6) = slotsOf mask := by
  revert mask
  decide +kernel

/-! ## What the objects hold -/

/-- The objects hold the parameters `p`, as the setters store them. -/
def ExperimentObjects.Holds (o : ExperimentObjects) : ExperimentParams → Prop
  | .detumbling duration interval =>
    o.detumbling.duration = duration ∧ o.detumbling.sampleRate = interval
  | .sunS params name =>
    o.sunS.parameters = params ∧ o.sunS.primaryFileName = strsafecpy 30 name ∧
      o.sunS.secondaryFileName = strsafecpy 30 name ++ SunSExperiment.secondarySuffix
  | .radFET delay count name =>
    o.radFET.delay = delay ∧ o.radFET.samplesCount = count ∧
      o.radFET.outputFileName = strsafecpy 40 name
  | .payloadCommissioning name => o.payload.fileName = strsafecpy 30 name
  | .cameraCommissioning name => o.camera.fileName = strsafecpy 30 name
  | .copyBootSlots source target =>
    o.copyBootSlots.sourceEntries = source.setWidth 6 ∧ o.copyBootSlots.targetEntries = target.setWidth 6

/-- Only the progress of the experiments differs. -/
structure SameParameters (o o' : ExperimentObjects) : Prop where
  duration : o'.detumbling.duration = o.detumbling.duration
  sampleRate : o'.detumbling.sampleRate = o.detumbling.sampleRate
  sunS : o'.sunS.parameters = o.sunS.parameters
  primary : o'.sunS.primaryFileName = o.sunS.primaryFileName
  secondary : o'.sunS.secondaryFileName = o.sunS.secondaryFileName
  delay : o'.radFET.delay = o.radFET.delay
  count : o'.radFET.samplesCount = o.radFET.samplesCount
  output : o'.radFET.outputFileName = o.radFET.outputFileName
  payload : o'.payload.fileName = o.payload.fileName
  camera : o'.camera.fileName = o.camera.fileName
  copy : o'.copyBootSlots = o.copyBootSlots

namespace ExperimentObjects

variable {o o' : ExperimentObjects} {p q : ExperimentParams}

theorem holds_congr (h : SameParameters o o') : o'.Holds p ↔ o.Holds p := by
  obtain ⟨h1, h2, h3, h4, h5, h6, h7, h8, h9, h10, h11⟩ := h
  cases p <;> simp only [Holds, h1, h2, h3, h4, h5, h6, h7, h8, h9, h10, h11]

theorem setupRest_congr (h : SameParameters o o') : SameParameters (o.setupRest p) (o'.setupRest p) := by
  obtain ⟨h1, h2, h3, h4, h5, h6, h7, h8, h9, h10, h11⟩ := h
  cases p <;> constructor <;> simp only [setupRest] <;> assumption

/-- **The two setters store the parameters.** -/
theorem holds_setup : ((o.setup p).setupRest p).Holds p := by
  cases p <;> simp [setup, setupRest, Holds]

/-- If two states hold `q`, they agree on the parameters of its kind. -/
theorem holds_iff_of_holds (h : o.Holds q) (h' : o'.Holds q) (hk : p.kind = q.kind) :
    o.Holds p ↔ o'.Holds p := by
  cases p <;> cases q <;> simp only [ExperimentParams.kind, reduceCtorEq] at hk <;> simp_all only [Holds]

/-- They leave the other experiments alone. -/
theorem Holds.setup (h : o.Holds p) (hk : p.kind ≠ q.kind) : (o.setup q).Holds p := by
  cases p <;> cases q <;> first
    | exact absurd rfl hk
    | exact h

theorem Holds.setupRest (h : o.Holds p) (hk : p.kind ≠ q.kind) : (o.setupRest q).Holds p := by
  cases p <;> cases q <;> first
    | exact absurd rfl hk
    | exact h

end ExperimentObjects

/-! ## What the runs use -/

theorem DetumblingExperiment.step_uses {o : DetumblingExperiment} {pc : Pc} {answer : Option ℕ} {u : Use}
    (h : (o.step pc answer).use = some u) : u = .duration o.duration ∨ u = .sampleRate o.sampleRate := by
  cases pc <;> cases answer <;> simp only [step, reduceCtorEq, Option.some.injEq] at h
  all_goals subst h
  all_goals first
    | exact Or.inl rfl
    | exact Or.inr rfl

/-- What a run of the sun sensor experiment may use. -/
inductive SunSExperiment.Uses (o : SunSExperiment) : Use → Prop
  | sessionsCount : Uses o (.sessionsCount o.parameters.samplingSessionsCount)
  | samplesCount : Uses o (.samplesCount o.parameters.samplesCount)
  | delay : Uses o (.delay o.parameters.shortDelay)
  | measurement : Uses o (.measurement o.parameters.gain o.parameters.itime)
  | longDelay : Uses o (.longDelay o.parameters.longDelay)
  | outputFile : Uses o (.outputFile o.primaryFileName)
  | secondaryFile : Uses o (.secondaryFile o.secondaryFileName)
  | sessionAt : Uses o (.sessionAt o.nextSessionBy)

theorem SunSExperiment.step_uses {o : SunSExperiment} {request : ℕ} {pc : Pc} {answer : Option ℕ} {u : Use}
    (h : (o.step request pc answer).use = some u) : o.Uses u := by
  cases pc with
  | iteration =>
    cases answer with
    | none => simp [step] at h
    | some t =>
      simp only [step] at h
      split_ifs at h
      obtain rfl := Option.some.inj h
      exact .sessionAt
  | sessionEnd => simp [step] at h
  | _ =>
    simp only [step, Option.some.injEq] at h
    subst h
    constructor

/-- A session is put off at its time check, if the time is too early. -/
theorem SunSExperiment.step_sessionAt {o : SunSExperiment} {request : ℕ} {pc : Pc} {answer : Option ℕ}
    {setBy : Option ℕ} (h : (o.step request pc answer).use = some (.sessionAt setBy)) :
    setBy = o.nextSessionBy ∧ pc = .iteration ∧ ∃ time ∈ answer, time < o.nextSessionAt := by
  cases pc <;> simp only [step, reduceCtorEq, Option.some.injEq] at h
  cases answer with
  | none => simp at h
  | some time =>
    simp only at h
    split_ifs at h with ht
    simp only [Option.some.injEq, Use.sessionAt.injEq] at h
    exact ⟨h.symm, rfl, time, rfl, ht⟩

theorem RadFETExperiment.step_uses {o : RadFETExperiment} {pc : Pc} {answer : Option ℕ} {u : Use}
    (h : (o.step pc answer).use = some u) :
    u = .outputFile o.outputFileName ∨ u = .delay o.delay ∨ u = .samplesCount o.samplesCount := by
  cases pc <;> simp only [step, reduceCtorEq, Option.some.injEq] at h
  · exact Or.inl h.symm
  · exact Or.inr (Or.inl h.symm)
  · exact Or.inr (Or.inr h.symm)

theorem CommissioningExperiment.step_uses {dispatch : Byte → Next Pc} {o : CommissioningExperiment} {pc : Pc}
    {answer : Option ℕ} {u : Use} (h : (o.step dispatch pc answer).use = some u) :
    u = .outputFile o.fileName := by
  cases pc with
  | start => cases answer <;> exact (Option.some.inj h).symm
  | iteration => simp [step] at h
  | savePhoto i =>
    simp only [step] at h
    split_ifs at h
    obtain ⟨_, _, rfl⟩ := Option.map_eq_some_iff.1 h
    rfl

theorem CopyBootSlotsExperiment.step_uses {o : CopyBootSlotsExperiment} {pc : Pc} {answer : Option ℕ} {u : Use}
    (h : (o.step pc answer).use = some u) :
    u = .sources (toSlotNumbers o.sourceEntries) ∨ u = .targets o.targetEntries := by
  cases pc with
  | start => simp [step] at h
  | iteration => exact Or.inl (Option.some.inj h).symm
  | erase i =>
    simp only [step] at h
    split at h
    · exact Or.inr (Option.some.inj h).symm
    · simp at h
  | program offset i =>
    simp only [step] at h
    split_ifs at h
    exact Or.inr (Option.some.inj h).symm

/-! ## The parameters of the telecommand -/

/-- The use `u` in the run of `request` is one that the telecommand asked for. -/
def ExperimentParams.specifies (request : ℕ) : ExperimentParams → Use → Bool
  | .detumbling duration _, .duration d => d = duration
  | .detumbling _ interval, .sampleRate i => i = interval
  | .sunS params _, .sessionsCount n => n = params.samplingSessionsCount
  | .sunS params _, .samplesCount n => n = params.samplesCount
  | .sunS params _, .delay d => d = params.shortDelay
  | .sunS params _, .measurement gain itime => gain = params.gain ∧ itime = params.itime
  | .sunS params _, .longDelay d => d = params.longDelay
  | .sunS _ _, .sessionAt setBy => setBy = some request
  | .sunS _ name, .outputFile n => n = name
  | .sunS _ name, .secondaryFile n => n = name ++ SunSExperiment.secondarySuffix
  | .radFET delay _ _, .delay d => d = delay
  | .radFET _ count _, .samplesCount n => n = count
  | .radFET _ _ name, .outputFile n => n = name
  | .payloadCommissioning name, .outputFile n => n = name
  | .cameraCommissioning name, .outputFile n => n = name
  | .copyBootSlots source _, .sources slots => slots = slotsOf source
  | .copyBootSlots _ target, .targets mask => mask.setWidth 8 = target
  | _, _ => false

section Specifies

variable {o : ExperimentObjects} {p : ExperimentParams} {request : ℕ} {answer : Option ℕ} {u : Use}

theorem specifies_detumbling {pc : DetumblingExperiment.Pc} (h : o.Holds p) (hk : p.kind = .detumbling)
    (hu : (o.detumbling.step pc answer).use = some u) : p.specifies request u = true := by
  cases p <;> simp only [ExperimentParams.kind, reduceCtorEq] at hk
  obtain ⟨h1, h2⟩ := h
  rcases DetumblingExperiment.step_uses hu with rfl | rfl
  · simp [ExperimentParams.specifies, h1]
  · simp [ExperimentParams.specifies, h2]

theorem specifies_sunS {pc : SunSExperiment.Pc} (h : o.Holds p) (hk : p.kind = .sunS) (hr : p.WellRead)
    (hf : p.fits = true) (hu : (o.sunS.step request pc answer).use = some u)
    (hat : ∀ setBy, u = .sessionAt setBy → setBy = some request) : p.specifies request u = true := by
  cases p <;> simp only [ExperimentParams.kind, reduceCtorEq] at hk
  rename_i params name
  obtain ⟨h1, h2, h3⟩ := h
  have hname : strsafecpy 30 name = name := strsafecpy_eq hr.1 (of_decide_eq_true hf)
  rw [hname] at h2 h3
  cases SunSExperiment.step_uses hu with
  | outputFile => simp [ExperimentParams.specifies, h2]
  | secondaryFile => simp [ExperimentParams.specifies, h3]
  | sessionAt => simpa [ExperimentParams.specifies] using hat _ rfl
  | _ => simp [ExperimentParams.specifies, h1]

theorem specifies_radFET {pc : RadFETExperiment.Pc} (h : o.Holds p) (hk : p.kind = .radFET) (hr : p.WellRead)
    (hu : (o.radFET.step pc answer).use = some u) : p.specifies request u = true := by
  cases p <;> simp only [ExperimentParams.kind, reduceCtorEq] at hk
  rename_i delay count name
  obtain ⟨h1, h2, h3⟩ := h
  have hname : strsafecpy 40 name = name := strsafecpy_eq hr.1 (hr.2.trans (by omega))
  rcases RadFETExperiment.step_uses hu with rfl | rfl | rfl
  · simp [ExperimentParams.specifies, h3, hname]
  · simp [ExperimentParams.specifies, h1]
  · simp [ExperimentParams.specifies, h2]

theorem specifies_payload {dispatch : Byte → Next CommissioningExperiment.Pc}
    {pc : CommissioningExperiment.Pc} (h : o.Holds p) (hk : p.kind = .payloadCommissioning)
    (hr : p.WellRead) (hf : p.fits = true) (hu : (o.payload.step dispatch pc answer).use = some u) :
    p.specifies request u = true := by
  cases p <;> simp only [ExperimentParams.kind, reduceCtorEq] at hk
  rename_i name
  have hname : strsafecpy 30 name = name := strsafecpy_eq hr.1 (of_decide_eq_true hf)
  have h : o.payload.fileName = name := h.trans hname
  obtain rfl := CommissioningExperiment.step_uses hu
  simp [ExperimentParams.specifies, h]

theorem specifies_camera {dispatch : Byte → Next CommissioningExperiment.Pc}
    {pc : CommissioningExperiment.Pc} (h : o.Holds p) (hk : p.kind = .cameraCommissioning)
    (hr : p.WellRead) (hf : p.fits = true) (hu : (o.camera.step dispatch pc answer).use = some u) :
    p.specifies request u = true := by
  cases p <;> simp only [ExperimentParams.kind, reduceCtorEq] at hk
  rename_i name
  have hname : strsafecpy 30 name = name := strsafecpy_eq hr.1 (of_decide_eq_true hf)
  have h : o.camera.fileName = name := h.trans hname
  obtain rfl := CommissioningExperiment.step_uses hu
  simp [ExperimentParams.specifies, h]

theorem specifies_copyBootSlots {pc : CopyBootSlotsExperiment.Pc} (h : o.Holds p)
    (hk : p.kind = .copyBootSlots) (hr : p.WellRead) (hf : p.fits = true)
    (hu : (o.copyBootSlots.step pc answer).use = some u) : p.specifies request u = true := by
  cases p <;> simp only [ExperimentParams.kind, reduceCtorEq] at hk
  rename_i source target
  obtain ⟨h1, h2⟩ := h
  simp only [ExperimentParams.fits, Bool.and_eq_true, decide_eq_true_eq] at hf
  rcases CopyBootSlotsExperiment.step_uses hu with rfl | rfl
  · simpa [ExperimentParams.specifies, h1] using toSlotNumbers_eq hr hf.1
  · simp only [ExperimentParams.specifies, h2, decide_eq_true_eq]
    -- the mask has no bit above the sixth
    have h6 := hf.2
    bv_omega

end Specifies

end PWSat2OBC
