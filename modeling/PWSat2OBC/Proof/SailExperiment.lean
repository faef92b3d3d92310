import PWSat2OBC.Proof.PhotoService
import PWSat2OBC.Spec.SailExperiment

/-!
# The photos of the sail experiment

The photo number is a byte that is never set back. The photo service refuses buffers from 100
on, so the photos of later runs are lost; and the purge before the last two photos can drop the
download of a photo that has been taken.

* `photosKept_run`: in every run in which the numbers stay below 100, the purge does not come
  between a photo and its download, and the experiment is not stopped and does not go on while
  commands are pending, each photo is downloaded into a buffer of its own and saved.
* `Inv`: what is to be downloaded comes in pairs of commands, from the executed ones to those of
  calls not made yet.
-/

namespace PWSat2OBC

/-! ## Buffers stay filled -/

namespace PhotoService

variable {s t : PhotoService}

theorem isEmpty_eq {bufferId : Byte} (h : t.bufferInfos = s.bufferInfos) : t.isEmpty bufferId = s.isEmpty bufferId := by
  rw [isEmpty, isEmpty, h]

/-- After a download the buffer is not empty. -/
theorem isEmpty_downloadPhoto (answers : ℕ → CameraDriver.PhotoAnswers) (which : Camera) {bufferId : Byte}
    (h : bufferId.toNat < buffersCount) :
    (downloadPhoto answers s which bufferId).2.isEmpty bufferId = false := by
  obtain ⟨-, ⟨photo, -, -, -, hinfos, -⟩ | ⟨-, hinfos, -⟩⟩ := @downloadPhoto_cases s answers which bufferId h
  · rw [isEmpty, dif_pos h, hinfos, Function.update_self]
    rfl
  · rw [isEmpty, dif_pos h, hinfos, Function.update_self]
    rfl

/-- Only a `Reset` empties a buffer. -/
theorem isEmpty_invoke (answers : Answers) {command : PhotoCommand} (hreset : command ≠ .reset)
    {bufferId : Byte} (h : s.isEmpty bufferId = false) : (invoke answers s command).2.isEmpty bufferId = false := by
  cases command with
  | disableCamera which => exact h
  | enableCamera which => exact (isEmpty_eq (sameBuffers_enableCamera _ _ which).bufferInfos).trans h
  | takePhoto which resolution => exact (isEmpty_eq (sameBuffers_takePhoto answers which).bufferInfos).trans h
  | downloadPhoto which id =>
    by_cases hid : id.toNat < buffersCount
    swap
    · rw [invoke, downloadPhoto_invalid answers.downloads which hid]
      exact h
    by_cases heq : bufferId = id
    · rw [heq]
      exact isEmpty_downloadPhoto answers.downloads which hid
    · -- the other buffers are as before
      rw [isEmpty] at h ⊢
      split
      · rename_i hlt
        rw [dif_pos hlt] at h
        have hne : (⟨bufferId.toNat, hlt⟩ : Fin buffersCount) ≠ ⟨id.toNat, hid⟩ := by
          intro hfin
          exact heq (BitVec.eq_of_toNat_eq (Fin.mk.inj hfin))
        obtain ⟨-, ⟨photo, -, -, -, hinfos, -⟩ | ⟨-, hinfos, -⟩⟩ :=
          @downloadPhoto_cases s answers.downloads which id hid
        · rw [invoke, hinfos, Function.update_of_ne hne]
          exact h
        · rw [invoke, hinfos, Function.update_of_ne hne]
          exact h
      · rfl
  | savePhoto id path => exact (isEmpty_eq (sameBuffers_savePhoto _ id path).bufferInfos).trans h
  | reset => exact absurd rfl hreset
  | sleep duration => exact h
  | breakSleep => exact h

end PhotoService

namespace SailExperiment

open Runs PhotoService

/-! ## Photos and their downloads -/

/-- The commands of a photo. -/
def isShot : PhotoCommand → Bool
  | .takePhoto _ _ => true
  | .downloadPhoto _ _ => true
  | _ => false

def shots (l : List PhotoCommand) : List PhotoCommand := l.filter isShot

/-- The buffers that are downloaded into. -/
def downloadId : PhotoCommand → Option Byte
  | .downloadPhoto _ bufferId => some bufferId
  | _ => none

def ids (l : List PhotoCommand) : List Byte := l.filterMap downloadId

/-- The commands in calls that have still to be made. -/
def commands (calls : List Call) : List PhotoCommand :=
  calls.filterMap fun
    | .push command => some command
    | _ => none

/-- All commands since the last `Start`: executed, in the queue, and in calls to come. -/
def wanted (s : SailExperiment) : List PhotoCommand := s.executed ++ (s.queue ++ commands s.calls)

/-- Each photo is downloaded from its camera right after it has been taken. -/
inductive Pairs : List PhotoCommand → Prop
  | nil : Pairs []
  | cons {which : Camera} {resolution bufferId : Byte} {l : List PhotoCommand} : Pairs l →
      Pairs (.takePhoto which resolution :: .downloadPhoto which bufferId :: l)

theorem Pairs.append {a b : List PhotoCommand} (ha : Pairs a) (hb : Pairs b) : Pairs (a ++ b) := by
  induction ha with
  | nil => exact hb
  | cons _ ih => exact .cons ih

theorem Pairs.head {l : List PhotoCommand} (h : Pairs l) (which : Camera) (bufferId : Byte) :
    l.head? ≠ some (.downloadPhoto which bufferId) := by
  intro hhead
  cases h with
  | nil => exact absurd hhead (Option.some_ne_none _).symm
  | cons _ => exact PhotoCommand.noConfusion (Option.some.inj hhead)

/-- A list of pairs can be cut where no download follows. -/
theorem Pairs.split {a b : List PhotoCommand} (h : Pairs (a ++ b))
    (hb : ∀ which bufferId, b.head? ≠ some (.downloadPhoto which bufferId)) : Pairs a ∧ Pairs b := by
  generalize hl : a ++ b = l at h
  induction h generalizing a with
  | nil =>
    obtain ⟨rfl, rfl⟩ := List.append_eq_nil_iff.1 hl
    exact ⟨.nil, .nil⟩
  | @cons which resolution bufferId l hl' ih =>
    rcases a with _ | ⟨x, _ | ⟨y, a⟩⟩
    · rw [List.nil_append] at hl
      rw [hl]
      exact ⟨.nil, .cons hl'⟩
    · have hb' : b = .downloadPhoto which bufferId :: l := (List.cons.inj hl).2
      exact absurd (congrArg List.head? hb') (hb which bufferId)
    · obtain ⟨rfl, htail⟩ := List.cons.inj hl
      have hrest : y :: (a ++ b) = .downloadPhoto which bufferId :: l := htail
      obtain ⟨rfl, hab⟩ := List.cons.inj hrest
      obtain ⟨ha, hb⟩ := ih hab
      exact ⟨.cons ha, hb⟩

@[simp] theorem shots_append (a b : List PhotoCommand) : shots (a ++ b) = shots a ++ shots b :=
  List.filter_append a b

@[simp] theorem ids_append (a b : List PhotoCommand) : ids (a ++ b) = ids a ++ ids b :=
  List.filterMap_append

@[simp] theorem commands_append (a b : List Call) : commands (a ++ b) = commands a ++ commands b :=
  List.filterMap_append

/-- Without the commands of photos there is nothing to be downloaded. -/
theorem ids_eq_nil {l : List PhotoCommand} (h : shots l = []) : ids l = [] := by
  apply List.filterMap_eq_nil_iff.2
  intro c hc
  have hshot : ¬ isShot c = true := List.filter_eq_nil_iff.1 h c hc
  cases c <;> first | rfl | exact absurd rfl hshot

/-! ## Calls to come -/

/-- A wait comes behind each `Reset`. -/
def ResetsWaited : List Call → Prop
  | [] => True
  | .push .reset :: rest => .waitForFinish ∈ rest ∧ ResetsWaited rest
  | _ :: rest => ResetsWaited rest

/-- Whole photos come behind each purge. -/
def PurgesPaired : List Call → Prop
  | [] => True
  | .purgePendingCommands :: rest => Pairs (shots (commands rest)) ∧ PurgesPaired rest
  | _ :: rest => PurgesPaired rest

/-- The buffer is saved before any `Reset`. -/
def SaveFirst (bufferId : Byte) : List Call → Prop
  | [] => False
  | .savePhoto index :: rest => index = bufferId ∨ SaveFirst bufferId rest
  | .push .reset :: _ => False
  | _ :: rest => SaveFirst bufferId rest

/-- Calls that end with a wait. -/
theorem resetsWaited_snoc (l : List Call) : ResetsWaited (l ++ [.waitForFinish]) := by
  induction l with
  | nil => exact trivial
  | cons c l ih =>
    rw [List.cons_append]
    unfold ResetsWaited
    split
    · trivial
    · rename_i heq
      obtain ⟨-, rfl⟩ := List.cons.inj heq
      exact ⟨List.mem_append_right _ (List.mem_singleton_self _), ih⟩
    · rename_i heq
      obtain ⟨-, rfl⟩ := List.cons.inj heq
      exact ih

theorem resetsWaited_append {a b : List Call} (ha : ResetsWaited a) (hb : ResetsWaited b) :
    ResetsWaited (a ++ b) := by
  induction a with
  | nil => exact hb
  | cons c a ih =>
    cases c with
    | push command =>
      cases command with
      | reset => exact ⟨List.mem_append_left b ha.1, ih ha.2⟩
      | _ => exact ih ha
    | _ => exact ih ha

/-- Behind what a purge leaves there may come more photos. -/
theorem purgesPaired_append {a b : List Call} (ha : PurgesPaired a) (hpairs : Pairs (shots (commands b)))
    (hb : PurgesPaired b) : PurgesPaired (a ++ b) := by
  induction a with
  | nil => exact hb
  | cons c a ih =>
    cases c with
    | purgePendingCommands =>
      have hbehind : Pairs (shots (commands (a ++ b))) := by
        rw [commands_append, shots_append]
        exact ha.1.append hpairs
      exact ⟨hbehind, ih ha.2⟩
    | _ => exact ih ha

/-- The buffers that have a number below the photo number are saved by `Stop`. -/
theorem saveFirst_savePhotos {bufferId photoNumber : Byte} (h : bufferId.toNat < photoNumber.toNat)
    (rest : List Call) : SaveFirst bufferId (savePhotos photoNumber ++ rest) := by
  have hmem : .savePhoto bufferId ∈ savePhotos photoNumber := by
    refine List.mem_map.2 ⟨bufferId.toNat, List.mem_range.2 h, ?_⟩
    rw [BitVec.ofNat_toNat, BitVec.setWidth_eq]
  have hsaves : ∀ c ∈ savePhotos photoNumber, ∃ index, c = .savePhoto index := by
    intro c hc
    obtain ⟨i, -, rfl⟩ := List.mem_map.1 hc
    exact ⟨_, rfl⟩
  generalize savePhotos photoNumber = l at hmem hsaves
  induction l with
  | nil => exact absurd hmem List.not_mem_nil
  | cons c l ih =>
    obtain ⟨index, rfl⟩ := hsaves c List.mem_cons_self
    rcases List.mem_cons.1 hmem with heq | hmem
    · exact Or.inl (Call.savePhoto.inj heq).symm
    · exact Or.inr (ih hmem fun c hc => hsaves c (List.mem_cons_of_mem _ hc))

/-- The commands behind which `Stop` ends. -/
theorem commands_stopCalls (photoNumber : Byte) :
    commands (stopCalls photoNumber) = [.disableCamera .nadir, .disableCamera .wing, .reset] := by
  have hsaves : commands (savePhotos photoNumber) = [] := by
    apply List.filterMap_eq_nil_iff.2
    intro c hc
    obtain ⟨i, -, rfl⟩ := List.mem_map.1 hc
    rfl
  rw [stopCalls, commands_append, commands_append, hsaves]
  rfl

/-- Behind no purge. -/
theorem purgesPaired_of_not_mem {l : List Call} (h : .purgePendingCommands ∉ l) : PurgesPaired l := by
  induction l with
  | nil => exact trivial
  | cons c l ih =>
    cases c with
    | purgePendingCommands => exact absurd List.mem_cons_self h
    | _ => exact ih fun hmem => h (List.mem_cons_of_mem _ hmem)

theorem purgesPaired_stopCalls (photoNumber : Byte) : PurgesPaired (stopCalls photoNumber) := by
  apply purgesPaired_of_not_mem
  simp [stopCalls, savePhotos]

theorem stopCalls_snoc (photoNumber : Byte) :
    stopCalls photoNumber = [.push (.disableCamera .nadir), .push (.disableCamera .wing)] ++
      savePhotos photoNumber ++ [.push .reset] ++ [.waitForFinish] := by
  rw [stopCalls, List.append_assoc (_ ++ savePhotos photoNumber)]
  rfl

/-! ## The invariant -/

/-- The photos of a run are kept. -/
structure PhotosKept (s : SailExperiment) : Prop where
  /-- The photo service accepts the buffers. -/
  accepted : ∀ bufferId ∈ ids (wanted s), bufferId.toNat < buffersCount
  /-- No two photos share a buffer. -/
  apart : (ids (wanted s)).Nodup
  /-- With nothing pending each photo that has been taken has been downloaded. -/
  downloaded : s.calls = [] → s.queue = [] → Pairs (shots s.executed)
  /-- After `Stop` each of them has been asked to be saved. -/
  saved : s.phase = .idle → s.calls = [] → ∀ bufferId ∈ ids s.executed, bufferId ∈ s.saves

/-- The photos taken by an iteration. -/
def photosAt (s : SailExperiment) (time : Option ℤ) : ℕ :=
  (if s.needToTakePhoto time then 1 else 0) + if s.needToEnd time then 2 else 0

/-- The calls under which photos are kept. -/
def CallKeepsPhotos (queue : List PhotoCommand) : Call → Prop
  | .purgePendingCommands => (shots queue).head?.bind downloadId = none
  | .waitForFinish => queue = []
  | _ => True

instance (queue : List PhotoCommand) : ∀ c, Decidable (CallKeepsPhotos queue c)
  | .purgePendingCommands => inferInstanceAs (Decidable ((shots queue).head?.bind downloadId = none))
  | .waitForFinish => inferInstanceAs (Decidable (queue = []))
  | .push _ => inferInstanceAs (Decidable True)
  | .savePhoto _ => inferInstanceAs (Decidable True)

/-- The steps under which photos are kept. -/
def KeepsPhotos (s : SailExperiment) : Event → Prop
  | .iteration time => s.photoNumber.toNat + photosAt s time ≤ buffersCount
  | .stop => s.queue = []
  | .call => ∀ c ∈ s.calls.head?, CallKeepsPhotos s.queue c
  | _ => True

instance (s : SailExperiment) : ∀ e, Decidable (KeepsPhotos s e)
  | .iteration time => inferInstanceAs (Decidable (s.photoNumber.toNat + photosAt s time ≤ buffersCount))
  | .stop => inferInstanceAs (Decidable (s.queue = []))
  | .call => inferInstanceAs (Decidable (∀ c ∈ s.calls.head?, CallKeepsPhotos s.queue c))
  | .start _ _ _ => inferInstanceAs (Decidable True)
  | .task _ => inferInstanceAs (Decidable True)

/-- A buffer that has been filled is saved, or keeps its photo until it is saved. -/
def Kept (s : SailExperiment) (bufferId : Byte) : Prop :=
  bufferId ∈ s.saves ∨
    s.service.isEmpty bufferId = false ∧ .reset ∉ s.queue ∧
      (s.phase ≠ .idle ∧ .push .reset ∉ s.calls ∨ SaveFirst bufferId s.calls)

structure Inv (s : SailExperiment) : Prop where
  number : s.photoNumber.toNat ≤ buffersCount
  pairs : Pairs (shots (wanted s))
  afterPurge : PurgesPaired s.calls
  below : ∀ bufferId ∈ ids (wanted s), bufferId.toNat < s.photoNumber.toNat
  apart : (ids (wanted s)).Nodup
  resets : ResetsWaited s.calls
  waits : .reset ∈ s.queue → .waitForFinish ∈ s.calls
  idle : s.phase = .idle → s.calls = [] ∧ s.queue = [] ∨ s.calls.getLast? = some .waitForFinish
  shooting : shots (s.queue ++ commands s.calls) ≠ [] →
    s.phase ≠ .idle ∧ .reset ∉ s.queue ∧ .push .reset ∉ s.calls
  filled : ∀ bufferId ∈ ids s.executed, Kept s bufferId

theorem Inv.photosKept {s : SailExperiment} (h : Inv s) : PhotosKept s where
  accepted bufferId hid := by
    have hnumber := h.number
    have hbelow := h.below bufferId hid
    omega
  apart := h.apart
  downloaded hcalls hqueue := by
    have hpairs := h.pairs
    rw [wanted, hcalls, hqueue] at hpairs
    have hnone : commands [] = [] := rfl
    rwa [hnone, List.append_nil, List.append_nil] at hpairs
  saved hidle hcalls bufferId hid := by
    rcases h.filled bufferId hid with hsaved | ⟨-, -, ⟨hphase, -⟩ | hsave⟩
    · exact hsaved
    · exact absurd hidle hphase
    · rw [hcalls] at hsave
      exact absurd hsave id

theorem inv_init (service : PhotoService) : Inv (init service) where
  number := Nat.zero_le _
  pairs := .nil
  afterPurge := trivial
  below := fun _ hid => absurd hid List.not_mem_nil
  apart := List.nodup_nil
  resets := trivial
  waits := fun hreset => absurd hreset List.not_mem_nil
  idle := fun _ => Or.inl ⟨rfl, rfl⟩
  shooting := fun hne => absurd rfl hne
  filled := fun _ hid => absurd hid List.not_mem_nil

/-! ## Start and Stop -/

/-- A run that has just begun. -/
theorem inv_begun {s : SailExperiment} (hnumber : s.photoNumber.toNat ≤ buffersCount) (hexecuted : s.executed = [])
    (hqueue : s.queue = []) (hshots : shots (commands s.calls) = []) (hpurges : PurgesPaired s.calls)
    (hresets : ResetsWaited s.calls)
    (hidle : s.phase = .idle → s.calls = [] ∨ s.calls.getLast? = some .waitForFinish) : Inv s := by
  have hwanted : wanted s = commands s.calls := by
    rw [wanted, hexecuted, hqueue]
    rfl
  have hids : ids (wanted s) = [] := by
    rw [hwanted]
    exact ids_eq_nil hshots
  -- nothing has been executed and no photo is under way
  refine ⟨hnumber, ?_, hpurges, ?_, ?_, hresets, ?_, ?_, ?_, ?_⟩
  · rw [hwanted, hshots]
    exact .nil
  · rw [hids]
    exact fun _ hid => absurd hid List.not_mem_nil
  · rw [hids]
    exact List.nodup_nil
  · rw [hqueue]
    exact fun hreset => absurd hreset List.not_mem_nil
  · exact fun hphase => (hidle hphase).imp_left fun hcalls => ⟨hcalls, hqueue⟩
  · rw [hqueue, List.nil_append]
    exact fun hne => absurd hshots hne
  · rw [hexecuted]
    exact fun _ hid => absurd hid List.not_mem_nil

theorem shots_stopCalls (photoNumber : Byte) : shots (commands (stopCalls photoNumber)) = [] := by
  rw [commands_stopCalls]
  rfl

theorem resetsWaited_stopCalls (photoNumber : Byte) : ResetsWaited (stopCalls photoNumber) := by
  rw [stopCalls_snoc]
  exact resetsWaited_snoc _

theorem getLast?_stopCalls (calls : List Call) (photoNumber : Byte) :
    (calls ++ stopCalls photoNumber).getLast? = some .waitForFinish := by
  rw [stopCalls_snoc, ← List.append_assoc, List.getLast?_append]
  rfl

/-- With no calls pending in the idle phase nothing is in the queue, and a run begins anew. -/
theorem Inv.start {s : SailExperiment} (h : Inv s) (hphase : s.phase = .idle) (hcalls : s.calls = [])
    (controller prepared : Bool) (time : Option ℤ) :
    ∃ t, step s (.start controller prepared time) = some t ∧ Inv t := by
  have hqueue : s.queue = [] := by
    rcases h.idle hphase with ⟨-, hqueue⟩ | hlast
    · exact hqueue
    · rw [hcalls] at hlast
      exact absurd hlast (Option.some_ne_none _).symm
  have hshots : shots (commands startCalls) = [] := rfl
  have hpurges : PurgesPaired startCalls := purgesPaired_of_not_mem (by decide)
  have hresets : ResetsWaited startCalls := resetsWaited_snoc [.push .reset, _, _]
  simp only [step, hphase, hcalls, and_self, if_true]
  -- each way out of `Start` leaves other calls behind
  cases controller with
  | false =>
    refine ⟨_, rfl, ?_⟩
    refine inv_begun h.number rfl hqueue rfl trivial trivial fun _ => Or.inl rfl
  | true =>
    cases prepared with
    | false =>
      refine ⟨_, rfl, inv_begun h.number rfl hqueue ?_ ?_ ?_ fun _ => Or.inr ?_⟩
      · exact shots_stopCalls _
      · exact purgesPaired_stopCalls _
      · exact resetsWaited_stopCalls _
      · exact getLast?_stopCalls [] _
    | true =>
      cases time with
      | none =>
        refine ⟨_, rfl, inv_begun h.number rfl hqueue ?_ ?_ ?_ fun _ => Or.inr ?_⟩
        · change shots (commands (startCalls ++ stopCalls s.photoNumber)) = []
          rw [commands_append, shots_append, shots_stopCalls, hshots, List.append_nil]
        · refine purgesPaired_append hpurges ?_ (purgesPaired_stopCalls _)
          rw [shots_stopCalls]
          exact .nil
        · exact resetsWaited_append hresets (resetsWaited_stopCalls _)
        · exact getLast?_stopCalls startCalls _
      | some t =>
        refine ⟨_, rfl, inv_begun h.number rfl hqueue ?_ ?_ ?_ fun hphase => absurd hphase ?_⟩
        · exact hshots
        · exact hpurges
        · exact hresets
        · exact ExperimentPhase.noConfusion

/-- `Stop` saves what has been filled, before it resets the buffers. -/
theorem Inv.stop {s : SailExperiment} (h : Inv s) (hcalls : s.calls = []) (hqueue : s.queue = []) :
    Inv { s with calls := stopCalls s.photoNumber, phase := .idle } := by
  have hwanted : wanted s = s.executed := by
    rw [wanted, hcalls, hqueue]
    exact List.append_nil _
  have hpairs := h.pairs
  have hbelow := h.below
  have hapart := h.apart
  rw [hwanted] at hpairs hbelow hapart
  -- the calls of `Stop` bring no photos
  have hids : ids (commands (stopCalls s.photoNumber)) = [] := ids_eq_nil (shots_stopCalls _)
  refine ⟨h.number, ?_, purgesPaired_stopCalls _, ?_, ?_, resetsWaited_stopCalls _, ?_, ?_, ?_, ?_⟩
  · simp only [wanted, hqueue, List.nil_append, shots_append, shots_stopCalls, List.append_nil]
    exact hpairs
  · simp only [wanted, hqueue, List.nil_append, ids_append, hids, List.append_nil]
    exact hbelow
  · simp only [wanted, hqueue, List.nil_append, ids_append, hids, List.append_nil]
    exact hapart
  · intro _
    exact List.mem_append_right _ (List.mem_cons_of_mem _ List.mem_cons_self)
  · exact fun _ => Or.inr (getLast?_stopCalls [] _)
  · simp only [hqueue, List.nil_append, shots_stopCalls]
    exact fun hne => absurd rfl hne
  · intro bufferId hid
    rcases h.filled bufferId hid with hsaved | ⟨hfilled, hreset, -⟩
    · exact Or.inl hsaved
    · -- the number of the buffer is among those that are saved
      have hsave : SaveFirst bufferId (savePhotos s.photoNumber ++ [.push .reset, .waitForFinish]) :=
        saveFirst_savePhotos (hbelow bufferId hid) _
      refine Or.inr ⟨hfilled, hreset, Or.inr ?_⟩
      simp only [stopCalls, List.append_assoc]
      exact hsave

/-! ## Iterations -/

/-- While photos are taken. -/
structure Shooting (s : SailExperiment) : Prop extends Inv s where
  running : s.phase ≠ .idle
  noReset : .reset ∉ s.queue
  noResetCall : .push .reset ∉ s.calls

theorem toNat_takePhotoWith {s : SailExperiment} (hnumber : s.photoNumber.toNat < buffersCount) (camera : Camera)
    (resolution : Byte) : (s.takePhotoWith camera resolution).photoNumber.toNat = s.photoNumber.toNat + 1 := by
  have hcount : buffersCount = 100 := rfl
  have hadd := BitVec.toNat_add s.photoNumber 1
  have hone : (1 : Byte).toNat = 1 := rfl
  rw [hone] at hadd
  change (s.photoNumber + 1).toNat = _
  omega

/-- One more photo, in the next buffer. -/
theorem Shooting.takePhotoWith {s : SailExperiment} (h : Shooting s) (hnumber : s.photoNumber.toNat < buffersCount)
    (camera : Camera) (resolution : Byte) : Shooting (s.takePhotoWith camera resolution) := by
  have hsucc : (s.photoNumber + 1).toNat = s.photoNumber.toNat + 1 := toNat_takePhotoWith hnumber camera resolution
  have hwanted : wanted (s.takePhotoWith camera resolution) =
      wanted s ++ [.takePhoto camera resolution, .downloadPhoto camera s.photoNumber] := by
    simp only [wanted, SailExperiment.takePhotoWith, commands_append, ← List.append_assoc]
    rfl
  have hids : ids (wanted (s.takePhotoWith camera resolution)) = ids (wanted s) ++ [s.photoNumber] := by
    rw [hwanted, ids_append]
    rfl
  have hpair : Pairs (shots (commands [.push (.takePhoto camera resolution),
      .push (.downloadPhoto camera s.photoNumber)])) := .cons .nil
  have hnoResetCall : Call.push .reset ∉ (s.takePhotoWith camera resolution).calls := by
    intro hmem
    rcases List.mem_append.1 hmem with hmem | hmem
    · exact h.noResetCall hmem
    · exact absurd hmem (by simp)
  refine ⟨⟨?_, ?_, ?_, ?_, ?_, ?_, ?_, ?_, ?_, ?_⟩, h.running, h.noReset, hnoResetCall⟩
  · change (s.photoNumber + 1).toNat ≤ buffersCount
    omega
  · rw [hwanted, shots_append]
    exact h.pairs.append hpair
  · exact purgesPaired_append h.afterPurge hpair trivial
  · change ∀ bufferId ∈ ids (wanted (s.takePhotoWith camera resolution)), bufferId.toNat < (s.photoNumber + 1).toNat
    rw [hids, hsucc]
    intro bufferId hid
    rcases List.mem_append.1 hid with hid | hid
    · exact Nat.lt_succ_of_lt (h.below bufferId hid)
    · rw [List.mem_singleton.1 hid]
      exact Nat.lt_succ_self _
  · -- the numbers used so far lie below the one of this photo
    rw [hids]
    refine List.nodup_append.2 ⟨h.apart, List.nodup_singleton _, ?_⟩
    intro bufferId hid other hother heq
    have hlt := h.below bufferId hid
    rw [heq, List.mem_singleton.1 hother] at hlt
    exact absurd hlt (lt_irrefl _)
  · exact resetsWaited_append h.resets trivial
  · exact fun hreset => absurd hreset h.noReset
  · exact fun hphase => absurd hphase h.running
  · exact fun _ => ⟨h.running, h.noReset, hnoResetCall⟩
  · intro bufferId hid
    refine (h.filled bufferId hid).imp_right fun ⟨hfilled, hreset, hsave⟩ => ⟨hfilled, hreset, ?_⟩
    exact Or.inl ⟨h.running, hnoResetCall⟩

/-- A purge or a wait behind the calls. -/
theorem Shooting.snoc {s : SailExperiment} (h : Shooting s) {c : Call} (hnot : ∀ command, c ≠ .push command) :
    Shooting { s with calls := s.calls ++ [c] } := by
  -- no command comes with the call
  have hnone : commands [c] = [] := by
    cases c with
    | push command => exact absurd rfl (hnot command)
    | _ => rfl
  have hwanted : wanted { s with calls := s.calls ++ [c] } = wanted s := by
    simp only [wanted, commands_append, hnone, List.append_nil]
  have hnoResetCall : Call.push .reset ∉ s.calls ++ [c] := by
    intro hmem
    rcases List.mem_append.1 hmem with hmem | hmem
    · exact h.noResetCall hmem
    · exact hnot _ (List.mem_singleton.1 hmem).symm
  refine ⟨⟨h.number, ?_, ?_, ?_, ?_, ?_, ?_, ?_, ?_, ?_⟩, h.running, h.noReset, hnoResetCall⟩
  · rw [hwanted]
    exact h.pairs
  · refine purgesPaired_append h.afterPurge (by rw [hnone]; exact .nil) ?_
    cases c with
    | purgePendingCommands => exact ⟨.nil, trivial⟩
    | _ => exact trivial
  · rw [hwanted]
    exact h.below
  · rw [hwanted]
    exact h.apart
  · refine resetsWaited_append h.resets ?_
    cases c with
    | push command => exact absurd rfl (hnot command)
    | _ => exact trivial
  · exact fun hreset => absurd hreset h.noReset
  · exact fun hphase => absurd hphase h.running
  · exact fun _ => ⟨h.running, h.noReset, hnoResetCall⟩
  · intro bufferId hid
    refine (h.filled bufferId hid).imp_right fun ⟨hfilled, hreset, _⟩ => ⟨hfilled, hreset, ?_⟩
    exact Or.inl ⟨h.running, hnoResetCall⟩

/-- The camera and the time of the next photo do not matter. -/
theorem Shooting.congr {s t : SailExperiment} (h : Shooting s) (hnumber : t.photoNumber = s.photoNumber)
    (hphase : t.phase = s.phase) (hcalls : t.calls = s.calls) (hqueue : t.queue = s.queue)
    (hservice : t.service = s.service) (hexecuted : t.executed = s.executed) (hsaves : t.saves = s.saves) :
    Shooting t := by
  cases s
  cases t
  simp only at hnumber hphase hcalls hqueue hservice hexecuted hsaves
  subst hnumber hphase hcalls hqueue hservice hexecuted hsaves
  exact ⟨⟨h.number, h.pairs, h.afterPurge, h.below, h.apart, h.resets, h.waits, h.idle, h.shooting, h.filled⟩,
    h.running, h.noReset, h.noResetCall⟩

/-- A timed photo. -/
theorem Shooting.takePhoto {s : SailExperiment} (h : Shooting s) (hnumber : s.photoNumber.toNat < buffersCount)
    (time : Option ℤ) :
    Shooting (s.takePhoto time) ∧ (s.takePhoto time).photoNumber.toNat = s.photoNumber.toNat + 1 ∧
      (s.takePhoto time).experimentEnd = s.experimentEnd := by
  have hcamera : Shooting { s with lastCamera := s.getNextCamera } := h.congr rfl rfl rfl rfl rfl rfl rfl
  have hnext := hcamera.takePhotoWith hnumber s.getNextCamera p128
  have hsucc := @toNat_takePhotoWith { s with lastCamera := s.getNextCamera } hnumber s.getNextCamera p128
  cases time with
  | none => exact ⟨hnext, hsucc, rfl⟩
  | some t => exact ⟨hnext.congr rfl rfl rfl rfl rfl rfl rfl, hsucc, rfl⟩

/-- The purge, the last two photos and the wait. -/
theorem Shooting.finalizeExperiment {s : SailExperiment} (h : Shooting s)
    (hnumber : s.photoNumber.toNat + 2 ≤ buffersCount) : Shooting s.finalizeExperiment := by
  have hpurge : Shooting { s with calls := s.calls ++ [.purgePendingCommands] } :=
    h.snoc fun _ heq => Call.noConfusion heq
  have hfirst := hpurge.takePhotoWith (show s.photoNumber.toNat < buffersCount by omega) .wing p480
  have hsucc := @toNat_takePhotoWith { s with calls := s.calls ++ [.purgePendingCommands] }
    (show s.photoNumber.toNat < buffersCount by omega) .wing p480
  have hsecond := hfirst.takePhotoWith (by rw [hsucc]; exact hnumber) .nadir p480
  exact hsecond.snoc fun _ heq => Call.noConfusion heq

theorem Shooting.iteration {s : SailExperiment} (h : Shooting s) {time : Option ℤ}
    (hnumber : s.photoNumber.toNat + photosAt s time ≤ buffersCount) : Shooting (s.iteration time).2 := by
  rw [photosAt] at hnumber
  rw [SailExperiment.iteration]
  by_cases htake : s.needToTakePhoto time = true
  · rw [if_pos htake] at hnumber ⊢
    obtain ⟨hnext, hsucc, hend⟩ := h.takePhoto (by omega) time
    have hneed : (s.takePhoto time).needToEnd time = s.needToEnd time := by
      rw [needToEnd, hend, needToEnd]
    simp only [hneed]
    split
    · rename_i hfinal
      rw [if_pos hfinal] at hnumber
      exact hnext.finalizeExperiment (by omega)
    · exact hnext
  · rw [if_neg htake] at hnumber ⊢
    split
    · rename_i hfinal
      rw [if_pos hfinal] at hnumber
      exact h.finalizeExperiment (by omega)
    · exact h

theorem inv_iteration {s : SailExperiment} (h : Inv s) (hphase : s.phase = .running) (hcalls : s.calls = [])
    {time : Option ℤ} (hnumber : s.photoNumber.toNat + photosAt s time ≤ buffersCount) :
    Inv { (s.iteration time).2 with phase := .after (s.iteration time).1 } := by
  have hrunning : s.phase ≠ .idle := by
    rw [hphase]
    exact ExperimentPhase.noConfusion
  have hreset : .reset ∉ s.queue := by
    intro hmem
    have hwait := h.waits hmem
    rw [hcalls] at hwait
    exact absurd hwait List.not_mem_nil
  have hresetCall : .push .reset ∉ s.calls := by
    rw [hcalls]
    exact List.not_mem_nil
  -- the `Reset` of `Start` has been executed, since `Start` waits for it
  have hnext := (Shooting.mk h hrunning hreset hresetCall).iteration hnumber
  have hafter : ExperimentPhase.after (s.iteration time).1 ≠ .idle := by
    cases (s.iteration time).1 <;> exact ExperimentPhase.noConfusion
  refine ⟨hnext.number, hnext.pairs, hnext.afterPurge, hnext.below, hnext.apart, hnext.resets, hnext.waits, ?_, ?_, ?_⟩
  · exact fun hidle => absurd hidle hafter
  · exact fun _ => ⟨hafter, hnext.noReset, hnext.noResetCall⟩
  · intro bufferId hid
    refine (hnext.filled bufferId hid).imp_right fun ⟨hfilled, hclean, _⟩ => ⟨hfilled, hclean, ?_⟩
    exact Or.inl ⟨hafter, hnext.noResetCall⟩

/-! ## Calls and the photo task -/

/-- The last call is a wait also when one call less is pending. -/
theorem getLast?_tail {c : Call} {rest : List Call} (h : (c :: rest).getLast? = some .waitForFinish) :
    rest = [] ∧ c = .waitForFinish ∨ rest.getLast? = some .waitForFinish := by
  cases rest with
  | nil => exact Or.inl ⟨rfl, Option.some.inj h⟩
  | cons d rest => exact Or.inr h

/-- In the idle phase the calls pending behind the first one end with a wait. -/
theorem Inv.idle_tail {s : SailExperiment} (h : Inv s) {c : Call} {rest : List Call} (hcalls : s.calls = c :: rest)
    (hphase : s.phase = .idle) : rest = [] ∧ c = .waitForFinish ∨ rest.getLast? = some .waitForFinish := by
  have hidle := h.idle hphase
  rw [hcalls] at hidle
  rcases hidle with ⟨hnone, -⟩ | hlast
  · exact absurd hnone (List.cons_ne_nil _ _)
  · exact getLast?_tail hlast

/-- A command goes from the calls to the queue. -/
theorem Inv.push {s : SailExperiment} (h : Inv s) {command : PhotoCommand} {rest : List Call}
    (hcalls : s.calls = .push command :: rest) :
    Inv { s with calls := rest, queue := s.queue ++ [command] } := by
  have hwanted : wanted { s with calls := rest, queue := s.queue ++ [command] } = wanted s := by
    have hcommands : commands (.push command :: rest) = command :: commands rest := rfl
    simp only [wanted, hcalls, hcommands, List.append_assoc, List.singleton_append]
  have hafterPurge := h.afterPurge
  have hresets := h.resets
  have hwaits := h.waits
  have hshooting := h.shooting
  rw [hcalls] at hafterPurge hresets hwaits hshooting
  refine ⟨h.number, ?_, hafterPurge, ?_, ?_, ?_, ?_, ?_, ?_, ?_⟩
  · rw [hwanted]
    exact h.pairs
  · rw [hwanted]
    exact h.below
  · rw [hwanted]
    exact h.apart
  · cases command with
    | reset => exact hresets.2
    | _ => exact hresets
  · intro hmem
    rcases List.mem_append.1 hmem with hmem | hmem
    · rcases List.mem_cons.1 (hwaits hmem) with heq | hwait
      · exact Call.noConfusion heq
      · exact hwait
    · rw [← List.mem_singleton.1 hmem] at hresets
      exact hresets.1
  · intro hphase
    exact Or.inr ((h.idle_tail hcalls hphase).resolve_left fun hc => Call.noConfusion hc.2)
  · intro hne
    have hcommands : s.queue ++ commands (.push command :: rest) = s.queue ++ [command] ++ commands rest := by
      rw [List.append_assoc]
      rfl
    rw [hcommands] at hshooting
    obtain ⟨hrunning, hreset, hresetCall⟩ := hshooting hne
    refine ⟨hrunning, ?_, fun hmem => hresetCall (List.mem_cons_of_mem _ hmem)⟩
    intro hmem
    rcases List.mem_append.1 hmem with hmem | hmem
    · exact hreset hmem
    · rw [← List.mem_singleton.1 hmem] at hresetCall
      exact hresetCall List.mem_cons_self
  · intro bufferId hid
    refine (h.filled bufferId hid).imp_right fun ⟨hfilled, hreset, hsave⟩ => ?_
    rw [hcalls] at hsave
    -- a `Reset` is pushed when the buffer has been saved only
    have hcommand : command ≠ .reset := by
      rintro rfl
      rcases hsave with ⟨-, hnot⟩ | hsave
      · exact hnot List.mem_cons_self
      · exact absurd hsave id
    refine ⟨hfilled, ?_, ?_⟩
    · intro hmem
      rcases List.mem_append.1 hmem with hmem | hmem
      · exact hreset hmem
      · exact hcommand (List.mem_singleton.1 hmem).symm
    · rcases hsave with ⟨hrunning, hnot⟩ | hsave
      · exact Or.inl ⟨hrunning, fun hmem => hnot (List.mem_cons_of_mem _ hmem)⟩
      · refine Or.inr ?_
        cases command with
        | reset => exact absurd rfl hcommand
        | _ => exact hsave

/-- A call that leaves the queue as it is. -/
theorem Inv.drop {s : SailExperiment} (h : Inv s) {c : Call} {rest : List Call} (hcalls : s.calls = c :: rest)
    (hpush : ∀ command, c ≠ .push command) (hpurge : c ≠ .purgePendingCommands)
    (hwait : c = .waitForFinish → s.queue = []) (hsave : ∀ index, c = .savePhoto index → s.service.isEmpty index = true) :
    Inv { s with calls := rest } := by
  have hcommands : commands (c :: rest) = commands rest := by
    cases c with
    | push command => exact absurd rfl (hpush command)
    | _ => rfl
  have hwanted : wanted { s with calls := rest } = wanted s := by
    simp only [wanted, hcalls, hcommands]
  have hafterPurge := h.afterPurge
  have hresets := h.resets
  have hwaits := h.waits
  have hshooting := h.shooting
  rw [hcalls] at hafterPurge hresets hwaits hshooting
  rw [hcommands] at hshooting
  refine ⟨h.number, ?_, ?_, ?_, ?_, ?_, ?_, ?_, ?_, ?_⟩
  · rw [hwanted]
    exact h.pairs
  · cases c with
    | purgePendingCommands => exact absurd rfl hpurge
    | _ => exact hafterPurge
  · rw [hwanted]
    exact h.below
  · rw [hwanted]
    exact h.apart
  · cases c with
    | push command => exact absurd rfl (hpush command)
    | _ => exact hresets
  · intro hmem
    rcases List.mem_cons.1 (hwaits hmem) with heq | hmem'
    · have hempty : s.queue = [] := hwait heq.symm
      rw [hempty] at hmem
      exact absurd hmem List.not_mem_nil
    · exact hmem'
  · intro hphase
    exact (h.idle_tail hcalls hphase).imp_left fun ⟨hrest, hc⟩ => ⟨hrest, hwait hc⟩
  · intro hne
    obtain ⟨hrunning, hreset, hresetCall⟩ := hshooting hne
    exact ⟨hrunning, hreset, fun hmem => hresetCall (List.mem_cons_of_mem _ hmem)⟩
  · intro bufferId hid
    refine (h.filled bufferId hid).imp_right fun ⟨hfilled, hreset, hkept⟩ => ⟨hfilled, hreset, ?_⟩
    rw [hcalls] at hkept
    rcases hkept with ⟨hrunning, hnot⟩ | hfirst
    · exact Or.inl ⟨hrunning, fun hmem => hnot (List.mem_cons_of_mem _ hmem)⟩
    · refine Or.inr ?_
      cases c with
      | push command => exact absurd rfl (hpush command)
      | savePhoto index =>
        -- a buffer that is not empty is not passed over
        rcases hfirst with rfl | hfirst
        · rw [hsave index rfl] at hfilled
          exact absurd hfilled (by decide)
        · exact hfirst
      | _ => exact hfirst

/-- `SavePhoto` for a buffer that is not empty. -/
theorem Inv.savePhoto {s : SailExperiment} (h : Inv s) {index : Byte} {rest : List Call}
    (hcalls : s.calls = .savePhoto index :: rest) :
    Inv { s with
      calls := rest
      queue := s.queue ++ [.savePhoto index (photoPath index)]
      saves := s.saves ++ [index] } := by
  have hwanted : wanted { s with
      calls := .push (.savePhoto index (photoPath index)) :: rest
      saves := s.saves ++ [index] } = s.executed ++ (s.queue ++ .savePhoto index (photoPath index) :: commands rest) := rfl
  have hwanted' : wanted s = s.executed ++ (s.queue ++ commands rest) := by
    rw [wanted, hcalls]
    rfl
  have hshots (l : List PhotoCommand) : shots (.savePhoto index (photoPath index) :: l) = shots l := rfl
  have hids (l : List PhotoCommand) : ids (.savePhoto index (photoPath index) :: l) = ids l := rfl
  have hpairs := h.pairs
  have hafterPurge := h.afterPurge
  have hbelow := h.below
  have hapart := h.apart
  have hresets := h.resets
  have hwaits := h.waits
  have hshooting := h.shooting
  rw [hwanted'] at hpairs hbelow hapart
  simp only [shots_append, ids_append] at hpairs hbelow hapart
  rw [hcalls] at hafterPurge hresets hwaits hshooting
  -- as if the command had been pushed in place of the call
  have hpushed : Inv { s with
      calls := .push (.savePhoto index (photoPath index)) :: rest
      saves := s.saves ++ [index] } := by
    refine ⟨h.number, ?_, hafterPurge, ?_, ?_, hresets, ?_, ?_, ?_, ?_⟩
    · rw [hwanted]
      simp only [shots_append, hshots]
      exact hpairs
    · rw [hwanted]
      simp only [ids_append, hids]
      exact hbelow
    · rw [hwanted]
      simp only [ids_append, hids]
      exact hapart
    · intro hmem
      rcases List.mem_cons.1 (hwaits hmem) with heq | hmem'
      · exact Call.noConfusion heq
      · exact List.mem_cons_of_mem _ hmem'
    · intro hphase
      rcases h.idle_tail hcalls hphase with ⟨-, hc⟩ | hrest
      · exact Call.noConfusion hc
      · refine Or.inr ?_
        rw [List.getLast?_cons, hrest]
        rfl
    · intro hne
      have hne' : shots (s.queue ++ commands rest) ≠ [] := by
        intro hnone
        apply hne
        rw [shots_append] at hnone ⊢
        exact hnone
      obtain ⟨hrunning, hreset, hresetCall⟩ := hshooting hne'
      refine ⟨hrunning, hreset, fun hmem => ?_⟩
      rcases List.mem_cons.1 hmem with heq | hmem'
      · exact PhotoCommand.noConfusion (Call.push.inj heq)
      · exact hresetCall (List.mem_cons_of_mem _ hmem')
    · intro bufferId hid
      rcases h.filled bufferId hid with hsaved | ⟨hfilled, hreset, hkept⟩
      · exact Or.inl (List.mem_append_left _ hsaved)
      · rw [hcalls] at hkept
        rcases hkept with ⟨hrunning, hnot⟩ | rfl | hfirst
        · refine Or.inr ⟨hfilled, hreset, Or.inl ⟨hrunning, fun hmem => ?_⟩⟩
          rcases List.mem_cons.1 hmem with heq | hmem'
          · exact PhotoCommand.noConfusion (Call.push.inj heq)
          · exact hnot (List.mem_cons_of_mem _ hmem')
        · exact Or.inl (List.mem_append_right _ (List.mem_singleton_self _))
        · exact Or.inr ⟨hfilled, hreset, Or.inr hfirst⟩
  exact hpushed.push rfl

/-- The purge drops whole photos. -/
theorem Inv.purge {s : SailExperiment} (h : Inv s) {rest : List Call} (hcalls : s.calls = .purgePendingCommands :: rest)
    (hok : (shots s.queue).head?.bind downloadId = none) :
    Inv { s with calls := rest, queue := [.breakSleep] } := by
  have hwanted : wanted s = s.executed ++ (s.queue ++ commands rest) := by
    rw [wanted, hcalls]
    rfl
  have hwanted' : wanted { s with calls := rest, queue := [.breakSleep] } =
      s.executed ++ (.breakSleep :: commands rest) := rfl
  have hshots (l : List PhotoCommand) : shots (.breakSleep :: l) = shots l := rfl
  have hids (l : List PhotoCommand) : ids (.breakSleep :: l) = ids l := rfl
  have hpairs := h.pairs
  have hafterPurge := h.afterPurge
  have hbelow := h.below
  have hapart := h.apart
  have hresets := h.resets
  have hshooting := h.shooting
  rw [hwanted] at hpairs hbelow hapart
  rw [hcalls] at hafterPurge hresets hshooting
  obtain ⟨hbehind, hafterPurge⟩ := hafterPurge
  have hsub : (ids (s.executed ++ (.breakSleep :: commands rest))).Sublist
      (ids (s.executed ++ (s.queue ++ commands rest))) := by
    simp only [ids_append, hids]
    exact List.Sublist.append_left (List.sublist_append_right _ _) _
  refine ⟨h.number, ?_, hafterPurge, ?_, ?_, hresets, ?_, ?_, ?_, ?_⟩
  · -- the commands are cut in front of a photo
    rw [hwanted', shots_append, hshots]
    simp only [shots_append] at hpairs
    refine (hpairs.split ?_).1.append hbehind
    intro which bufferId hhead
    by_cases hnone : shots s.queue = []
    · rw [hnone, List.nil_append] at hhead
      exact hbehind.head which bufferId hhead
    · rw [List.head?_append_of_ne_nil _ hnone] at hhead
      rw [hhead] at hok
      exact absurd hok (Option.some_ne_none bufferId)
  · rw [hwanted']
    exact fun bufferId hid => hbelow bufferId (hsub.subset hid)
  · rw [hwanted']
    exact hapart.sublist hsub
  · exact fun hmem => PhotoCommand.noConfusion (List.mem_singleton.1 hmem)
  · intro hphase
    exact Or.inr ((h.idle_tail hcalls hphase).resolve_left fun hc => Call.noConfusion hc.2)
  · intro hne
    have hne' : shots (s.queue ++ commands (.purgePendingCommands :: rest)) ≠ [] := by
      intro hnone
      rw [shots_append] at hnone
      exact hne (List.append_eq_nil_iff.1 hnone).2
    obtain ⟨hrunning, -, hresetCall⟩ := hshooting hne'
    exact ⟨hrunning, fun hmem => PhotoCommand.noConfusion (List.mem_singleton.1 hmem),
      fun hmem => hresetCall (List.mem_cons_of_mem _ hmem)⟩
  · intro bufferId hid
    refine (h.filled bufferId hid).imp_right fun ⟨hfilled, _, hkept⟩ => ⟨hfilled, ?_, ?_⟩
    · exact fun hmem => PhotoCommand.noConfusion (List.mem_singleton.1 hmem)
    · rw [hcalls] at hkept
      exact hkept.imp_left fun ⟨hrunning, hnot⟩ => ⟨hrunning, fun hmem => hnot (List.mem_cons_of_mem _ hmem)⟩

/-- The photo task executes a command. -/
theorem Inv.task {s : SailExperiment} (h : Inv s) (answers : Answers) {command : PhotoCommand}
    {rest : List PhotoCommand} (hqueue : s.queue = command :: rest) :
    Inv { s with
      queue := rest
      service := (s.service.invoke answers command).2
      executed := s.executed ++ [command] } := by
  have hwanted : wanted { s with
      queue := rest
      service := (s.service.invoke answers command).2
      executed := s.executed ++ [command] } = wanted s := by
    simp only [wanted, hqueue, List.append_assoc, List.cons_append, List.nil_append]
  have hwaits := h.waits
  have hshooting := h.shooting
  rw [hqueue] at hwaits hshooting
  refine ⟨h.number, ?_, h.afterPurge, ?_, ?_, h.resets, ?_, ?_, ?_, ?_⟩
  · rw [hwanted]
    exact h.pairs
  · rw [hwanted]
    exact h.below
  · rw [hwanted]
    exact h.apart
  · exact fun hmem => hwaits (List.mem_cons_of_mem _ hmem)
  · intro hphase
    refine (h.idle hphase).imp_left fun ⟨_, hnone⟩ => ?_
    rw [hqueue] at hnone
    exact absurd hnone (List.cons_ne_nil _ _)
  · intro hne
    have hne' : shots (command :: rest ++ commands s.calls) ≠ [] := by
      intro hnone
      have happend : shots ([command] ++ (rest ++ commands s.calls)) = [] := hnone
      rw [shots_append] at happend
      exact hne (List.append_eq_nil_iff.1 happend).2
    obtain ⟨hrunning, hreset, hresetCall⟩ := hshooting hne'
    exact ⟨hrunning, fun hmem => hreset (List.mem_cons_of_mem _ hmem), hresetCall⟩
  · intro bufferId hid
    have hexecuted : bufferId ∈ ids (s.executed ++ [command]) := hid
    rw [ids_append] at hexecuted
    rcases List.mem_append.1 hexecuted with hold | hnew
    · -- the buffer stays filled, since the command is no `Reset`
      refine (h.filled bufferId hold).imp_right fun ⟨hfilled, hreset, hkept⟩ => ?_
      rw [hqueue] at hreset
      have hcommand : command ≠ .reset := by
        rintro rfl
        exact hreset List.mem_cons_self
      exact ⟨isEmpty_invoke answers hcommand hfilled, fun hmem => hreset (List.mem_cons_of_mem _ hmem), hkept⟩
    · -- the buffer has just been filled
      cases command with
      | downloadPhoto which other =>
        obtain rfl : bufferId = other := List.mem_singleton.1 hnew
        have hmem : bufferId ∈ ids (wanted s) := by
          rw [← hwanted]
          simp only [wanted, ids_append]
          exact List.mem_append_left _ (List.mem_append_right _ hnew)
        have hlt : bufferId.toNat < buffersCount := lt_of_lt_of_le (h.below _ hmem) h.number
        have hne : shots (.downloadPhoto which bufferId :: rest ++ commands s.calls) ≠ [] :=
          List.cons_ne_nil (.downloadPhoto which bufferId) (shots (rest ++ commands s.calls))
        obtain ⟨hrunning, hreset, hresetCall⟩ := hshooting hne
        refine Or.inr ⟨?_, fun hmem => hreset (List.mem_cons_of_mem _ hmem), Or.inl ⟨hrunning, hresetCall⟩⟩
        exact isEmpty_downloadPhoto answers.downloads which hlt
      | _ => exact absurd hnew List.not_mem_nil

/-- One step. -/
theorem inv_step {s t : SailExperiment} {e : Event} (h : Inv s) (hok : KeepsPhotos s e) (hs : step s e = some t) :
    Inv t := by
  cases e with
  | start controller prepared time =>
    have hidle : s.phase = .idle ∧ s.calls = [] := by
      by_contra hnot
      rw [step, if_neg hnot] at hs
      exact absurd hs (Option.some_ne_none t).symm
    obtain ⟨u, hu, hinv⟩ := h.start hidle.1 hidle.2 controller prepared time
    rw [hs] at hu
    rwa [Option.some.inj hu]
  | iteration time =>
    simp only [step, Option.ite_none_right_eq_some, Option.some.injEq] at hs
    obtain ⟨⟨hphase, hcalls⟩, rfl⟩ := hs
    exact inv_iteration h hphase hcalls hok
  | stop =>
    simp only [step, Option.ite_none_right_eq_some, Option.some.injEq] at hs
    obtain ⟨⟨-, hcalls⟩, rfl⟩ := hs
    exact h.stop hcalls hok
  | call =>
    rw [step, callStep] at hs
    rw [KeepsPhotos] at hok
    -- one lemma for each kind of call
    split at hs
    · exact absurd hs (Option.some_ne_none t).symm
    · rename_i command rest hcalls
      simp only [SailExperiment.push, Option.ite_none_right_eq_some, Option.some.injEq] at hs
      obtain ⟨-, rfl⟩ := hs
      exact h.push hcalls
    · rename_i rest hcalls
      obtain rfl := Option.some.inj hs
      rw [hcalls] at hok
      exact h.purge hcalls (hok _ rfl)
    · rename_i rest hcalls
      obtain rfl := Option.some.inj hs
      rw [hcalls] at hok
      have hqueue : s.queue = [] := hok _ rfl
      exact h.drop hcalls (fun _ => Call.noConfusion) Call.noConfusion (fun _ => hqueue) fun _ => Call.noConfusion
    · rename_i index rest hcalls
      split at hs
      · rename_i hempty
        obtain rfl := Option.some.inj hs
        refine h.drop hcalls (fun _ => Call.noConfusion) Call.noConfusion Call.noConfusion fun other heq => ?_
        rwa [← Call.savePhoto.inj heq]
      · simp only [SailExperiment.push, Option.ite_none_right_eq_some, Option.some.injEq] at hs
        obtain ⟨-, rfl⟩ := hs
        exact h.savePhoto hcalls
  | task answers =>
    rw [step] at hs
    split at hs
    · exact absurd hs (Option.some_ne_none t).symm
    · rename_i command rest hqueue
      obtain rfl := Option.some.inj hs
      exact h.task answers hqueue

/-- **The sail experiment keeps its photos.** -/
theorem photosKept_run (service : PhotoService) {es : List Event} {s : SailExperiment}
    (hrun : Run step KeepsPhotos (init service) es s) : PhotosKept s :=
  (hrun.inv (inv_init service) fun _ _ _ h hok hs => inv_step h hok hs).photosKept

/-! ## The first run -/

/-- No run begins again, and no reading lies before the start at `t₀`. -/
def AfterStart (t₀ : ℤ) (_ : SailExperiment) : Event → Prop
  | .start _ _ _ => False
  | .iteration (some t) => t₀ ≤ t
  | _ => True

/-- Timed photos lie 2.5 s apart, and before the end. -/
structure Timed (t₀ : ℤ) (s : SailExperiment) : Prop where
  ends : s.experimentEnd = t₀ + experimentDuration
  spaced : s.phase = .running → s.photoNumber.toNat ≠ 0 → t₀ + takingPhotosPeriod * s.photoNumber.toNat ≤ s.nextPhoto
  last : s.phase = .running → s.photoNumber.toNat ≠ 0 → s.nextPhoto < s.experimentEnd + takingPhotosPeriod

/-- At most 96 photos, before the end comes. -/
theorem Timed.photoNumber_le {t₀ : ℤ} {s : SailExperiment} (h : Timed t₀ s) (hphase : s.phase = .running) :
    s.photoNumber.toNat ≤ 96 := by
  by_cases hzero : s.photoNumber.toNat = 0
  · omega
  · have hspaced := h.spaced hphase hzero
    have hlast := h.last hphase hzero
    rw [h.ends] at hlast
    simp only [takingPhotosPeriod, experimentDuration] at hspaced hlast
    omega

theorem photosAt_le (s : SailExperiment) (time : Option ℤ) : photosAt s time ≤ 3 := by
  rw [photosAt]
  split <;> split <;> omega

theorem Timed.iteration {t₀ : ℤ} {s : SailExperiment} (h : Timed t₀ s) (hphase : s.phase = .running)
    {time : Option ℤ} (hok : AfterStart t₀ s (.iteration time)) :
    Timed t₀ { (s.iteration time).2 with phase := .after (s.iteration time).1 } := by
  have hends : (s.iteration time).2.experimentEnd = s.experimentEnd := by
    rw [SailExperiment.iteration]
    cases time with
    | none => rfl
    | some t =>
      by_cases htake : s.needToTakePhoto (some t) = true
      · rw [if_pos htake]
        split <;> rfl
      · rw [if_neg htake]
        split <;> rfl
  have hnumber := h.photoNumber_le hphase
  -- the experiment goes on only before its end
  have hon : ExperimentPhase.after (s.iteration time).1 = .running → s.needToEnd time = false ∧
      (s.iteration time).2 = if s.needToTakePhoto time then s.takePhoto time else s := by
    intro hrunning
    have hneed : (if s.needToTakePhoto time then s.takePhoto time else s).needToEnd time = s.needToEnd time := by
      cases time with
      | none => rfl
      | some t => split <;> rfl
    rw [SailExperiment.iteration] at hrunning ⊢
    simp only [hneed] at hrunning ⊢
    by_cases hend : s.needToEnd time = true
    · rw [if_pos hend] at hrunning
      exact ExperimentPhase.noConfusion hrunning
    · rw [if_neg hend]
      exact ⟨Bool.eq_false_iff.2 hend, rfl⟩
  have hnext : ExperimentPhase.after (s.iteration time).1 = .running → (s.iteration time).2.photoNumber.toNat ≠ 0 →
      t₀ + takingPhotosPeriod * (s.iteration time).2.photoNumber.toNat ≤ (s.iteration time).2.nextPhoto ∧
        (s.iteration time).2.nextPhoto < s.experimentEnd + takingPhotosPeriod := by
    intro hrunning
    obtain ⟨hend, hstate⟩ := hon hrunning
    rw [hstate]
    by_cases htake : s.needToTakePhoto time = true
    · rw [if_pos htake]
      cases time with
      | none => exact absurd htake Bool.false_ne_true
      | some t =>
        intro _
        have hlate : s.nextPhoto ≤ t := of_decide_eq_true htake
        have hearly : ¬ s.experimentEnd ≤ t := of_decide_eq_false hend
        have hafter : t₀ ≤ t := hok
        have hsucc : (s.takePhoto (some t)).photoNumber.toNat = s.photoNumber.toNat + 1 :=
          toNat_takePhotoWith (show s.photoNumber.toNat < buffersCount from lt_of_le_of_lt hnumber (by decide))
            s.getNextCamera p128
        have hset : (s.takePhoto (some t)).nextPhoto = t + takingPhotosPeriod := rfl
        have hperiod : takingPhotosPeriod = 2500 := rfl
        rw [hsucc, hset, hperiod]
        refine ⟨?_, by omega⟩
        by_cases hzero : s.photoNumber.toNat = 0
        · rw [hzero]
          omega
        · have hspaced := h.spaced hphase hzero
          rw [hperiod] at hspaced
          push_cast
          omega
    · rw [if_neg htake]
      exact fun hzero => ⟨h.spaced hphase hzero, h.last hphase hzero⟩
  refine ⟨hends.trans h.ends, fun hrunning hzero => (hnext hrunning hzero).1, fun hrunning hzero => ?_⟩
  have hlast := (hnext hrunning hzero).2
  rwa [← hends] at hlast

/-- The calls and the photo task leave the times as they are. -/
theorem Timed.congr {t₀ : ℤ} {s t : SailExperiment} (h : Timed t₀ s) (hphase : t.phase = s.phase)
    (hnumber : t.photoNumber = s.photoNumber) (hnext : t.nextPhoto = s.nextPhoto)
    (hend : t.experimentEnd = s.experimentEnd) : Timed t₀ t := by
  refine ⟨hend.trans h.ends, ?_, ?_⟩
  · rw [hphase, hnumber, hnext]
    exact h.spaced
  · rw [hphase, hnumber, hnext, hend]
    exact h.last

theorem Timed.callStep {t₀ : ℤ} {s t : SailExperiment} (h : Timed t₀ s) (hs : callStep s = some t) : Timed t₀ t := by
  rw [SailExperiment.callStep] at hs
  split at hs
  · exact absurd hs (Option.some_ne_none t).symm
  · simp only [SailExperiment.push, Option.ite_none_right_eq_some, Option.some.injEq] at hs
    obtain ⟨-, rfl⟩ := hs
    exact h.congr rfl rfl rfl rfl
  · obtain rfl := Option.some.inj hs
    exact h.congr rfl rfl rfl rfl
  · obtain rfl := Option.some.inj hs
    exact h.congr rfl rfl rfl rfl
  · split at hs
    · obtain rfl := Option.some.inj hs
      exact h.congr rfl rfl rfl rfl
    · simp only [SailExperiment.push, Option.ite_none_right_eq_some, Option.some.injEq] at hs
      obtain ⟨-, rfl⟩ := hs
      exact h.congr rfl rfl rfl rfl

/-- **One step** of the first run. -/
theorem Timed.step {t₀ : ℤ} {s t : SailExperiment} {e : Event} (h : Timed t₀ s) (hok : AfterStart t₀ s e)
    (hs : step s e = some t) : Timed t₀ t := by
  cases e with
  | start controller prepared time => exact absurd hok id
  | iteration time =>
    simp only [SailExperiment.step, Option.ite_none_right_eq_some, Option.some.injEq] at hs
    obtain ⟨⟨hphase, -⟩, rfl⟩ := hs
    exact h.iteration hphase hok
  | stop =>
    simp only [SailExperiment.step, Option.ite_none_right_eq_some, Option.some.injEq] at hs
    obtain ⟨-, rfl⟩ := hs
    exact ⟨h.ends, fun hrunning => ExperimentPhase.noConfusion hrunning,
      fun hrunning => ExperimentPhase.noConfusion hrunning⟩
  | call => exact h.callStep hs
  | task answers =>
    rw [SailExperiment.step] at hs
    split at hs
    · exact absurd hs (Option.some_ne_none t).symm
    · obtain rfl := Option.some.inj hs
      exact h.congr rfl rfl rfl rfl

/-- In the first run after the construction the numbers stay below 100. -/
theorem photosAt_firstRun {t₀ : ℤ} {s₀ s : SailExperiment} (hnumber : s₀.photoNumber = 0)
    (hend : s₀.experimentEnd = t₀ + experimentDuration) {es : List Event} (hrun : Run step (AfterStart t₀) s₀ es s)
    (hphase : s.phase = .running) (time : Option ℤ) : s.photoNumber.toNat + photosAt s time ≤ buffersCount := by
  have hzero : s₀.photoNumber.toNat = 0 := by
    rw [hnumber]
    rfl
  have hinit : Timed t₀ s₀ := ⟨hend, fun _ hne => absurd hzero hne, fun _ hne => absurd hzero hne⟩
  have htimed : Timed t₀ s := hrun.inv hinit fun _ _ _ h hok hs => h.step hok hs
  -- 96 timed photos, the one that comes with the end, and the last two
  have hle := htimed.photoNumber_le hphase
  have hphotos := photosAt_le s time
  have hcount : buffersCount = 100 := rfl
  omega

/-! ## Two runs -/

/-- A camera that sends photos of one byte. -/
def answers : Answers where
  power := fun _ => true
  sync := fun _ => ⟨true, 0⟩
  taken := fun _ => true
  downloads := fun _ => ⟨some 1, fun _ _ => ⟨true, [0xFF]⟩⟩
  opened := true

def emptyService : PhotoService := .init (fun _ => 0) .nadir

/-- Calls, and the commands executed behind them. -/
def executes (calls commands : ℕ) : List Event :=
  List.replicate calls .call ++ List.replicate commands (.task answers)

def started (time : ℤ) : List Event := .start true true (some time) :: executes 3 3 ++ [.call]

def timedPhoto (time : ℤ) : List Event := .iteration (some time) :: executes 2 2

/-- The last iteration, with one more timed photo that is taken before the purge. -/
def lastPhotos (time : ℤ) : List Event := timedPhoto time ++ [.call] ++ executes 4 5 ++ [.call]

/-- `Stop` with `n` photos to be saved. -/
def stopped (n : ℕ) : List Event := .stop :: executes (n + 3) (n + 3) ++ [.call]

def oneRun : List Event := started 0 ++ timedPhoto 0 ++ lastPhotos 240000 ++ stopped 4

/-- A run with four photos, each of them saved. -/
theorem photosKept_run_one : ∃ s, Run step KeepsPhotos (init emptyService) oneRun s ∧ PhotosKept s := by
  have hsome : (exec step KeepsPhotos (init emptyService) oneRun).isSome = true := by decide +kernel
  obtain ⟨s, hs⟩ := Option.isSome_iff_exists.1 hsome
  exact ⟨s, run_of_exec oneRun hs, photosKept_run emptyService (run_of_exec oneRun hs)⟩

/-- 97 timed photos and the last two, and in the next run two more. -/
def twoRuns : List Event :=
  started 0 ++ (List.range 96).flatMap (fun k => timedPhoto (2500 * k)) ++ lastPhotos 240000 ++ stopped 99 ++
    started 1000000 ++ timedPhoto 1000000 ++ timedPhoto 1002500

/-- The second photo of the second run goes to buffer 100. -/
theorem not_photosKept_secondRun :
    ∃ s, Run step always (init emptyService) twoRuns s ∧ ¬ PhotosKept s := by
  have hrefused : (exec step always (init emptyService) twoRuns).any
      (fun s => decide (100#8 ∈ ids (wanted s))) = true := by decide +kernel
  obtain ⟨s, hs, hid⟩ := (Option.any_eq_true _ _).1 hrefused
  refine ⟨s, run_of_exec twoRuns hs, fun hkept => ?_⟩
  have hlt := hkept.accepted 100#8 (of_decide_eq_true hid)
  exact absurd hlt (by decide)

end SailExperiment

end PWSat2OBC
