import PWSat2OBC.Spec.PhotoService

/-!
# Photo buffers do not overlap

`photos_sound`: after any commands and whatever comes over the line of the camera, the photos
downloaded since the last `Reset` lie one behind the other in the photo memory, none has been
handed to the camera again, and a file saved from a buffer gets the bytes of the download that
filled it.

* `cameraReceiveJPEGData_spec`: the camera driver writes only into the part it is given and
  returns a front part of it.
* `downloadPhoto_cases`: what a download does to the service.
-/

namespace PWSat2OBC

/-! ## The camera driver -/

namespace CameraDriver

/-- Only the given part of the memory has changed. -/
def Keeps (buffer : PhotoSpan) (memory memory' : PhotoMemory) : Prop :=
  ∀ a, a < buffer.offset ∨ buffer.offset + buffer.length ≤ a → memory' a = memory a

theorem Keeps.refl (buffer : PhotoSpan) (memory : PhotoMemory) : Keeps buffer memory memory :=
  fun _ _ => rfl

theorem Keeps.trans {buffer : PhotoSpan} {m₁ m₂ m₃ : PhotoMemory} (h : Keeps buffer m₁ m₂)
    (h' : Keeps buffer m₂ m₃) : Keeps buffer m₁ m₃ :=
  fun a ha => (h' a ha).trans (h a ha)

/-- A part of the part. -/
theorem Keeps.mono {buffer part : PhotoSpan} {memory memory' : PhotoMemory}
    (h : Keeps part memory memory') (hbegin : buffer.offset ≤ part.offset)
    (hend : part.offset + part.length ≤ buffer.offset + buffer.length) : Keeps buffer memory memory' := by
  intro a ha
  apply h
  omega

theorem receivePackage_keeps (answers : ℕ → PackageAnswer) (buffer : PhotoSpan) (memory : PhotoMemory) :
    Keeps buffer memory (receivePackage answers buffer memory).2 := by
  unfold receivePackage
  refine Loops.firstSome_rel (R := Keeps buffer) (Keeps.refl buffer) Keeps.trans ?_ memory
  intro j _ m a ha
  apply Memory.overwrite_of_disjoint
  rw [List.length_take]
  omega

/-- **The loop over the packages** stays in the buffer: after `i` packages each byte of data and
six bytes for each package have been used. -/
theorem packages_spec (answers : ℕ → ℕ → PackageAnswer) {buffer : PhotoSpan} {total count : ℕ}
    (hfits : total + 6 * count ≤ buffer.length) (n i : ℕ) (hn : i + n = count) (s : Received)
    (hdata : s.dataIndex ≤ total) (hindex : s.bufferIndex = s.dataIndex + 6 * i) :
    let t := (Loops.firstSome (packageTurn answers buffer total) (List.range' i n) s).2
    t.bufferIndex ≤ buffer.length ∧ Keeps buffer s.memory t.memory := by
  induction n generalizing i s with
  | zero => exact ⟨by simp only [List.range'_zero, Loops.firstSome_nil]; omega, Keeps.refl _ _⟩
  | succ n ih =>
    intro t
    let dataToTake := min (packageSize - 6) (total - s.dataIndex)
    have htake : dataToTake ≤ total - s.dataIndex := min_le_right _ _
    rcases hpackage : receivePackage (answers i) ⟨buffer.offset + s.bufferIndex, dataToTake + 6⟩ s.memory
      with ⟨result, memory⟩
    have hpart := receivePackage_keeps (answers i) ⟨buffer.offset + s.bufferIndex, dataToTake + 6⟩ s.memory
    rw [hpackage] at hpart
    have hkeeps : Keeps buffer s.memory memory :=
      hpart.mono (Nat.le_add_right _ _) (by dsimp only; omega)
    clear hpart
    cases result with
    | true =>
      -- the next package begins where this one ends
      have hturn : packageTurn answers buffer total s i =
          (none, ⟨memory, s.dataIndex + dataToTake, s.bufferIndex + dataToTake + 6⟩) := by
        simp only [packageTurn, dataToTake] at hpackage ⊢
        rw [hpackage]
        rfl
      have hrest := ih (i + 1) (by omega)
        ⟨memory, s.dataIndex + dataToTake, s.bufferIndex + dataToTake + 6⟩ (by dsimp only; omega)
        (by dsimp only; omega)
      simp only [t]
      rw [List.range'_succ, Loops.firstSome_cons_none hturn]
      exact ⟨hrest.1, hkeeps.trans hrest.2⟩
    | false =>
      -- the loop ends, and what has arrived of the package stays
      have hturn : packageTurn answers buffer total s i = (some (), { s with memory := memory }) := by
        simp only [packageTurn, dataToTake] at hpackage ⊢
        rw [hpackage]
        rfl
      simp only [t]
      rw [List.range'_succ, Loops.firstSome_cons_some hturn]
      exact ⟨by dsimp only; omega, hkeeps⟩

/-- **A download from the camera** writes only into its buffer, and the photo is a front part of
it. -/
theorem cameraReceiveJPEGData_spec (answers : PhotoAnswers) (buffer : PhotoSpan) (memory : PhotoMemory) :
    (cameraReceiveJPEGData answers buffer memory).1.offset = buffer.offset ∧
      (cameraReceiveJPEGData answers buffer memory).1.length ≤ buffer.length ∧
      Keeps buffer memory (cameraReceiveJPEGData answers buffer memory).2 := by
  unfold cameraReceiveJPEGData
  cases sendGetPictureJPEG answers.picture with
  | none => exact ⟨rfl, Nat.zero_le _, Keeps.refl _ _⟩
  | some dataLength =>
    dsimp only
    split
    · exact ⟨rfl, Nat.zero_le _, Keeps.refl _ _⟩
    · rename_i hfits
      -- the buffer has room for the data and six bytes for each package
      rw [List.range_eq_range']
      exact ⟨rfl, packages_spec answers.packages (not_lt.1 hfits) _ 0 (Nat.zero_add _) ⟨memory, 0, 0⟩
        (Nat.zero_le _) rfl⟩

theorem downloadPhoto_spec (answers : PhotoAnswers) (buffer : PhotoSpan) (memory : PhotoMemory) :
    Keeps buffer memory (downloadPhoto answers buffer memory).2 ∧
      ∀ photo, (downloadPhoto answers buffer memory).1 = .ok photo →
        photo.offset = buffer.offset ∧ photo.length ≤ buffer.length := by
  obtain ⟨hoffset, hlength, hkeeps⟩ := cameraReceiveJPEGData_spec answers buffer memory
  unfold downloadPhoto
  dsimp only
  split
  · refine ⟨hkeeps, ?_⟩
    intro photo h
    obtain rfl := Except.ok.inj h
    exact ⟨hoffset, hlength⟩
  · exact ⟨hkeeps, fun photo h => absurd h (by simp)⟩

end CameraDriver

namespace PhotoService

open CameraDriver

/-! ## Downloads -/

/-- The loop over the three tries. -/
theorem downloadLoop_spec (answers : ℕ → PhotoAnswers) (buffer : PhotoSpan) (memory : PhotoMemory) :
    let r := (Loops.firstSome (downloadTurn answers buffer) (List.range 3)
      ⟨.error .deviceNotFound, memory⟩).2
    Keeps buffer memory r.memory ∧
      ∀ photo, r.result = .ok photo → photo.offset = buffer.offset ∧ photo.length ≤ buffer.length := by
  let InBuffer (s : DownloadState) : Prop :=
    ∀ photo, s.result = .ok photo → photo.offset = buffer.offset ∧ photo.length ≤ buffer.length
  have hloop := @Loops.firstSome_rel DownloadState ℕ Unit (downloadTurn answers buffer)
    (fun s t => Keeps buffer s.memory t.memory ∧ (InBuffer s → InBuffer t))
    (fun s => ⟨Keeps.refl _ _, id⟩)
    (fun h h' => ⟨h.1.trans h'.1, fun hs => h'.2 (h.2 hs)⟩) (List.range 3)
    (fun i _ s => by
      have hspec := downloadPhoto_spec (answers i) buffer s.memory
      exact ⟨hspec.1, fun _ => hspec.2⟩)
    ⟨.error .deviceNotFound, memory⟩
  exact ⟨hloop.1, hloop.2 fun photo h => absurd h (by simp)⟩

variable {s : PhotoService}

@[simp] theorem select_memory (which : Camera) : (s.select which).memory = s.memory := by cases which <;> rfl
@[simp] theorem select_freeSpace (which : Camera) : (s.select which).freeSpace = s.freeSpace := by
  cases which <;> rfl
@[simp] theorem select_bufferInfos (which : Camera) : (s.select which).bufferInfos = s.bufferInfos := by
  cases which <;> rfl
@[simp] theorem select_downloads (which : Camera) : (s.select which).downloads = s.downloads := by
  cases which <;> rfl

/-- What a download does: the camera writes into the free part of the memory, and either returns
a photo at its start or none. -/
theorem downloadPhoto_cases (answers : ℕ → PhotoAnswers) (which : Camera) {bufferId : Byte}
    (h : bufferId.toNat < buffersCount) :
    let t := (downloadPhoto answers s which bufferId).2
    Keeps s.freeSpan s.memory t.memory ∧
    ((∃ photo : PhotoSpan, photo.offset = s.freeSpace ∧ photo.length ≤ photoBufferSize - s.freeSpace ∧
        t.freeSpace = s.freeSpace + photo.length ∧
        t.bufferInfos = Function.update s.bufferInfos ⟨bufferId.toNat, h⟩ ⟨.occupied, photo⟩ ∧
        t.downloads = s.downloads ++ [⟨⟨bufferId.toNat, h⟩, s.freeSpan,
          some (photo, Memory.block t.memory photo.offset photo.length)⟩]) ∨
      t.freeSpace = s.freeSpace ∧
        t.bufferInfos = Function.update s.bufferInfos ⟨bufferId.toNat, h⟩ ⟨.failed, ⟨0, 0⟩⟩ ∧
        t.downloads = s.downloads ++ [⟨⟨bufferId.toNat, h⟩, s.freeSpan, none⟩]) := by
  intro t
  have hspan : (s.select which).freeSpan = s.freeSpan := by rw [freeSpan, freeSpan, select_freeSpace]
  obtain ⟨hkeeps, hphoto⟩ := downloadLoop_spec answers s.freeSpan s.memory
  have ht : t = (downloadPhoto answers s which bufferId).2 := rfl
  unfold downloadPhoto at ht
  rw [dif_pos h] at ht
  dsimp only at ht
  rw [hspan, select_memory, select_bufferInfos, select_freeSpace, select_downloads] at ht
  split at ht
  · rename_i photo hresult
    obtain ⟨hoffset, hlength⟩ := hphoto photo hresult
    rw [ht]
    exact ⟨hkeeps, Or.inl ⟨photo, hoffset, hlength, rfl, rfl, rfl⟩⟩
  · rw [ht]
    exact ⟨hkeeps, Or.inr ⟨rfl, rfl, rfl⟩⟩

/-- A buffer that does not exist is refused. -/
theorem downloadPhoto_invalid (answers : ℕ → PhotoAnswers) (which : Camera) {bufferId : Byte}
    (h : ¬ bufferId.toNat < buffersCount) :
    downloadPhoto answers s which bufferId = (.invalidArgument, s) := by
  rw [downloadPhoto, dif_neg h]

/-! ## What is recorded -/

/-- The last download for a buffer since the last `Reset`. -/
def lastDownload (s : PhotoService) (id : Fin buffersCount) : Option Download :=
  (s.downloads.filter (·.bufferId = id)).getLast?

/-- What `_bufferInfos` says about a download. -/
def recorded : Option Download → BufferInfo
  | none => noBuffer
  | some d =>
    match d.photo with
    | some (span, _) => ⟨.occupied, span⟩
    | none => ⟨.failed, ⟨0, 0⟩⟩

theorem lastDownload_snoc {t : PhotoService} {d : Download} (h : t.downloads = s.downloads ++ [d])
    (id : Fin buffersCount) :
    t.lastDownload id = if d.bufferId = id then some d else s.lastDownload id := by
  unfold lastDownload
  rw [h, List.filter_append]
  by_cases hid : d.bufferId = id
  · rw [if_pos hid, List.filter_cons_of_pos (by simpa using hid), List.filter_nil, List.getLast?_append,
      List.getLast?_singleton]
    rfl
  · rw [if_neg hid, List.filter_cons_of_neg (by simpa using hid), List.filter_nil, List.append_nil]

theorem lastDownload_mem {id : Fin buffersCount} {d : Download} (h : s.lastDownload id = some d) :
    d ∈ s.downloads :=
  (List.mem_filter.1 (List.mem_of_getLast? h)).1

/-- The photos lie one behind the other below `_freeSpace`, hold what was downloaded, and are
what `_bufferInfos` says. -/
structure Inv (s : PhotoService) : Prop where
  top : s.freeSpace ≤ photoBufferSize
  below : ∀ d ∈ s.downloads, ∀ p ∈ d.photo, p.1.offset + p.1.length ≤ s.freeSpace
  begins : ∀ d ∈ s.downloads, ∀ p ∈ d.photo, p.1.offset = d.given.offset
  kept : ∀ d ∈ s.downloads, ∀ p ∈ d.photo, Memory.block s.memory p.1.offset p.1.length = p.2
  apart : s.downloads.Pairwise fun a b => ∀ p ∈ a.photo, p.1.offset + p.1.length ≤ b.given.offset
  infos : ∀ id, s.bufferInfos id = recorded (s.lastDownload id)

/-- Only the free part of the memory was written. -/
theorem Inv.kept_of_keeps (h : Inv s) {memory : PhotoMemory} (hkeeps : Keeps s.freeSpan s.memory memory)
    {d : Download} (hd : d ∈ s.downloads) {p : PhotoSpan × List Byte} (hp : p ∈ d.photo) :
    Memory.block memory p.1.offset p.1.length = p.2 := by
  rw [← h.kept d hd p hp]
  apply List.map_congr_left
  intro i hi
  have hlt := List.mem_range.1 hi
  have hbelow := h.below d hd p hp
  apply hkeeps
  left
  simp only [freeSpan]
  omega

/-- **One download** appends to what is recorded. -/
theorem Inv.snoc (h : Inv s) {t : PhotoService} {d : Download} {info : BufferInfo} {n : ℕ}
    (hgiven : d.given = s.freeSpan) (hkeeps : Keeps s.freeSpan s.memory t.memory)
    (hphoto : ∀ p ∈ d.photo, p.1.offset = s.freeSpace ∧ p.1.length = n ∧
      p.2 = Memory.block t.memory p.1.offset p.1.length)
    (hn : n ≤ photoBufferSize - s.freeSpace) (hfree : t.freeSpace = s.freeSpace + n)
    (hinfo : info = recorded (some d))
    (hinfos : t.bufferInfos = Function.update s.bufferInfos d.bufferId info)
    (hdownloads : t.downloads = s.downloads ++ [d]) : Inv t := by
  have htop := h.top
  constructor
  · omega
  · intro d' hd' p hp
    rw [hdownloads] at hd'
    rcases List.mem_append.1 hd' with hd' | hd'
    · have := h.below d' hd' p hp
      omega
    · obtain rfl := List.mem_singleton.1 hd'
      obtain ⟨hoffset, hlength, -⟩ := hphoto p hp
      omega
  · intro d' hd' p hp
    rw [hdownloads] at hd'
    rcases List.mem_append.1 hd' with hd' | hd'
    · exact h.begins d' hd' p hp
    · obtain rfl := List.mem_singleton.1 hd'
      rw [hgiven, (hphoto p hp).1]
      rfl
  · intro d' hd' p hp
    rw [hdownloads] at hd'
    rcases List.mem_append.1 hd' with hd' | hd'
    · exact h.kept_of_keeps hkeeps hd' hp
    · obtain rfl := List.mem_singleton.1 hd'
      exact (hphoto p hp).2.2.symm
  · -- all earlier photos end below the free part that the new one was given
    rw [hdownloads, List.pairwise_append]
    refine ⟨h.apart, List.pairwise_singleton _ _, ?_⟩
    intro a ha b hb p hp
    obtain rfl := List.mem_singleton.1 hb
    rw [hgiven]
    exact h.below a ha p hp
  · intro id
    rw [hinfos, lastDownload_snoc hdownloads]
    by_cases hid : d.bufferId = id
    · rw [if_pos hid, ← hid, Function.update_self, hinfo]
    · rw [if_neg hid, Function.update_of_ne (Ne.symm hid), h.infos id]

theorem downloadPhoto_inv (h : Inv s) (answers : ℕ → PhotoAnswers) (which : Camera) (bufferId : Byte) :
    Inv (downloadPhoto answers s which bufferId).2 := by
  by_cases hid : bufferId.toNat < buffersCount
  · obtain ⟨hkeeps, ⟨photo, hoffset, hlength, hfree, hinfos, hdownloads⟩ | ⟨hfree, hinfos, hdownloads⟩⟩ :=
      @downloadPhoto_cases s answers which bufferId hid
    · refine h.snoc rfl hkeeps ?_ hlength hfree rfl hinfos hdownloads
      intro p hp
      obtain rfl := Option.some.inj hp
      exact ⟨hoffset, rfl, rfl⟩
    · refine h.snoc rfl hkeeps ?_ (Nat.zero_le _) hfree rfl hinfos hdownloads
      intro p hp
      exact absurd hp (by simp)
  · rw [downloadPhoto_invalid answers which hid]
    exact h

/-! ## The other commands -/

/-- The buffers and their memory are as before. -/
structure SameBuffers (s t : PhotoService) : Prop where
  memory : t.memory = s.memory
  freeSpace : t.freeSpace = s.freeSpace
  bufferInfos : t.bufferInfos = s.bufferInfos
  downloads : t.downloads = s.downloads

theorem SameBuffers.refl (s : PhotoService) : SameBuffers s s := ⟨rfl, rfl, rfl, rfl⟩

theorem SameBuffers.trans {s t u : PhotoService} (h : SameBuffers s t) (h' : SameBuffers t u) :
    SameBuffers s u :=
  ⟨h'.memory.trans h.memory, h'.freeSpace.trans h.freeSpace, h'.bufferInfos.trans h.bufferInfos,
    h'.downloads.trans h.downloads⟩

theorem SameBuffers.inv {t : PhotoService} (h : SameBuffers s t) (hinv : Inv s) : Inv t := by
  have hlast : t.lastDownload = s.lastDownload := by
    funext id
    rw [lastDownload, lastDownload, h.downloads]
  obtain ⟨top, below, begins, kept, apart, infos⟩ := hinv
  constructor
  · rwa [h.freeSpace]
  · rwa [h.freeSpace, h.downloads]
  · rwa [h.downloads]
  · rwa [h.downloads, h.memory]
  · rwa [h.downloads]
  · rwa [h.bufferInfos, hlast]

theorem sameBuffers_select (which : Camera) : SameBuffers s (s.select which) :=
  ⟨select_memory which, select_freeSpace which, select_bufferInfos which, select_downloads which⟩

theorem sameBuffers_setSyncResult (syncResult : SyncResult) (which : Camera) :
    SameBuffers s (s.setSyncResult syncResult which) := by
  cases which <;> exact ⟨rfl, rfl, rfl, rfl⟩

theorem sameBuffers_enableCamera (powered : Bool) (syncResult : SyncResult) (which : Camera) :
    SameBuffers s (enableCamera powered syncResult s which).2 := by
  unfold enableCamera
  split
  · exact (sameBuffers_select which).trans (sameBuffers_setSyncResult syncResult which)
  · exact SameBuffers.refl s

theorem sameBuffers_takePhoto (answers : Answers) (which : Camera) :
    SameBuffers s (takePhoto answers s which).2 := by
  refine (sameBuffers_select which).trans ?_
  unfold takePhoto
  refine Loops.firstSome_rel (R := SameBuffers) SameBuffers.refl SameBuffers.trans ?_ (s.select which)
  intro i _ t
  unfold takeTurn
  split
  · exact SameBuffers.refl t
  · exact sameBuffers_enableCamera _ _ which

theorem sameBuffers_savePhoto (opened : Bool) (bufferId : Byte) (path : List Byte) :
    SameBuffers s (savePhoto opened s bufferId path).2 := by
  unfold savePhoto
  split
  · exact ⟨rfl, rfl, rfl, rfl⟩
  · exact SameBuffers.refl s

theorem reset_inv : Inv s.reset := by
  refine ⟨Nat.zero_le _, ?_, ?_, ?_, List.Pairwise.nil, fun _ => rfl⟩
  all_goals exact fun d hd => absurd hd List.not_mem_nil

theorem init_inv (memory : PhotoMemory) (selected : Camera) : Inv (init memory selected) := by
  refine ⟨Nat.zero_le _, ?_, ?_, ?_, List.Pairwise.nil, fun _ => rfl⟩
  all_goals exact fun d hd => absurd hd List.not_mem_nil

/-- **One command** keeps the invariant. -/
theorem invoke_inv (h : Inv s) (answers : Answers) (command : PhotoCommand) :
    Inv (invoke answers s command).2 := by
  cases command with
  | disableCamera which => exact h
  | enableCamera which => exact (sameBuffers_enableCamera _ _ which).inv h
  | takePhoto which resolution => exact (sameBuffers_takePhoto answers which).inv h
  | downloadPhoto which bufferId => exact downloadPhoto_inv h answers.downloads which bufferId
  | savePhoto bufferId path => exact (sameBuffers_savePhoto _ bufferId path).inv h
  | reset => exact reset_inv
  | sleep duration => exact h
  | breakSleep => exact h

theorem invokeAll_inv (h : Inv s) (commands : List (PhotoCommand × Answers)) :
    Inv (s.invokeAll commands) := by
  induction commands generalizing s with
  | nil => exact h
  | cons c commands ih => exact ih (invoke_inv h c.2 c.1)

/-! ## Photos -/

/-- What holds between any two commands. -/
structure Sound (s : PhotoService) : Prop where
  /-- Occupied buffers lie inside the photo memory. -/
  inside : ∀ id, (s.bufferInfos id).status = .occupied →
    (s.bufferInfos id).buffer.offset + (s.bufferInfos id).buffer.length ≤ photoBufferSize
  /-- A buffer is what the last download for it since the last `Reset` made it. -/
  infos : ∀ id, s.bufferInfos id = recorded (s.lastDownload id)
  /-- Later photos lie behind earlier ones. -/
  disjoint : s.downloads.Pairwise fun a b =>
    ∀ p ∈ a.photo, ∀ q ∈ b.photo, p.1.offset + p.1.length ≤ q.1.offset
  /-- The camera is never given the place of a photo again. -/
  notGiven : s.downloads.Pairwise fun a b => ∀ p ∈ a.photo, p.1.offset + p.1.length ≤ b.given.offset
  /-- All photos hold the bytes that were downloaded. -/
  kept : ∀ d ∈ s.downloads, ∀ p ∈ d.photo, Memory.block s.memory p.1.offset p.1.length = p.2
  /-- A download writes only into the free part of the photo memory. -/
  frame : ∀ answers which bufferId a, a < s.freeSpace ∨ photoBufferSize ≤ a →
    (downloadPhoto answers s which bufferId).2.memory a = s.memory a
  /-- An occupied buffer is saved with the bytes of the download that filled it. -/
  saved : ∀ (bufferId : Byte) (h : bufferId.toNat < buffersCount) (path : List Byte),
    (s.bufferInfos ⟨bufferId.toNat, h⟩).status = .occupied →
    ∃ d span bytes, s.lastDownload ⟨bufferId.toNat, h⟩ = some d ∧ d.photo = some (span, bytes) ∧
      (savePhoto true s bufferId path).2.files = s.files ++ [⟨path, bytes⟩]

/-- An occupied buffer holds a photo. -/
theorem Inv.occupied (h : Inv s) {id : Fin buffersCount} (ho : (s.bufferInfos id).status = .occupied) :
    ∃ d span bytes, s.lastDownload id = some d ∧ d.photo = some (span, bytes) ∧
      s.bufferInfos id = ⟨.occupied, span⟩ := by
  have hinfo := h.infos id
  rw [hinfo] at ho
  cases hd : s.lastDownload id with
  | none =>
    rw [hd] at ho
    exact absurd ho (by simp [recorded, noBuffer])
  | some d =>
    rw [hd] at ho hinfo
    cases hp : d.photo with
    | none =>
      simp only [recorded, hp] at ho
      exact absurd ho (by simp)
    | some p =>
      simp only [recorded, hp] at hinfo
      exact ⟨d, p.1, p.2, rfl, hp, hinfo⟩

theorem Inv.sound (h : Inv s) : Sound s := by
  constructor
  · intro id ho
    obtain ⟨d, span, bytes, hd, hp, hinfo⟩ := h.occupied ho
    have hbelow := h.below d (lastDownload_mem hd) (span, bytes) hp
    rw [hinfo]
    exact le_trans hbelow h.top
  · exact h.infos
  · refine h.apart.imp_of_mem ?_
    intro a b _ hb hab p hp q hq
    rw [h.begins b hb q hq]
    exact hab p hp
  · exact h.apart
  · exact h.kept
  · intro answers which bufferId a ha
    by_cases hid : bufferId.toNat < buffersCount
    · apply (@downloadPhoto_cases s answers which bufferId hid).1
      have htop := h.top
      simp only [freeSpan]
      omega
    · rw [downloadPhoto_invalid answers which hid]
  · intro bufferId hid path ho
    obtain ⟨d, span, bytes, hd, hp, hinfo⟩ := h.occupied ho
    refine ⟨d, span, bytes, hd, hp, ?_⟩
    have hbytes : Memory.block s.memory span.offset span.length = bytes :=
      h.kept d (lastDownload_mem hd) (span, bytes) hp
    simp only [savePhoto, photoContent, dif_pos hid, hinfo, if_true]
    rw [← hbytes]

/-- **Photo buffers never alias**, whatever commands are executed and whatever the camera
answers. -/
theorem photos_sound (memory : PhotoMemory) (selected : Camera)
    (commands : List (PhotoCommand × Answers)) : Sound ((init memory selected).invokeAll commands) :=
  (invokeAll_inv (init_inv memory selected) commands).sound

end PhotoService

end PWSat2OBC
