import Mathlib.Data.Nat.Digits.Lemmas
import PWSat2OBC.Proof.PhotoTask

/-!
# Photo telecommands and the queue of the photo service

* `pushes_find_place`: as long as each `TakePhoto` is handled when the queue has room for all
  its commands, no push finds the queue full; a `PurgePhoto` empties the queue first and always
  fits. The file names of one `TakePhoto` are complete and all different.
* `blocks_without_room`: without that room, the client stays in `Push` when the photo task
  makes no progress.
* `fourth_telecommand_blocks`: four `TakePhoto` with 29 photos each are enough, the first one
  waiting for its delay to pass.
-/

namespace PWSat2OBC

open Runs

/-! ## File names -/

namespace TakePhoto

/-- Reading the digits back. -/
def parseDecimal (digits : List Byte) : ℕ :=
  digits.foldl (fun n b => n * 10 + (b.toNat - 0x30)) 0

theorem parseDecimal_decimal (n : ℕ) : parseDecimal (decimal n) = n := by
  unfold decimal
  split
  · rename_i hzero
    rw [hzero]
    rfl
  · have hdigits : ∀ ds : List ℕ, (∀ d ∈ ds, d < 10) →
        parseDecimal (ds.reverse.map fun d => BitVec.ofNat 8 (0x30 + d)) = Nat.ofDigits 10 ds := by
      intro ds
      unfold parseDecimal
      rw [List.foldl_map, List.foldl_reverse]
      induction ds with
      | nil => intro _; rfl
      | cons d ds ih =>
        intro hds
        have hd := hds d List.mem_cons_self
        have hbyte : (BitVec.ofNat 8 (0x30 + d)).toNat - 0x30 = d := by
          rw [BitVec.toNat_ofNat]
          omega
        rw [List.foldr_cons, ih fun d' hd' => hds d' (List.mem_cons_of_mem d hd'), hbyte,
          Nat.ofDigits_cons]
        omega
    rw [hdigits _ fun d hd => Nat.digits_lt_base (by decide) hd, Nat.ofDigits_digits]

theorem length_decimal {n : ℕ} (h : n < 100) : (decimal n).length ≤ 2 := by
  unfold decimal
  split
  · decide
  · rw [List.length_map, List.length_reverse, Nat.digits_length_le_iff (by decide)]
    exact h

theorem fileName_injective (path : List Byte) : Function.Injective (fileName path) := by
  intro a b h
  have hdecimal := List.append_cancel_left h
  rw [← parseDecimal_decimal a, hdecimal, parseDecimal_decimal]

/-- What is known of accepted parameters. -/
theorem read_accepted {parameters : List Byte} {p : Parameters} (h : (read parameters).2 = some p) :
    p.count < 30 ∧ p.path.length ≤ 30 := by
  unfold read at h
  dsimp only at h
  split at h
  · exact absurd h (by simp)
  · rename_i hvalid
    obtain rfl := Option.some.inj h
    rw [Bool.or_eq_true, not_or, decide_eq_true_iff, not_le] at hvalid
    refine ⟨hvalid.2, ?_⟩
    unfold Reader.readString
    exact le_trans (List.takeWhile_sublist _).length_le (List.length_take_le _ _)

/-- The paths of the `SavePhoto` commands. -/
def savedPaths (requests : List PhotoRequest) : List (List Byte) :=
  requests.filterMap fun
    | .push (.savePhoto _ path) => some path
    | _ => none

/-- The file names that a telecommand asks for. -/
def acceptedNames (parameters : List Byte) : List (List Byte) :=
  match (read parameters).2 with
  | some p => (List.range p.count).map (fileName p.path)
  | none => []

/-- Names of this length are not cut. -/
theorem take_fileName {path : List Byte} {cx : ℕ} (hpath : path.length ≤ 30) (hcx : cx < 30) :
    (fileName path cx).take (PhotoRequest.pathSize - 1) = fileName path cx := by
  apply List.take_of_length_le
  have hdecimal := @length_decimal cx (by omega)
  simp only [fileName, PhotoRequest.pathSize, List.length_append, List.length_singleton]
  omega

theorem savedPaths_requests {p : Parameters} (hcount : p.count < 30) (hpath : p.path.length ≤ 30) :
    savedPaths p.requests = (List.range p.count).map (fileName p.path) := by
  have hloop : ∀ cxs : List ℕ, (∀ cx ∈ cxs, cx < 30) →
      savedPaths (cxs.flatMap (photoRequests p.cameraId p.resolution p.path)) =
        cxs.map (fileName p.path) := by
    intro cxs
    induction cxs with
    | nil => intro _; rfl
    | cons cx cxs ih =>
      intro hcxs
      have hrest := ih fun cx' h' => hcxs cx' (List.mem_cons_of_mem cx h')
      rw [List.flatMap_cons, List.map_cons, ← hrest,
        ← take_fileName hpath (hcxs cx List.mem_cons_self)]
      rfl
  have hrange := hloop (List.range p.count) fun cx h => lt_trans (List.mem_range.1 h) hcount
  unfold Parameters.requests
  unfold savedPaths at hrange ⊢
  rw [List.filterMap_append, List.filterMap_append, hrange]
  exact List.append_nil _

/-- The calls are made for accepted parameters only. -/
theorem handle_cases (parameters : List Byte) :
    (read parameters).2 = none ∧ (handle parameters).1 = [] ∨
      ∃ p, (read parameters).2 = some p ∧ (handle parameters).1 = p.requests := by
  unfold handle
  split
  · rename_i hempty
    rw [List.isEmpty_iff] at hempty
    subst hempty
    exact Or.inl ⟨by decide, rfl⟩
  · cases hread : read parameters with
    | mk correlationId accepted =>
      cases accepted with
      | none => exact Or.inl ⟨rfl, rfl⟩
      | some p => exact Or.inr ⟨p, rfl, rfl⟩

/-- **File names**: each `SavePhoto` has its complete name, and they all differ. -/
theorem savedPaths_takePhoto (parameters : List Byte) :
    savedPaths (PhotoTelecommand.takePhoto parameters).requests = acceptedNames parameters ∧
      (acceptedNames parameters).Nodup := by
  rw [PhotoTelecommand.requests, acceptedNames]
  rcases handle_cases parameters with ⟨hread, hhandle⟩ | ⟨p, hread, hhandle⟩
  · rw [hread, hhandle]
    exact ⟨rfl, List.nodup_nil⟩
  · obtain ⟨hcount, hpath⟩ := read_accepted hread
    rw [hread, hhandle]
    exact ⟨savedPaths_requests hcount hpath, List.nodup_range.map (fileName_injective p.path)⟩

/-- All calls of the handler are pushes. -/
theorem requests_takePhoto (parameters : List Byte) :
    ∃ commands : List PhotoCommand,
      (PhotoTelecommand.takePhoto parameters).requests = commands.map .push := by
  rw [PhotoTelecommand.requests]
  rcases handle_cases parameters with ⟨-, hhandle⟩ | ⟨p, -, hhandle⟩
  · exact ⟨[], hhandle⟩
  have hloop : ∀ cxs : List ℕ, ∃ commands : List PhotoCommand,
      cxs.flatMap (photoRequests p.cameraId p.resolution p.path) = commands.map .push := by
    intro cxs
    induction cxs with
    | nil => exact ⟨[], rfl⟩
    | cons cx cxs ih =>
      obtain ⟨commands, hcommands⟩ := ih
      refine ⟨[.takePhoto p.cameraId p.resolution, .downloadPhoto p.cameraId 0,
        .savePhoto 0 ((fileName p.path cx).take (PhotoRequest.pathSize - 1)), .reset] ++ commands, ?_⟩
      rw [List.flatMap_cons, hcommands, List.map_append]
      rfl
  obtain ⟨commands, hcommands⟩ := hloop (List.range p.count)
  refine ⟨[.reset, .sleep (p.delay * 1000), .enableCamera p.cameraId] ++ commands ++
    [.disableCamera p.cameraId, .reset], ?_⟩
  rw [hhandle, Parameters.requests, hcommands, List.map_append, List.map_append]
  rfl

end TakePhoto

/-! ## Room in the queue -/

namespace PhotoTask

/-- A push of the client finds a free place. -/
def FindsPlace (s : PhotoTask) : Prop :=
  match s.client with
  | .pushing _ | .pushingBreak => s.queue.length < capacity
  | _ => True

/-- Each `TakePhoto` is handled when there is room for all its commands; there are no other calls. -/
def Room (s : PhotoTask) : PhotoEvent → Prop
  | .telecommand (.takePhoto parameters) =>
    s.queue.length + (PhotoTelecommand.takePhoto parameters).requests.length ≤ capacity
  | .request _ => False
  | _ => True

instance (s : PhotoTask) (e : PhotoEvent) : Decidable (Room s e) :=
  match e with
  | .telecommand (.takePhoto _) => inferInstanceAs (Decidable (_ ≤ _))
  | .request _ => inferInstanceAs (Decidable False)
  | .telecommand (.purgePhoto _) | .client | .timeout | .task | .wake => inferInstanceAs (Decidable True)

/-- With `n` commands in the queue, the calls find room for theirs. -/
def Fits : ℕ → List PhotoRequest → Prop
  | _, [] => True
  | n, .push _ :: rs => n < capacity ∧ Fits (n + 1) rs
  | _, .purgePendingCommands :: rs => Fits 1 rs
  | n, .waitForFinish :: rs => Fits n rs

theorem Fits.mono {m n : ℕ} (h : m ≤ n) {rs : List PhotoRequest} (hfits : Fits n rs) : Fits m rs := by
  induction rs generalizing m n with
  | nil => trivial
  | cons r rs ih =>
    cases r with
    | push command => exact ⟨lt_of_le_of_lt h hfits.1, ih (Nat.succ_le_succ h) hfits.2⟩
    | purgePendingCommands => exact hfits
    | waitForFinish => exact ih h hfits

theorem fits_pushes {n : ℕ} {commands : List PhotoCommand} (h : n + commands.length ≤ capacity) :
    Fits n (commands.map .push) := by
  induction commands generalizing n with
  | nil => trivial
  | cons c commands ih =>
    rw [List.length_cons] at h
    exact ⟨by omega, ih (by omega)⟩

/-- A purge makes room for itself. -/
theorem fits_purgePhoto (n : ℕ) (parameters : List Byte) :
    Fits n (PhotoTelecommand.purgePhoto parameters).requests := by
  show Fits n (PurgePhoto.handle parameters).1
  unfold PurgePhoto.handle
  split
  · trivial
  · dsimp only
    split
    · trivial
    · exact ⟨by decide, by decide, by decide, trivial⟩

/-- What the client still has to push finds room. -/
def FitsFrom (n : ℕ) : ClientPc → List PhotoRequest → Prop
  | .pushing _, rs | .pushingBreak, rs => n < capacity ∧ Fits (n + 1) rs
  | .resetting, rs => Fits 1 rs
  | _, rs => Fits n rs

theorem FitsFrom.mono {m n : ℕ} (h : m ≤ n) {pc : ClientPc} {rs : List PhotoRequest}
    (hfits : FitsFrom n pc rs) : FitsFrom m pc rs := by
  cases pc with
  | pushing command => exact ⟨lt_of_le_of_lt h hfits.1, hfits.2.mono (Nat.succ_le_succ h)⟩
  | pushingBreak => exact ⟨lt_of_le_of_lt h hfits.1, hfits.2.mono (Nat.succ_le_succ h)⟩
  | resetting => exact hfits
  | _ => exact Fits.mono h hfits

/-- What the task does to the queue and to the client. -/
theorem TaskMove.client {s t : PhotoTask} (h : TaskMove s t) :
    t.queue.length ≤ s.queue.length ∧ t.requests = s.requests ∧
      (t.client = s.client ∨ s.client = .waiting ∧ t.client = .ready) := by
  cases h with
  | popped htask hqueue =>
    rw [hqueue]
    exact ⟨Nat.le_succ _, rfl, Or.inl rfl⟩
  | released htask hclient => exact ⟨le_rfl, rfl, Or.inr ⟨hclient, rfl⟩⟩
  | _ => exact ⟨le_rfl, rfl, Or.inl rfl⟩

theorem begin_fits {n : ℕ} {r : PhotoRequest} {rs : List PhotoRequest} (h : Fits n (r :: rs)) :
    FitsFrom n (begin r) rs := by
  cases r <;> exact h

/-- There is room for all that the client still has to push. -/
def HasRoom (s : PhotoTask) : Prop := FitsFrom s.queue.length s.client s.requests

/-- The client keeps room for the rest. -/
theorem ClientMove.hasRoom {s t : PhotoTask} (h : ClientMove s t) (hroom : HasRoom s) : HasRoom t := by
  unfold HasRoom at hroom ⊢
  cases h with
  | begun hclient hrequests =>
    rw [hclient, hrequests] at hroom
    exact begin_fits hroom
  | pushed hclient hlt =>
    rw [hclient] at hroom
    rw [List.length_append, List.length_singleton]
    exact hroom.2
  | reset hclient =>
    rw [hclient] at hroom
    exact ⟨show 0 < capacity by decide, hroom⟩
  | pushedBreak hclient hlt =>
    rw [hclient] at hroom
    rw [List.length_append, List.length_singleton]
    exact hroom.2
  | cleared hclient => rw [hclient] at hroom; exact hroom
  | woke hclient htask => rw [hclient] at hroom; exact hroom
  | setBreak hclient => rw [hclient] at hroom; exact hroom
  | released hclient hidle => rw [hclient] at hroom; exact hroom
  | waits hclient => rw [hclient] at hroom; exact hroom

/-- **One step** keeps room for what is still to be pushed. -/
theorem step_hasRoom {s t : PhotoTask} {e : PhotoEvent} (h : HasRoom s) (hroom : Room s e)
    (hs : step s e = some t) : HasRoom t := by
  unfold HasRoom at h ⊢
  cases e with
  | telecommand telecommand =>
    obtain ⟨hready, rfl⟩ := telecommand_cases hs
    simp only [hready]
    cases telecommand with
    | takePhoto parameters =>
      obtain ⟨commands, hcommands⟩ := TakePhoto.requests_takePhoto parameters
      simp only [Room, hcommands, List.length_map] at hroom
      simp only [hcommands]
      exact fits_pushes hroom
    | purgePhoto parameters => exact fits_purgePhoto _ parameters
  | request r => exact absurd hroom id
  | client => exact (clientStep_move hs).hasRoom h
  | timeout =>
    obtain ⟨hwaiting, rfl⟩ := timeout_cases hs
    rw [hwaiting] at h
    exact h
  | task =>
    obtain ⟨hqueue, hrequests, hclient | ⟨hwaiting, hready⟩⟩ := (taskStep_move hs).client
    · rw [hclient, hrequests]
      exact h.mono hqueue
    · rw [hready, hrequests]
      rw [hwaiting] at h
      exact Fits.mono hqueue h
  | wake =>
    obtain ⟨q, -, rfl⟩ := wake_cases hs
    exact h

theorem HasRoom.findsPlace {s : PhotoTask} (h : HasRoom s) : FindsPlace s := by
  unfold HasRoom at h
  unfold FindsPlace
  cases hclient : s.client with
  | pushing command => rw [hclient] at h; exact h.1
  | pushingBreak => rw [hclient] at h; exact h.1
  | _ => trivial

/-! ## Without room -/

/-- When the photo task makes no progress, the client pushes as many commands as there is room
for. -/
theorem run_pushes (commands : List PhotoCommand) (rest : List PhotoRequest) (s : PhotoTask)
    (hclient : s.client = .ready) (hrequests : s.requests = commands.map .push ++ rest)
    (hroom : s.queue.length + commands.length ≤ capacity) :
    ∃ t, Run step always s (List.replicate (3 * commands.length) .client) t ∧
      t.queue = s.queue ++ commands.map (⟨·, s.purges⟩) ∧ t.client = .ready ∧ t.requests = rest ∧
      t.task = s.task ∧ t.breakSleepFlag = s.breakSleepFlag := by
  induction commands generalizing s with
  | nil => exact ⟨s, .nil, (List.append_nil _).symm, hclient, hrequests, rfl, rfl⟩
  | cons c commands ih =>
    rw [List.length_cons] at hroom
    -- the call begins, pushes the command and clears the flag
    let u : PhotoTask := { s with
      queue := s.queue ++ [⟨c, s.purges⟩], idleFlag := false, client := .ready,
      requests := commands.map .push ++ rest }
    have hfirst : Run step always s [.client, .client, .client] u := by
      apply run_of_exec
      have hlt : s.queue.length < capacity := by omega
      simp [exec, step, clientStep, hclient, hrequests, always, begin, hlt, u]
    obtain ⟨t, hrun, hqueue, htclient, htrequests, htask, hflag⟩ :=
      ih u rfl rfl (by simp only [u, List.length_append, List.length_singleton]; omega)
    refine ⟨t, ?_, ?_, htclient, htrequests, htask, hflag⟩
    · rw [List.length_cons, Nat.mul_succ, Nat.add_comm, List.replicate_add]
      exact hfirst.trans hrun
    · rw [hqueue, List.map_cons, List.append_cons]

/-- The client is stuck in `Push`. -/
def Stuck (s : PhotoTask) : Prop := ¬ FindsPlace s ∧ step s .client = none

/-- **Without room** for all commands, a client whose photo task makes no progress gets stuck. -/
theorem blocks_without_room (s : PhotoTask) (hclient : s.client = .ready) {commands : List PhotoCommand}
    (hrequests : s.requests = commands.map .push) (hqueue : s.queue.length ≤ capacity)
    (hroom : capacity < s.queue.length + commands.length) :
    ∃ n t, Run step always s (List.replicate n .client) t ∧ Stuck t := by
  let k := capacity - s.queue.length
  have hk : k < commands.length := by omega
  obtain ⟨t, hrun, htqueue, htclient, htrequests, -, -⟩ :=
    run_pushes (commands.take k) ((commands.drop k).map .push) s hclient
      (by rw [← List.map_append, List.take_append_drop, hrequests])
      (by rw [List.length_take]; omega)
  rw [List.drop_eq_getElem_cons hk, List.map_cons] at htrequests
  let u : PhotoTask := { t with
    client := .pushing commands[k], requests := (commands.drop (k + 1)).map .push }
  have hlast : Run step always t [.client] u := by
    apply run_of_exec
    simp [exec, step, clientStep, htclient, htrequests, always, begin, u]
  have hfull : ¬ u.queue.length < capacity := by
    simp only [u, htqueue, List.length_append, List.length_map, List.length_take]
    omega
  refine ⟨3 * (commands.take k).length + 1, u, ?_, hfull, ?_⟩
  · rw [List.replicate_succ']
    exact hrun.trans hlast
  · show clientStep u = none
    simp only [clientStep, u]
    exact if_neg hfull

/-! ## Runs -/

/-- **Telecommands never block** as long as each `TakePhoto` finds room for all its commands; and
the names of its files are complete and differ. -/
theorem pushes_find_place {es : List PhotoEvent} {s : PhotoTask} (h : Run step Room init es s) :
    FindsPlace s ∧ ∀ parameters,
      TakePhoto.savedPaths (PhotoTelecommand.takePhoto parameters).requests =
          TakePhoto.acceptedNames parameters ∧
        (TakePhoto.acceptedNames parameters).Nodup := by
  have hinit : HasRoom init := trivial
  have hroom : HasRoom s := h.inv hinit fun _ _ _ hinv hok hs => step_hasRoom hinv hok hs
  exact ⟨hroom.findsPlace, TakePhoto.savedPaths_takePhoto⟩

/-- A photo is asked for, its commands are pushed, and the first command of another telecommand for two
photos is about to be pushed behind them. -/
theorem pushes_find_place_second :
    ∃ s : PhotoTask, s.client = .pushing .reset ∧ s.queue.length = 9 ∧ FindsPlace s := by
  let es : List PhotoEvent := .telecommand (.takePhoto [7, 0, 3, 1, 0, 0, 0x61]) ::
    (List.replicate 27 .client ++ [.telecommand (.takePhoto [8, 1, 2, 2, 10, 0, 0x62]), .client])
  have hrun : ∃ s, Run step Room init es s ∧ s.client = .pushing .reset ∧ s.queue.length = 9 :=
    exists_run_of_exec es (by decide +kernel)
  obtain ⟨s, hrun, hclient, hqueue⟩ := hrun
  exact ⟨s, hclient, hqueue, (pushes_find_place hrun).1⟩

/-- The parameters of a telecommand for 29 photos after 65535 seconds. -/
def manyPhotos : List Byte := [7, 0, 3, 29, 0xFF, 0xFF, 0x61]

/-- The commands it pushes. -/
def manyCommands : List PhotoCommand :=
  (PhotoTelecommand.takePhoto manyPhotos).requests.filterMap fun
    | .push command => some command
    | _ => none

/-- Nothing but these telecommands and the operations of the client and of the task. -/
def OnlyManyPhotos (es : List PhotoEvent) : Prop :=
  ∀ e ∈ es, e = .telecommand (.takePhoto manyPhotos) ∨ e = .client ∨ e = .task

theorem OnlyManyPhotos.append {es es' : List PhotoEvent} (h : OnlyManyPhotos es)
    (h' : OnlyManyPhotos es') : OnlyManyPhotos (es ++ es') := by
  intro e he
  rcases List.mem_append.1 he with he | he
  · exact h e he
  · exact h' e he

/-- The task takes two commands, the second of which is a sleep. -/
theorem run_to_sleep (s : PhotoTask) (htask : s.task = .polling) (hflag : s.breakSleepFlag = none)
    {k : ℕ} {duration : ℤ} {rest : List Queued}
    (hqueue : s.queue = ⟨.reset, k⟩ :: ⟨.sleep duration, k⟩ :: rest) :
    Run step always s [.task, .task, .task, .task, .task, .task]
      { s with queue := rest, idleFlag := false, task := .sleeping ⟨.sleep duration, k⟩ } := by
  apply run_of_exec
  simp [exec, step, taskStep, htask, hflag, hqueue, always]

/-- A client that is ready handles a telecommand that finds room, while the task does nothing. -/
theorem run_telecommand (s : PhotoTask) (hclient : s.client = .ready) (hrequests : s.requests = [])
    (hcommands : (PhotoTelecommand.takePhoto manyPhotos).requests = manyCommands.map .push)
    (hroom : s.queue.length + manyCommands.length ≤ capacity) :
    ∃ es u, Run step always s es u ∧ OnlyManyPhotos es ∧
      u.queue = s.queue ++ manyCommands.map (⟨·, s.purges⟩) ∧ u.client = .ready ∧ u.requests = [] ∧
      u.task = s.task ∧ u.breakSleepFlag = s.breakSleepFlag := by
  let t : PhotoTask := { s with requests := (PhotoTelecommand.takePhoto manyPhotos).requests }
  have hfirst : Run step always s [.telecommand (.takePhoto manyPhotos)] t := by
    apply run_of_exec
    simp [exec, step, hclient, hrequests, always, t]
  obtain ⟨u, hrun, hu⟩ := run_pushes manyCommands [] t hclient (by simp [t, hcommands]) hroom
  refine ⟨_, u, hfirst.trans hrun, ?_, hu⟩
  intro e he
  rcases List.mem_append.1 he with he | he
  · exact Or.inl (List.mem_singleton.1 he)
  · exact Or.inr (Or.inl (List.eq_of_mem_replicate he))

/-- **Four telecommands** for 29 photos each: the first one sleeps, and the fourth gets stuck in
`Push`. -/
theorem fourth_telecommand_blocks :
    ∃ es s, Run step always init es s ∧ OnlyManyPhotos es ∧ Stuck s := by
  have hcommands : (PhotoTelecommand.takePhoto manyPhotos).requests = manyCommands.map .push := by
    decide +kernel
  have hlength : manyCommands.length = 121 := by decide +kernel
  have hhead : manyCommands = .reset :: .sleep 65535000 :: manyCommands.drop 2 := by decide +kernel
  have hcapacity : capacity = 400 := rfl
  obtain ⟨es₁, s₁, hrun₁, hes₁, hqueue₁, hclient₁, hrequests₁, htask₁, hflag₁⟩ :=
    run_telecommand init rfl rfl hcommands (by rw [hlength]; decide)
  -- the task begins to sleep
  rw [hhead] at hqueue₁
  let s₁' : PhotoTask := { s₁ with
    queue := (manyCommands.drop 2).map (⟨·, 0⟩), idleFlag := false, task := .sleeping ⟨.sleep 65535000, 0⟩ }
  have hsleep : Run step always s₁ (List.replicate 6 .task) s₁' :=
    run_to_sleep s₁ htask₁ hflag₁ hqueue₁
  have hlength₁ : s₁'.queue.length = 119 := by
    rw [List.length_map, List.length_drop, hlength]
  obtain ⟨es₂, s₂, hrun₂, hes₂, hqueue₂, hclient₂, hrequests₂, -, -⟩ :=
    run_telecommand s₁' hclient₁ hrequests₁ hcommands (by omega)
  have hlength₂ : s₂.queue.length = 119 + 121 := by
    rw [hqueue₂, List.length_append, hlength₁, List.length_map, hlength]
  obtain ⟨es₃, s₃, hrun₃, hes₃, hqueue₃, hclient₃, hrequests₃, -, -⟩ :=
    run_telecommand s₂ hclient₂ hrequests₂ hcommands (by omega)
  have hlength₃ : s₃.queue.length = 119 + 121 + 121 := by
    rw [hqueue₃, List.length_append, hlength₂, List.length_map, hlength]
  -- the fourth telecommand
  let u : PhotoTask := { s₃ with requests := (PhotoTelecommand.takePhoto manyPhotos).requests }
  have hlast : Run step always s₃ [.telecommand (.takePhoto manyPhotos)] u := by
    apply run_of_exec
    simp [exec, step, hclient₃, hrequests₃, always, u]
  obtain ⟨n, t, hrun, hstuck⟩ :=
    blocks_without_room u hclient₃ hcommands (by simp only [u]; omega) (by simp only [u]; omega)
  have htask : OnlyManyPhotos (List.replicate 6 .task) :=
    fun e he => Or.inr (Or.inr (List.eq_of_mem_replicate he))
  have hfourth : OnlyManyPhotos [.telecommand (.takePhoto manyPhotos)] :=
    fun e he => Or.inl (List.mem_singleton.1 he)
  have hclient : OnlyManyPhotos (List.replicate n .client) :=
    fun e he => Or.inr (Or.inl (List.eq_of_mem_replicate he))
  exact ⟨_, t, ((((hrun₁.trans hsleep).trans hrun₂).trans hrun₃).trans hlast).trans hrun,
    ((((hes₁.append htask).append hes₂).append hes₃).append hfourth).append hclient, hstuck⟩

end PhotoTask

end PWSat2OBC
