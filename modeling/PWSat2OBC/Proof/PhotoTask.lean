import PWSat2OBC.Lib.Runs
import PWSat2OBC.Spec.PhotoTask

/-!
# Idle signalling and purges of the photo task

`TaskMove` and `ClientMove` say what an operation of the task and of the client does.

* `signals_sound`: in runs in which the flags are set and cleared in time (`Timely`),
  `WaitForFinish` succeeds only when all commands are done, the idle flag is set while the task
  waits for a command, and a purge cuts no sleep that was pushed after it.
* `signals_lost`: each of the three fails when the other side runs between two operations that
  belong together: the failing `Pop` and `Set(IdleFlag)`, `Push` and `Clear(IdleFlag)`, or the
  `Push` of a `Break` and `Set(BreakSleepFlag)`.
-/

namespace PWSat2OBC.PhotoTask

open Runs

variable {s t : PhotoTask}

/-! ## Moves -/

/-- What an operation of the task does. -/
inductive TaskMove (s : PhotoTask) : PhotoTask → Prop
  | foundEmpty : s.task = .polling → s.queue = [] → TaskMove s { s with task := .settingIdle }
  | popped {q : Queued} {rest : List Queued} : s.task = .polling ∨ s.task = .blocked →
      s.queue = q :: rest → TaskMove s { s with queue := rest, task := .clearing q }
  | idle : s.task = .settingIdle → s.client ≠ .waiting →
      TaskMove s { s with idleFlag := true, task := .blocked }
  | released : s.task = .settingIdle → s.client = .waiting →
      TaskMove s (returned { s with idleFlag := true, task := .blocked } true)
  | cleared {q : Queued} : s.task = .clearing q →
      TaskMove s { s with idleFlag := false, task := .invoking q }
  | cut {q : Queued} {purge : ℕ} : s.task = .invoking q → q.command ≠ .breakSleep →
      s.breakSleepFlag = some purge → TaskMove s (s.cutSleep q purge)
  | slept {q : Queued} : s.task = .invoking q → q.command ≠ .breakSleep →
      TaskMove s { s with task := .sleeping q }
  | broke {q : Queued} : s.task = .invoking q → q.command = .breakSleep →
      TaskMove s { s with breakSleepFlag := none, task := .polling }
  | done {q : Queued} : s.task = .invoking q → q.command ≠ .breakSleep →
      TaskMove s { s with task := .polling }

theorem taskStep_move (h : s.taskStep = some t) : TaskMove s t := by
  unfold taskStep at h
  cases htask : s.task with
  | polling =>
    cases hqueue : s.queue with
    | nil =>
      simp only [htask, hqueue] at h
      obtain rfl := Option.some.inj h
      have := TaskMove.foundEmpty htask hqueue
      rwa [hqueue] at this
    | cons q rest =>
      simp only [htask, hqueue] at h
      obtain rfl := Option.some.inj h
      exact .popped (Or.inl htask) hqueue
  | settingIdle =>
    simp only [htask] at h
    split at h
    · rename_i hwaiting
      obtain rfl := Option.some.inj h
      exact .released htask hwaiting
    · rename_i hwaiting
      obtain rfl := Option.some.inj h
      exact .idle htask hwaiting
  | blocked =>
    cases hqueue : s.queue with
    | nil => simp [htask, hqueue] at h
    | cons q rest =>
      simp only [htask, hqueue] at h
      obtain rfl := Option.some.inj h
      exact .popped (Or.inr htask) hqueue
  | clearing q =>
    simp only [htask] at h
    obtain rfl := Option.some.inj h
    exact .cleared htask
  | invoking q =>
    simp only [htask] at h
    split at h
    · rename_i hsleep
      split at h
      · rename_i hflag
        obtain rfl := Option.some.inj h
        exact .cut htask (by rw [hsleep]; simp) hflag
      · obtain rfl := Option.some.inj h
        exact .slept htask (by rw [hsleep]; simp)
    · rename_i hbreak
      obtain rfl := Option.some.inj h
      exact .broke htask hbreak
    · rename_i hother
      obtain rfl := Option.some.inj h
      exact .done htask hother
  | sleeping q => simp [htask] at h

/-- What an operation of the client does. -/
inductive ClientMove (s : PhotoTask) : PhotoTask → Prop
  | begun {r : PhotoRequest} {rest : List PhotoRequest} : s.client = .ready → s.requests = r :: rest →
      ClientMove s { s with client := begin r, requests := rest }
  | pushed {command : PhotoCommand} : s.client = .pushing command → s.queue.length < capacity →
      ClientMove s { s with queue := s.queue ++ [⟨command, s.purges⟩], client := .clearing }
  | cleared : s.client = .clearing → ClientMove s { s with idleFlag := false, client := .ready }
  | reset : s.client = .resetting →
      ClientMove s { s with queue := [], purges := s.purges + 1, client := .pushingBreak }
  | pushedBreak : s.client = .pushingBreak → s.queue.length < capacity →
      ClientMove s { s with queue := s.queue ++ [⟨.breakSleep, s.purges⟩], client := .settingBreak }
  | woke {q : Queued} : s.client = .settingBreak → s.task = .sleeping q →
      ClientMove s { s.cutSleep q s.purges with client := .clearing }
  | setBreak : s.client = .settingBreak →
      ClientMove s { s with breakSleepFlag := some s.purges, client := .clearing }
  | released : s.client = .checking → s.idleFlag = true → ClientMove s (s.returned true)
  | waits : s.client = .checking → ClientMove s { s with client := .waiting }

theorem clientStep_move (h : s.clientStep = some t) : ClientMove s t := by
  unfold clientStep at h
  cases hclient : s.client with
  | ready =>
    cases hrequests : s.requests with
    | nil => simp [hclient, hrequests] at h
    | cons r rest =>
      simp only [hclient, hrequests] at h
      obtain rfl := Option.some.inj h
      exact .begun hclient hrequests
  | pushing command =>
    simp only [hclient] at h
    split at h
    · rename_i hroom
      obtain rfl := Option.some.inj h
      exact .pushed hclient hroom
    · exact absurd h (by simp)
  | clearing =>
    simp only [hclient] at h
    obtain rfl := Option.some.inj h
    exact .cleared hclient
  | resetting =>
    simp only [hclient] at h
    obtain rfl := Option.some.inj h
    exact .reset hclient
  | pushingBreak =>
    simp only [hclient] at h
    split at h
    · rename_i hroom
      obtain rfl := Option.some.inj h
      exact .pushedBreak hclient hroom
    · exact absurd h (by simp)
  | settingBreak =>
    simp only [hclient] at h
    split at h
    · rename_i q htask
      obtain rfl := Option.some.inj h
      exact .woke hclient htask
    · obtain rfl := Option.some.inj h
      exact .setBreak hclient
  | checking =>
    simp only [hclient] at h
    split at h
    · rename_i hidle
      obtain rfl := Option.some.inj h
      exact .released hclient hidle
    · obtain rfl := Option.some.inj h
      exact .waits hclient
  | waiting => simp [hclient] at h

/-- The client begins with the calls of a telecommand. -/
theorem telecommand_cases {telecommand : PhotoTelecommand} (h : step s (.telecommand telecommand) = some t) :
    s.client = .ready ∧ t = { s with requests := telecommand.requests } := by
  simp only [step] at h
  split at h
  · rename_i hready
    exact ⟨hready.1, (Option.some.inj h).symm⟩
  · exact absurd h (by simp)

/-- Any other call. -/
theorem request_cases {r : PhotoRequest} (h : step s (.request r) = some t) :
    t = { s with requests := [r] } := by
  simp only [step] at h
  split at h
  · exact (Option.some.inj h).symm
  · exact absurd h (by simp)

/-- The wait of the client ends without the flag. -/
theorem timeout_cases (h : step s .timeout = some t) :
    s.client = .waiting ∧ t = s.returned s.idleFlag := by
  simp only [step] at h
  split at h
  · rename_i hwaiting
    exact ⟨hwaiting, (Option.some.inj h).symm⟩
  · exact absurd h (by simp)

/-- The sleep of the task is over. -/
theorem wake_cases (h : step s .wake = some t) :
    ∃ q, s.task = .sleeping q ∧ t = { s with task := .polling } := by
  simp only [step] at h
  split at h
  · rename_i q htask
    exact ⟨q, htask, (Option.some.inj h).symm⟩
  · exact absurd h (by simp)

/-! ## What the signals should say -/

/-- The signals are right. -/
structure Signals (s : PhotoTask) : Prop where
  /-- `WaitForFinish` succeeds only when all commands are done or purged. -/
  finished : ∀ w ∈ s.waits, w.result = true → w.pending = []
  /-- While the task waits for a command and there is none, the idle flag is set. -/
  idle : s.task = .blocked → s.queue = [] → s.idleFlag = true
  /-- A sleep that was pushed after a purge is not ended by it. -/
  uncut : ∀ c ∈ s.cuts, c.sleep.purges < c.purge

/-- The client is in a call that ends with `Clear(IdleFlag)`. -/
def owesClear : ClientPc → Bool
  | .pushing _ | .clearing | .resetting | .pushingBreak | .settingBreak => true
  | _ => false

/-- The flags are set and cleared in time: the task sets the idle flag while there is still no
command, or before the client clears it again; the client clears it, or empties the queue, before
the task has run out of commands again; and it sets the break flag before the `Break` is done. -/
def Timely (s : PhotoTask) : PhotoEvent → Prop
  | .task => s.task = .settingIdle → s.queue = [] ∨ owesClear s.client = true
  | .client =>
    (s.client = .clearing → ¬ (s.task = .blocked ∧ s.queue = [])) ∧
      (s.client = .resetting → s.task = .blocked → s.queue = [] ∨ s.idleFlag = true) ∧
      (s.client = .settingBreak → ∃ q ∈ s.pending, q.command = .breakSleep)
  | _ => True

instance (s : PhotoTask) (e : PhotoEvent) : Decidable (Timely s e) :=
  match e with
  | .task => inferInstanceAs (Decidable (_ → _))
  | .client => inferInstanceAs (Decidable (_ ∧ _ ∧ _))
  | .telecommand _ | .request _ | .timeout | .wake => inferInstanceAs (Decidable True)

/-! ## The idle flag -/

/-- While the idle flag is set, all commands are done, or the client will clear it. -/
structure IdleInv (s : PhotoTask) : Prop where
  finished : ∀ w ∈ s.waits, w.result = true → w.pending = []
  done : s.idleFlag = true → s.pending = [] ∨ owesClear s.client = true
  blocked : s.task = .blocked → s.queue = [] → s.idleFlag = true

/-- A wait ends with success only when all commands are done. -/
theorem returned_finished {result : Bool} (h : ∀ w ∈ s.waits, w.result = true → w.pending = [])
    (hdone : result = true → s.pending = []) :
    ∀ w ∈ (s.returned result).waits, w.result = true → w.pending = [] := by
  intro w hw
  rcases List.mem_append.1 hw with hw | hw
  · exact h w hw
  · obtain rfl := List.mem_singleton.1 hw
    exact hdone

/-- The task still holds a command. -/
theorem pending_ne_nil {q : Queued} (h : held s.task = some q) : s.pending ≠ [] := by
  rw [pending, h]
  exact List.cons_ne_nil q s.queue

theorem TaskMove.idleInv (h : TaskMove s t) (hinv : IdleInv s)
    (htimely : s.task = .settingIdle → s.queue = [] ∨ owesClear s.client = true) : IdleInv t := by
  obtain ⟨hfinished, hdone, hblocked⟩ := hinv
  -- a task that holds a command: if the idle flag is set, the client will clear it
  have howes : ∀ q, held s.task = some q → s.idleFlag = true → owesClear s.client = true :=
    fun q hq hidle => (hdone hidle).resolve_left (pending_ne_nil hq)
  cases h with
  | foundEmpty htask hqueue =>
    refine ⟨hfinished, ?_, fun h => absurd h (by simp)⟩
    intro hidle
    exact Or.inl (by simp [pending, held, hqueue])
  | @popped q rest htask hqueue =>
    refine ⟨hfinished, ?_, fun h => absurd h (by simp)⟩
    intro hidle
    have hheld : held s.task = none := by rcases htask with h | h <;> rw [h] <;> rfl
    refine (hdone hidle).imp_left fun hpending => ?_
    rw [pending, hheld, hqueue] at hpending
    exact absurd hpending (List.cons_ne_nil q rest)
  | idle htask hclient =>
    exact ⟨hfinished, fun _ => htimely htask, fun _ _ => rfl⟩
  | released htask hclient =>
    have hempty : s.queue = [] := by
      rcases htimely htask with h | h
      · exact h
      · rw [hclient] at h
        exact absurd h (by decide)
    exact ⟨returned_finished hfinished fun _ => hempty, fun _ => Or.inl hempty, fun _ _ => rfl⟩
  | cleared htask =>
    exact ⟨hfinished, fun h => absurd h (by simp), fun h => absurd h (by simp)⟩
  | @cut q purge htask hsleep hflag =>
    exact ⟨hfinished, fun hidle => Or.inr (howes q (by rw [htask]; rfl) hidle),
      fun h => absurd h (by simp [cutSleep])⟩
  | @slept q htask hsleep =>
    exact ⟨hfinished, fun hidle => Or.inr (howes q (by rw [htask]; rfl) hidle),
      fun h => absurd h (by simp)⟩
  | @broke q htask hbreak =>
    exact ⟨hfinished, fun hidle => Or.inr (howes q (by rw [htask]; rfl) hidle),
      fun h => absurd h (by simp)⟩
  | @done q htask hother =>
    exact ⟨hfinished, fun hidle => Or.inr (howes q (by rw [htask]; rfl) hidle),
      fun h => absurd h (by simp)⟩

theorem ClientMove.idleInv (h : ClientMove s t) (hinv : IdleInv s) (htimely : Timely s .client) :
    IdleInv t := by
  obtain ⟨hfinished, hdone, hblocked⟩ := hinv
  obtain ⟨hclearing, hresetting, -⟩ := htimely
  -- a client that owes no clear: if the idle flag is set, all commands are done
  have hempty : owesClear s.client = false → s.idleFlag = true → s.pending = [] := by
    intro howes hidle
    refine (hdone hidle).resolve_right ?_
    rw [howes]
    decide
  cases h with
  | @begun r rest hclient hrequests =>
    refine ⟨hfinished, fun hidle => Or.inl ?_, hblocked⟩
    exact hempty (by rw [hclient]; rfl) hidle
  | pushed hclient hroom =>
    refine ⟨hfinished, fun _ => Or.inr rfl, fun _ hqueue => ?_⟩
    exact absurd hqueue (List.append_ne_nil_of_right_ne_nil _ (List.cons_ne_nil _ _))
  | cleared hclient =>
    refine ⟨hfinished, fun h => absurd h (by simp), fun htask hqueue => ?_⟩
    exact absurd ⟨htask, hqueue⟩ (hclearing hclient)
  | reset hclient =>
    refine ⟨hfinished, fun _ => Or.inr rfl, fun htask _ => ?_⟩
    rcases hresetting hclient htask with hqueue | hidle
    · exact hblocked htask hqueue
    · exact hidle
  | pushedBreak hclient hroom =>
    refine ⟨hfinished, fun _ => Or.inr rfl, fun _ hqueue => ?_⟩
    exact absurd hqueue (List.append_ne_nil_of_right_ne_nil _ (List.cons_ne_nil _ _))
  | woke hclient htask =>
    exact ⟨hfinished, fun _ => Or.inr rfl, fun h => absurd h (by simp [cutSleep])⟩
  | setBreak hclient => exact ⟨hfinished, fun _ => Or.inr rfl, hblocked⟩
  | released hclient hidle =>
    have hpending := hempty (by rw [hclient]; rfl) hidle
    exact ⟨returned_finished hfinished fun _ => hpending, fun _ => Or.inl hpending, hblocked⟩
  | waits hclient =>
    exact ⟨hfinished, fun hidle => Or.inl (hempty (by rw [hclient]; rfl) hidle), hblocked⟩

/-- **One step** keeps the invariant of the idle flag. -/
theorem step_idleInv {e : PhotoEvent} (h : IdleInv s) (htimely : Timely s e)
    (hs : step s e = some t) : IdleInv t := by
  cases e with
  | telecommand telecommand =>
    obtain ⟨-, rfl⟩ := telecommand_cases hs
    exact ⟨h.finished, h.done, h.blocked⟩
  | request r =>
    obtain rfl := request_cases hs
    exact ⟨h.finished, h.done, h.blocked⟩
  | client => exact (clientStep_move hs).idleInv h htimely
  | timeout =>
    obtain ⟨hclient, rfl⟩ := timeout_cases hs
    have hpending : s.idleFlag = true → s.pending = [] := by
      intro hidle
      refine (h.done hidle).resolve_right ?_
      rw [hclient]
      decide
    exact ⟨returned_finished h.finished hpending, fun hidle => Or.inl (hpending hidle), h.blocked⟩
  | task => exact (taskStep_move hs).idleInv h htimely
  | wake =>
    obtain ⟨q, htask, rfl⟩ := wake_cases hs
    refine ⟨h.finished, fun hidle => Or.inr ?_, fun h => absurd h (by simp)⟩
    exact (h.done hidle).resolve_left (pending_ne_nil (q := q) (by rw [htask]; rfl))

/-! ## The break flag -/

/-- The commands in front of the first `Break`. -/
def ahead (l : List Queued) : List Queued := l.takeWhile (·.command ≠ .breakSleep)

/-- There is a `Break` in the list. -/
def HasBreak (l : List Queued) : Prop := ∃ q ∈ l, q.command = .breakSleep

theorem mem_ahead {l : List Queued} {q : Queued} (h : q ∈ ahead l) : q ∈ l ∧ q.command ≠ .breakSleep :=
  ⟨(List.takeWhile_prefix _).subset h, by simpa using List.mem_takeWhile_imp h⟩

theorem ahead_cons {l : List Queued} {q : Queued} (h : q.command ≠ .breakSleep) :
    ahead (q :: l) = q :: ahead l := by
  simp [ahead, h]

theorem ahead_append {l l' : List Queued} (h : HasBreak l) : ahead (l ++ l') = ahead l := by
  induction l with
  | nil =>
    obtain ⟨q, hq, -⟩ := h
    exact absurd hq List.not_mem_nil
  | cons x l ih =>
    by_cases hx : x.command = .breakSleep
    · simp [ahead, hx]
    · obtain ⟨q, hq, hbreak⟩ := h
      have hmem : q ∈ l := by
        rcases List.mem_cons.1 hq with rfl | hq
        · exact absurd hbreak hx
        · exact hq
      rw [List.cons_append, ahead_cons hx, ahead_cons hx, ih ⟨q, hmem, hbreak⟩]

theorem ahead_snoc {l : List Queued} {q : Queued} (h : q.command = .breakSleep) :
    ahead (l ++ [q]) = ahead l := by
  induction l with
  | nil => simp [ahead, h]
  | cons x l ih =>
    by_cases hx : x.command = .breakSleep
    · simp [ahead, hx]
    · rw [List.cons_append, ahead_cons hx, ahead_cons hx, ih]

theorem ahead_subset {l l' : List Queued} {q : Queued} (h : q ∈ ahead l) : q ∈ ahead (l ++ l') := by
  induction l with
  | nil => exact absurd h List.not_mem_nil
  | cons x l ih =>
    by_cases hx : x.command = .breakSleep
    · simp [ahead, hx] at h
    · rw [ahead_cons hx] at h
      rw [List.cons_append, ahead_cons hx]
      rcases List.mem_cons.1 h with rfl | h
      · exact List.mem_cons_self
      · exact List.mem_cons_of_mem x (ih h)

/-- The client is between emptying the queue and setting the break flag. -/
def Purging (pc : ClientPc) : Prop := pc = .pushingBreak ∨ pc = .settingBreak

/-- The break flag of a purge can only end sleeps that are older than the purge: those are all
that the task does before it comes to a `Break`, which clears the flag. -/
structure BreakInv (s : PhotoTask) : Prop where
  uncut : ∀ c ∈ s.cuts, c.sleep.purges < c.purge
  pushed : ∀ q ∈ s.pending, q.purges ≤ s.purges
  purging : Purging s.client → ∀ q ∈ s.pending, q.command ≠ .breakSleep → q.purges < s.purges
  older : ∀ purge, s.breakSleepFlag = some purge → ∀ q ∈ ahead s.pending, q.purges < purge
  ends : s.breakSleepFlag ≠ none → HasBreak s.pending ∨ s.client = .pushingBreak
  sleeping : ∀ q, s.task = .sleeping q → q.command ≠ .breakSleep

/-- A step that pushes nothing and sets no flag. `done` are the commands that it ends. -/
theorem BreakInv.shrink (h : BreakInv s) (done : List Queued) (hpending : s.pending = done ++ t.pending)
    (hpurges : t.purges = s.purges) (hpurging : Purging t.client → Purging s.client)
    (huncut : ∀ c ∈ t.cuts, c.sleep.purges < c.purge)
    (hsleeping : ∀ q, t.task = .sleeping q → q.command ≠ .breakSleep)
    (hflag : t.breakSleepFlag = none ∨ t.breakSleepFlag = s.breakSleepFlag ∧
      (∀ q ∈ done, q.command ≠ .breakSleep) ∧ (s.client = .pushingBreak → t.client = .pushingBreak)) :
    BreakInv t := by
  have hmem : ∀ q ∈ t.pending, q ∈ s.pending := by
    intro q hq
    rw [hpending]
    exact List.mem_append_right done hq
  refine ⟨huncut, ?_, ?_, ?_, ?_, hsleeping⟩
  · intro q hq
    rw [hpurges]
    exact h.pushed q (hmem q hq)
  · intro hclient q hq hother
    rw [hpurges]
    exact h.purging (hpurging hclient) q (hmem q hq) hother
  · intro purge hsome q hq
    rcases hflag with hnone | ⟨hsame, hdone, -⟩
    · rw [hnone] at hsome
      exact absurd hsome (by simp)
    · apply h.older purge (by rw [← hsame, hsome])
      rw [hpending]
      clear hpending
      induction done with
      | nil => exact hq
      | cons x done ih =>
        rw [List.cons_append, ahead_cons (hdone x List.mem_cons_self)]
        exact List.mem_cons_of_mem x (ih fun y hy => hdone y (List.mem_cons_of_mem x hy))
  · intro hsome
    rcases hflag with hnone | ⟨hsame, hdone, hclient⟩
    · exact absurd hnone hsome
    · rw [hsame] at hsome
      rcases h.ends hsome with ⟨q, hq, hbreak⟩ | hpushing
      · rw [hpending] at hq
        rcases List.mem_append.1 hq with hq | hq
        · exact absurd hbreak (hdone q hq)
        · exact Or.inl ⟨q, hq, hbreak⟩
      · exact Or.inr (hclient hpushing)

/-- A move of the client that touches neither the queue nor the break flag. -/
theorem BreakInv.clientMoved (h : BreakInv s) (hpending : t.pending = s.pending)
    (hpurges : t.purges = s.purges) (hflag : t.breakSleepFlag = s.breakSleepFlag) (hcuts : t.cuts = s.cuts)
    (htask : t.task = s.task) (hfrom : s.client ≠ .pushingBreak) (hto : ¬ Purging t.client) : BreakInv t := by
  refine h.shrink [] hpending.symm hpurges (fun hpurging => absurd hpurging hto) ?_ ?_
    (Or.inr ⟨hflag, by simp, fun hclient => absurd hclient hfrom⟩)
  · rw [hcuts]
    exact h.uncut
  · rw [htask]
    exact h.sleeping

/-- A command that is pushed belongs to the purges so far. -/
theorem BreakInv.pushed_snoc (h : BreakInv s) (command : PhotoCommand) :
    ∀ q ∈ s.pending ++ [⟨command, s.purges⟩], q.purges ≤ s.purges := by
  intro q hq
  rcases List.mem_append.1 hq with hq | hq
  · exact h.pushed q hq
  · obtain rfl := List.mem_singleton.1 hq
    exact le_rfl

/-- A sleep that is ended by a purge is older. -/
theorem cutSleep_uncut {q : Queued} {purge : ℕ} (h : ∀ c ∈ s.cuts, c.sleep.purges < c.purge)
    (hq : q.purges < purge) : ∀ c ∈ (s.cutSleep q purge).cuts, c.sleep.purges < c.purge := by
  intro c hc
  rcases List.mem_append.1 hc with hc | hc
  · exact h c hc
  · obtain rfl := List.mem_singleton.1 hc
    exact hq

theorem TaskMove.breakInv (h : TaskMove s t) (hinv : BreakInv s) : BreakInv t := by
  have hnotSleeping : ∀ pc : TaskPc, (∀ q, pc ≠ .sleeping q) →
      ∀ q, pc = .sleeping q → q.command ≠ .breakSleep := fun pc hpc q hq => absurd hq (hpc q)
  cases h with
  | foundEmpty htask hqueue =>
    exact hinv.shrink [] (by simp [pending, held, htask]) rfl id hinv.uncut
      (hnotSleeping _ (by simp)) (Or.inr ⟨rfl, by simp, id⟩)
  | @popped q rest htask hqueue =>
    refine hinv.shrink [] ?_ rfl id hinv.uncut (hnotSleeping _ (by simp)) (Or.inr ⟨rfl, by simp, id⟩)
    rcases htask with htask | htask <;> simp [pending, held, htask, hqueue]
  | idle htask hclient =>
    exact hinv.shrink [] (by simp [pending, held, htask]) rfl id hinv.uncut
      (hnotSleeping _ (by simp)) (Or.inr ⟨rfl, by simp, id⟩)
  | released htask hclient =>
    refine hinv.shrink [] (by simp [pending, held, htask, returned]) rfl ?_ hinv.uncut
      (hnotSleeping _ (by simp [returned])) (Or.inr ⟨rfl, by simp, ?_⟩)
    · exact fun h => absurd h (by simp [Purging, returned])
    · intro h
      rw [hclient] at h
      exact absurd h (by simp)
  | @cleared q htask =>
    exact hinv.shrink [] (by simp [pending, held, htask]) rfl id hinv.uncut
      (hnotSleeping _ (by simp)) (Or.inr ⟨rfl, by simp, id⟩)
  | @cut q purge htask hsleep hflag =>
    have hpending : s.pending = q :: s.queue := by simp [pending, held, htask]
    have holder : q.purges < purge := by
      apply hinv.older purge hflag
      rw [hpending, ahead_cons hsleep]
      exact List.mem_cons_self
    exact hinv.shrink [q] hpending rfl id (cutSleep_uncut hinv.uncut holder)
      (hnotSleeping _ (by simp [cutSleep])) (Or.inl rfl)
  | @slept q htask hsleep =>
    refine hinv.shrink [] (by simp [pending, held, htask]) rfl id hinv.uncut ?_
      (Or.inr ⟨rfl, by simp, id⟩)
    intro q' hq'
    obtain rfl := TaskPc.sleeping.inj hq'
    exact hsleep
  | @broke q htask hbreak =>
    exact hinv.shrink [q] (by simp [pending, held, htask]) rfl id hinv.uncut
      (hnotSleeping _ (by simp)) (Or.inl rfl)
  | @done q htask hother =>
    exact hinv.shrink [q] (by simp [pending, held, htask]) rfl id hinv.uncut
      (hnotSleeping _ (by simp)) (Or.inr ⟨rfl, by simpa using hother, id⟩)

theorem ClientMove.breakInv (h : ClientMove s t) (hinv : BreakInv s) (htimely : Timely s .client) :
    BreakInv t := by
  cases h with
  | @begun r rest hclient hrequests =>
    refine hinv.clientMoved rfl rfl rfl rfl rfl (by rw [hclient]; simp) ?_
    cases r <;> simp [Purging, begin]
  | @pushed command hclient hroom =>
    have hpending : pending { s with queue := s.queue ++ [⟨command, s.purges⟩], client := .clearing } =
        s.pending ++ [⟨command, s.purges⟩] := (List.append_assoc _ _ _).symm
    refine ⟨hinv.uncut, ?_, fun h => absurd h (by simp [Purging]), ?_, ?_, hinv.sleeping⟩
    · intro q hq
      rw [hpending] at hq
      exact hinv.pushed_snoc _ q hq
    · -- a `Break` is in front of the new command
      intro purge hsome q hq
      have hbreak : HasBreak s.pending := by
        refine (hinv.ends (by rw [show s.breakSleepFlag = _ from hsome]; simp)).resolve_right ?_
        rw [hclient]
        simp
      rw [hpending, ahead_append hbreak] at hq
      exact hinv.older purge hsome q hq
    · intro hsome
      rcases hinv.ends hsome with ⟨q, hq, hbreak⟩ | h
      · refine Or.inl ⟨q, ?_, hbreak⟩
        rw [hpending]
        exact List.mem_append_left _ hq
      · rw [hclient] at h
        exact absurd h (by simp)
  | cleared hclient =>
    exact hinv.clientMoved rfl rfl rfl rfl rfl (by rw [hclient]; simp) (by simp [Purging])
  | reset hclient =>
    have hpending : s.pending =
        pending { s with queue := [], purges := s.purges + 1, client := .pushingBreak } ++ s.queue := by
      simp [pending]
    have hmem : ∀ q ∈ pending { s with queue := [], purges := s.purges + 1, client := .pushingBreak },
        q ∈ s.pending := by
      intro q hq
      rw [hpending]
      exact List.mem_append_left _ hq
    refine ⟨hinv.uncut, ?_, ?_, ?_, fun _ => Or.inr rfl, hinv.sleeping⟩
    · intro q hq
      exact le_trans (hinv.pushed q (hmem q hq)) (Nat.le_succ _)
    · intro _ q hq _
      exact Nat.lt_succ_of_le (hinv.pushed q (hmem q hq))
    · intro purge hsome q hq
      apply hinv.older purge hsome
      rw [hpending]
      exact ahead_subset hq
  | pushedBreak hclient hroom =>
    have hpending : pending { s with queue := s.queue ++ [⟨.breakSleep, s.purges⟩], client := .settingBreak } =
        s.pending ++ [⟨.breakSleep, s.purges⟩] := (List.append_assoc _ _ _).symm
    refine ⟨hinv.uncut, ?_, ?_, ?_, ?_, hinv.sleeping⟩
    · intro q hq
      rw [hpending] at hq
      exact hinv.pushed_snoc _ q hq
    · intro _ q hq hother
      rw [hpending] at hq
      rcases List.mem_append.1 hq with hq | hq
      · exact hinv.purging (Or.inl hclient) q hq hother
      · obtain rfl := List.mem_singleton.1 hq
        exact absurd rfl hother
    · intro purge hsome q hq
      rw [hpending, ahead_snoc rfl] at hq
      exact hinv.older purge hsome q hq
    · intro _
      refine Or.inl ⟨⟨.breakSleep, s.purges⟩, ?_, rfl⟩
      rw [hpending]
      exact List.mem_append_right _ (List.mem_singleton_self _)
  | @woke q hclient htask =>
    have hpending : s.pending = q :: s.queue := by simp [pending, held, htask]
    have holder : q.purges < s.purges := by
      apply hinv.purging (Or.inr hclient) q _ (hinv.sleeping q htask)
      rw [hpending]
      exact List.mem_cons_self
    exact hinv.shrink [q] hpending rfl (fun h => absurd h (by simp [Purging]))
      (cutSleep_uncut hinv.uncut holder) (fun _ h => absurd h (by simp [cutSleep])) (Or.inl rfl)
  | setBreak hclient =>
    refine ⟨hinv.uncut, hinv.pushed, fun h => absurd h (by simp [Purging]), ?_, ?_, hinv.sleeping⟩
    · intro purge hsome q hq
      obtain rfl := Option.some.inj hsome
      obtain ⟨hmem, hother⟩ := mem_ahead hq
      exact hinv.purging (Or.inr hclient) q hmem hother
    · intro _
      exact Or.inl (htimely.2.2 hclient)
  | released hclient hidle =>
    exact hinv.clientMoved rfl rfl rfl rfl rfl (by rw [hclient]; simp) (by simp [Purging, returned])
  | waits hclient =>
    exact hinv.clientMoved rfl rfl rfl rfl rfl (by rw [hclient]; simp) (by simp [Purging])

/-- **One step** keeps the invariant of the break flag. -/
theorem step_breakInv {e : PhotoEvent} (h : BreakInv s) (htimely : Timely s e)
    (hs : step s e = some t) : BreakInv t := by
  cases e with
  | telecommand telecommand =>
    obtain ⟨-, rfl⟩ := telecommand_cases hs
    exact h.shrink [] rfl rfl id h.uncut h.sleeping (Or.inr ⟨rfl, by simp, id⟩)
  | request r =>
    obtain rfl := request_cases hs
    exact h.shrink [] rfl rfl id h.uncut h.sleeping (Or.inr ⟨rfl, by simp, id⟩)
  | client => exact (clientStep_move hs).breakInv h htimely
  | timeout =>
    obtain ⟨hclient, rfl⟩ := timeout_cases hs
    exact h.clientMoved rfl rfl rfl rfl rfl (by rw [hclient]; simp) (by simp [Purging, returned])
  | task => exact (taskStep_move hs).breakInv h
  | wake =>
    obtain ⟨q, htask, rfl⟩ := wake_cases hs
    refine h.shrink [q] (by simp [pending, held, htask]) rfl id h.uncut (fun _ h => absurd h (by simp))
      (Or.inr ⟨rfl, ?_, id⟩)
    intro q' hq'
    obtain rfl := List.mem_singleton.1 hq'
    exact h.sleeping q' htask

/-! ## Runs -/

theorem init_idleInv : IdleInv init :=
  ⟨fun w hw => absurd hw List.not_mem_nil, fun h => absurd h (by decide), fun h => absurd h (by decide)⟩

theorem init_breakInv : BreakInv init := by
  refine ⟨?_, ?_, fun h => absurd h (by simp [Purging, init]), ?_, fun h => absurd rfl h,
    fun q h => absurd h (by simp [init])⟩
  · exact fun c hc => absurd hc List.not_mem_nil
  · exact fun q hq => absurd hq List.not_mem_nil
  · exact fun purge h => absurd h (by simp [init])

/-- **The signals are right** in runs in which the flags are set and cleared in time. -/
theorem signals_sound {es : List PhotoEvent} (h : Run step Timely init es s) : Signals s := by
  have hidle : IdleInv s :=
    h.inv init_idleInv fun _ _ _ hinv hok hs => step_idleInv hinv hok hs
  have hbreak : BreakInv s :=
    h.inv init_breakInv fun _ _ _ hinv hok hs => step_breakInv hinv hok hs
  exact ⟨hidle.finished, hidle.blocked, hbreak.uncut⟩

/-- A sleep is ended by a purge, and the client waits until all is done. -/
theorem signals_sound_example :
    ∃ s : PhotoTask, s.cuts = [⟨⟨.sleep 1000, 0⟩, 1⟩] ∧ s.waits = [⟨true, []⟩] ∧ Signals s := by
  have hrun : Run step Timely init
      [.request (.push (.sleep 1000)), .client, .client, .client, .task, .task, .task,
        .request .purgePendingCommands, .client, .client, .client, .client, .client,
        .request .waitForFinish, .client, .client, .task, .task, .task, .task, .task]
      ⟨[], true, none, .blocked, .ready, [], 1, [⟨true, []⟩], [⟨⟨.sleep 1000, 0⟩, 1⟩]⟩ :=
    run_of_exec _ (by decide +kernel)
  exact ⟨_, rfl, rfl, signals_sound hrun⟩

/-- **The other side runs in between**: `WaitForFinish` succeeds with a command still in the
queue; the idle flag stays clear although all is done; and a purge ends a sleep that was pushed
after it. -/
theorem signals_lost :
    (∃ s, Run step always init
        [.task, .request (.push .reset), .client, .client, .client,
          .request .waitForFinish, .client, .client, .task] s ∧
      s.waits = [⟨true, [⟨.reset, 0⟩]⟩] ∧ ¬ Signals s) ∧
    (∃ s, Run step always init
        [.task, .task, .request (.push .reset), .client, .client,
          .task, .task, .task, .task, .task, .client] s ∧
      s.task = .blocked ∧ s.queue = [] ∧ s.idleFlag = false ∧ ¬ Signals s) ∧
    ∃ s, Run step always init
        [.task, .task, .request .purgePendingCommands, .client, .client, .client,
          .task, .task, .task, .client, .client,
          .request (.push (.sleep 1000)), .client, .client, .client, .task, .task, .task] s ∧
      s.cuts = [⟨⟨.sleep 1000, 1⟩, 1⟩] ∧ ¬ Signals s := by
  refine ⟨⟨⟨[⟨.reset, 0⟩], true, none, .blocked, .ready, [], 0, [⟨true, [⟨.reset, 0⟩]⟩], []⟩,
    run_of_exec _ (by decide +kernel), rfl, ?_⟩,
    ⟨⟨[], false, none, .blocked, .ready, [], 0, [], []⟩, run_of_exec _ (by decide +kernel), rfl, rfl,
      rfl, ?_⟩,
    ⟨⟨[], false, none, .polling, .ready, [], 1, [], [⟨⟨.sleep 1000, 1⟩, 1⟩]⟩,
      run_of_exec _ (by decide +kernel), rfl, ?_⟩⟩
  · intro h
    exact absurd (h.finished _ List.mem_cons_self rfl) (by simp)
  · intro h
    exact absurd (h.idle rfl rfl) (by simp)
  · intro h
    exact absurd (h.uncut _ List.mem_cons_self) (by simp)

end PWSat2OBC.PhotoTask
