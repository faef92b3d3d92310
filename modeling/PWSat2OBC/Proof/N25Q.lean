import PWSat2OBC.Spec.N25Q

/-!
# Reading a chip, and its sticky error flags

* `readMemory_success_iff`, `readMemory_bytes`: a chip is read if one of three attempts gets
  through, and then the buffer holds its bytes.
* `waits_truthful`: `Wait` reports a failure only for operations that failed on the chip, as
  long as operations begin while the chip is idle, and page writes with a clear `ProgramError`.
  Erase operations clear the flags themselves. Page writes do not, so one failed page write
  spoils the next (`stale_program_error`, `spoiled_wait`).
* `flag_sticks`: a flag that is set stays set until an erase operation begins with
  `ClearFlags`, and only a failed operation sets it.
-/

namespace PWSat2OBC.N25Q

/-- The chip takes the lower 24 bits of an address. -/
theorem chipAddress_eq (address : ℕ) : chipAddress address = address % size := by
  simp only [chipAddress, addressBytes, busAddress, BitVec.toNat_ofNat, Nat.shiftRight_eq_div_pow, size]
  omega

/-! ## Reading -/

section

variable {memory : Memory} {attempts : ℕ → ReadAttempt} {address : ℕ}

/-- The attempt gets through. -/
def GetsThrough (a : ReadAttempt) : Prop := a.write = .success ∧ a.read = .success

instance (a : ReadAttempt) : Decidable (GetsThrough a) := inferInstanceAs (Decidable (_ ∧ _))

/-- A chip can be read: one of the attempts gets through. -/
def Readable (attempts : ℕ → ReadAttempt) : Prop := ∃ i < retryCount, GetsThrough (attempts i)

instance (attempts : ℕ → ReadAttempt) : Decidable (Readable attempts) :=
  inferInstanceAs (Decidable (∃ i < retryCount, GetsThrough (attempts i)))

@[simp] theorem length_memoryBytes (memory : Memory) (address length : ℕ) :
    (memoryBytes memory address length).length = length := by
  simp [memoryBytes]

@[simp] theorem length_refill (front buffer : List Byte) : (refill front buffer).length = buffer.length := by
  rw [refill, List.length_append, List.length_take, List.length_drop]
  omega

theorem readAction_through {s : ReadState} (h : GetsThrough (attempts s.tried)) :
    readAction memory attempts address s =
      (.success, ⟨s.tried + 1, memoryBytes memory address s.buffer.length⟩) := by
  obtain ⟨hwrite, hread⟩ := h
  simp only [readAction, hwrite, hread]

/-- An attempt that does not get through fails and keeps the length of the buffer. -/
theorem readAction_fails {s : ReadState} (h : ¬ GetsThrough (attempts s.tried)) :
    ∃ code buffer, readAction memory attempts address s = (.failed code, ⟨s.tried + 1, buffer⟩) ∧
      buffer.length = s.buffer.length := by
  unfold readAction
  cases hwrite : (attempts s.tried).write with
  | failed code => exact ⟨code, s.buffer, by simp only [hwrite], rfl⟩
  | success =>
    cases hread : (attempts s.tried).read with
    | failed code => exact ⟨code, _, by simp only [hwrite, hread]; rfl, length_refill _ _⟩
    | success => exact absurd ⟨hwrite, hread⟩ h

/-- **The retry loop** succeeds if one of its attempts gets through. -/
theorem retry_spec (remaining : ℕ) (lastResult : OSResult) (hlast : lastResult ≠ .success)
    (s : ReadState) :
    let r := retry (readAction memory attempts address) remaining lastResult s
    (r.1 = .success ↔ ∃ i, s.tried ≤ i ∧ i < s.tried + remaining ∧ GetsThrough (attempts i)) ∧
      r.2.buffer.length = s.buffer.length ∧
      (r.1 = .success → r.2.buffer = memoryBytes memory address s.buffer.length) := by
  induction remaining generalizing lastResult s with
  | zero =>
    refine ⟨⟨fun h => absurd h hlast, ?_⟩, rfl, fun h => absurd h hlast⟩
    rintro ⟨i, hle, hlt, -⟩
    omega
  | succ remaining ih =>
    by_cases hthrough : GetsThrough (attempts s.tried)
    · simp only [retry, readAction_through hthrough]
      exact ⟨⟨fun _ => ⟨s.tried, le_rfl, by omega, hthrough⟩, fun _ => trivial⟩,
        length_memoryBytes _ _ _, fun _ => trivial⟩
    · obtain ⟨code, buffer, haction, hlength⟩ := @readAction_fails memory attempts address s hthrough
      have hrest := ih (.failed code) (by simp) ⟨s.tried + 1, buffer⟩
      simp only [retry, haction]
      simp only [hlength] at hrest
      refine ⟨hrest.1.trans ⟨?_, ?_⟩, hrest.2⟩
      · rintro ⟨i, hle, hlt, hi⟩
        exact ⟨i, by omega, by omega, hi⟩
      · rintro ⟨i, hle, hlt, hi⟩
        have hne : i ≠ s.tried := by rintro rfl; exact hthrough hi
        exact ⟨i, by omega, by omega, hi⟩

variable (deviceId : Byte) (buffer : List Byte)

theorem readMemory_success_iff :
    (readMemory deviceId memory attempts address buffer).1 = .success ↔ Readable attempts := by
  refine (retry_spec retryCount invalidOperation (by decide) ⟨0, buffer⟩).1.trans ⟨?_, ?_⟩
  · rintro ⟨i, -, hlt, hi⟩
    exact ⟨i, by simpa using hlt, hi⟩
  · rintro ⟨i, hlt, hi⟩
    exact ⟨i, Nat.zero_le i, by simpa using hlt, hi⟩

@[simp] theorem length_readMemory :
    (readMemory deviceId memory attempts address buffer).2.1.length = buffer.length :=
  (retry_spec retryCount invalidOperation (by decide) ⟨0, buffer⟩).2.1

theorem readMemory_bytes (h : Readable attempts) :
    (readMemory deviceId memory attempts address buffer).2.1 =
      memoryBytes memory address buffer.length :=
  (retry_spec retryCount invalidOperation (by decide) ⟨0, buffer⟩).2.2
    ((readMemory_success_iff deviceId buffer).2 h)

end

end PWSat2OBC.N25Q

namespace PWSat2OBC.N25QDriver

open N25Q Runs

variable {deviceId : Byte} {memory : Memory} {s s' : N25QDriver}

/-! ## Steps -/

theorem step_start {op : Operation} (h : step deviceId s (.start op) = some s') :
    s.pc = .idle ∧ s' = { s with pc := begin op, fate := .notAccepted } := by
  cases hpc : s.pc with
  | idle =>
    by_cases hfits : op.fits
    · simp only [step, hpc, hfits, if_true, Option.some.injEq] at h
      exact ⟨rfl, h.symm⟩
    · simp only [step, hpc, hfits, if_false, Bool.false_eq_true, reduceCtorEq] at h
  | clearing op' => simp only [step, hpc, reduceCtorEq] at h
  | enabling op' => simp only [step, hpc, reduceCtorEq] at h
  | commanding op' => simp only [step, hpc, reduceCtorEq] at h
  | waiting op' => simp only [step, hpc, reduceCtorEq] at h

theorem step_transact (h : step deviceId s .transact = some s') :
    (∃ op, s.pc = .clearing op ∧ s' = { s with chip := s.chip.clearFlags, pc := .enabling op }) ∨
    (∃ op, s.pc = .enabling op ∧ s' = { s with chip := s.chip.writeEnable, pc := .commanding op }) ∨
    ∃ op, s.pc = .commanding op ∧ s' = { s with
      chip := s.chip.execute op, pc := .waiting op,
      fate := if s.chip.accepts then .running else .notAccepted } := by
  cases hpc : s.pc with
  | idle => simp only [step, hpc, reduceCtorEq] at h
  | clearing op =>
    simp only [step, hpc, Option.some.injEq] at h
    exact Or.inl ⟨op, rfl, h.symm⟩
  | enabling op =>
    simp only [step, hpc, Option.some.injEq] at h
    exact Or.inr (Or.inl ⟨op, rfl, h.symm⟩)
  | commanding op =>
    simp only [step, hpc, Option.some.injEq] at h
    exact Or.inr (Or.inr ⟨op, rfl, h.symm⟩)
  | waiting op => simp only [step, hpc, reduceCtorEq] at h

theorem step_wait (h : step deviceId s .wait = some s') :
    ∃ op, s.pc = .waiting op ∧ s' = { s with
      pc := .idle,
      waits := s.waits ++ [⟨op, s.fate, waitForOperation s.chip op.errorStatus⟩],
      reports := s.reports ++ [report deviceId (waitForOperation s.chip op.errorStatus)] } := by
  cases hpc : s.pc with
  | waiting op =>
    simp only [step, hpc, Option.some.injEq] at h
    exact ⟨op, rfl, h.symm⟩
  | idle => simp only [step, hpc, reduceCtorEq] at h
  | clearing op => simp only [step, hpc, reduceCtorEq] at h
  | enabling op => simp only [step, hpc, reduceCtorEq] at h
  | commanding op => simp only [step, hpc, reduceCtorEq] at h

theorem step_finish {ok : Bool} {left : Memory} {writeEnabled : Bool}
    (h : step deviceId s (.finish ok left writeEnabled) = some s') :
    ∃ op, s.chip.operation = some op ∧ s' = { s with
      chip := s.chip.finish op ok left writeEnabled,
      fate := if s.fate = .running then (if ok then .succeeded else .failed) else s.fate } := by
  cases hop : s.chip.operation with
  | none => simp only [step, hop, reduceCtorEq] at h
  | some op =>
    simp only [step, hop, Option.some.injEq] at h
    exact ⟨op, rfl, h.symm⟩

/-! ## Truthful waits -/

/-- A failure is reported only for an operation that failed on the chip. -/
def Truthful (w : Waited) : Prop := w.result = .failure → w.fate = .failed

instance (w : Waited) : Decidable (Truthful w) := inferInstanceAs (Decidable (_ → _))

/-- Operations begin while the chip is idle, and page writes while `ProgramError` is clear. -/
def BegunClean (s : N25QDriver) (e : N25QEvent) : Prop :=
  match e with
  | .start (.writePage _ _) => s.chip.operation.isNone = true ∧ s.chip.flags .programError = false
  | .start _ => s.chip.operation.isNone = true
  | _ => True

instance (s : N25QDriver) (e : N25QEvent) : Decidable (BegunClean s e) :=
  match e with
  | .start (.writePage _ _) => inferInstanceAs (Decidable (_ ∧ _))
  | .start (.eraseSubSector _) => inferInstanceAs (Decidable (_ = true))
  | .start (.eraseSector _) => inferInstanceAs (Decidable (_ = true))
  | .start .eraseChip => inferInstanceAs (Decidable (_ = true))
  | .transact => inferInstanceAs (Decidable True)
  | .wait => inferInstanceAs (Decidable True)
  | .finish _ _ _ => inferInstanceAs (Decidable True)

/-- What the chip has done for the driver at each of its transactions. -/
def Served (s : N25QDriver) : Prop :=
  match s.pc with
  | .idle => True
  | .clearing _ => s.chip.operation = none
  | .enabling op => s.chip.operation = none ∧ s.chip.flags op.errorStatus = false
  | .commanding op => s.chip.accepts = true ∧ s.chip.flags op.errorStatus = false
  | .waiting op =>
    (s.fate = .running ∧ s.chip.operation = some op ∧ s.chip.flags op.errorStatus = false) ∨
    (s.fate = .succeeded ∧ s.chip.operation = none ∧ s.chip.flags op.errorStatus = false) ∨
    (s.fate = .failed ∧ s.chip.operation = none)

/-- The chip serves the operation at hand, and the `Wait`s so far were truthful. -/
structure Watched (s : N25QDriver) : Prop where
  served : Served s
  truthful : ∀ w ∈ s.waits, Truthful w

theorem watched_init : Watched (init memory) := ⟨trivial, by simp [init]⟩

/-- An idle chip takes `ClearFlagRegister`. -/
theorem clearFlags_of_idle {chip : N25QChip} (h : chip.operation = none) :
    chip.clearFlags = { chip with flags := fun _ => false } := by
  simp [N25QChip.clearFlags, h]

/-- An idle chip takes `WriteEnable`. -/
theorem writeEnable_of_idle {chip : N25QChip} (h : chip.operation = none) :
    chip.writeEnable = { chip with writeEnabled := true } := by
  simp [N25QChip.writeEnable, h]

theorem served_begin {op : Operation} (hok : BegunClean s (.start op)) :
    Served { s with pc := begin op, fate := .notAccepted } := by
  cases op with
  | writePage address page => exact ⟨Option.isNone_iff_eq_none.1 hok.1, hok.2⟩
  | eraseSubSector address => exact Option.isNone_iff_eq_none.1 hok
  | eraseSector address => exact Option.isNone_iff_eq_none.1 hok
  | eraseChip => exact Option.isNone_iff_eq_none.1 hok

theorem Served.transact (hs : Served s) (he : step deviceId s .transact = some s') : Served s' := by
  rcases step_transact he with ⟨op, hpc, rfl⟩ | ⟨op, hpc, rfl⟩ | ⟨op, hpc, rfl⟩
  · -- here an erase gets rid of the flags of earlier operations
    have hidle : s.chip.operation = none := by simpa only [Served, hpc] using hs
    simp [Served, clearFlags_of_idle hidle, hidle]
  · obtain ⟨hidle, hflag⟩ : s.chip.operation = none ∧ s.chip.flags op.errorStatus = false := by
      simpa only [Served, hpc] using hs
    simp [Served, writeEnable_of_idle hidle, N25QChip.accepts, hidle, hflag]
  · obtain ⟨haccepts, hflag⟩ : s.chip.accepts = true ∧ s.chip.flags op.errorStatus = false := by
      simpa only [Served, hpc] using hs
    exact Or.inl (by simp [N25QChip.execute, haccepts, hflag])

/-- The chip only works while the driver waits. -/
theorem Served.finish {ok : Bool} {left : Memory} {writeEnabled : Bool} (hs : Served s)
    (he : step deviceId s (.finish ok left writeEnabled) = some s') : Served s' := by
  obtain ⟨op, hop, rfl⟩ := step_finish he
  cases hpc : s.pc with
  | idle => simp only [Served]
  | clearing op' =>
    simp only [Served, hpc] at hs
    exact absurd (hop.symm.trans hs) (by simp)
  | enabling op' =>
    simp only [Served, hpc] at hs
    exact absurd (hop.symm.trans hs.1) (by simp)
  | commanding op' =>
    simp only [Served, hpc, N25QChip.accepts, hop] at hs
    exact absurd hs.1 (by simp)
  | waiting op' =>
    simp only [Served, hpc] at hs ⊢
    rcases hs with ⟨hfate, -, hflag⟩ | ⟨-, hidle, -⟩ | ⟨-, hidle⟩
    · cases ok with
      | true => exact Or.inr (Or.inl (by simp [N25QChip.finish, hfate, hflag]))
      | false => exact Or.inr (Or.inr (by simp [N25QChip.finish, hfate]))
    · exact absurd (hop.symm.trans hidle) (by simp)
    · exact absurd (hop.symm.trans hidle) (by simp)

/-- A `Wait` for an operation the chip serves is truthful. -/
theorem Served.wait {op : Operation} (hs : Served s) (hpc : s.pc = .waiting op) :
    Truthful ⟨op, s.fate, waitForOperation s.chip op.errorStatus⟩ := by
  simp only [Served, hpc] at hs
  intro hresult
  rcases hs with ⟨-, hop, -⟩ | ⟨-, hidle, hflag⟩ | ⟨hfate, -⟩
  · -- the chip is still busy: a timeout
    simp [waitForOperation, hop] at hresult
  · simp [waitForOperation, hidle, hflag] at hresult
  · exact hfate

theorem Watched.step {e : N25QEvent} (hs : Watched s) (hok : BegunClean s e)
    (he : N25QDriver.step deviceId s e = some s') : Watched s' := by
  cases e with
  | start op =>
    obtain ⟨-, rfl⟩ := step_start he
    exact ⟨served_begin hok, hs.truthful⟩
  | transact =>
    refine ⟨hs.served.transact he, ?_⟩
    rcases step_transact he with ⟨_, _, rfl⟩ | ⟨_, _, rfl⟩ | ⟨_, _, rfl⟩ <;> exact hs.truthful
  | wait =>
    obtain ⟨op, hpc, rfl⟩ := step_wait he
    refine ⟨trivial, fun w hw => ?_⟩
    rcases List.mem_append.1 hw with hw | hw
    · exact hs.truthful w hw
    · rw [List.mem_singleton] at hw
      subst hw
      exact hs.served.wait hpc
  | finish ok left writeEnabled =>
    refine ⟨hs.served.finish he, ?_⟩
    obtain ⟨_, _, rfl⟩ := step_finish he
    exact hs.truthful

/-- **`Wait` is truthful**, in every run in which operations begin while the chip is idle, page
writes with a clear `ProgramError`. -/
theorem waits_truthful {es : List N25QEvent}
    (h : Run (N25QDriver.step deviceId) BegunClean (init memory) es s) :
    ∀ w ∈ s.waits, Truthful w :=
  (Run.inv watched_init (fun _ _ _ hs hok he => hs.step hok he) h).truthful

/-- The driver waits for an operation in progress whose flag is already set. -/
def spoiled (s : N25QDriver) : Bool :=
  match s.pc with
  | .waiting op => s.fate == .running && s.chip.flags op.errorStatus
  | _ => false

/-- **Otherwise it is not**: after a good end with the flag already set, the driver can only
return from `Wait`, with a failure. -/
theorem spoiled_wait {left : Memory} {writeEnabled : Bool} {t : N25QDriver} {e : N25QEvent}
    (hspoiled : s.spoiled = true)
    (hfinish : step deviceId s (.finish true left writeEnabled) = some s')
    (he : step deviceId s' e = some t) : e = .wait ∧ ∃ w ∈ t.waits, ¬ Truthful w := by
  obtain ⟨op, hpc, hfate, hflag⟩ : ∃ op, s.pc = .waiting op ∧ s.fate = .running ∧
      s.chip.flags op.errorStatus = true := by
    unfold spoiled at hspoiled
    split at hspoiled
    · rename_i op hpc
      rw [Bool.and_eq_true, beq_iff_eq] at hspoiled
      exact ⟨op, hpc, hspoiled⟩
    · exact absurd hspoiled (by simp)
  obtain ⟨op', -, rfl⟩ := step_finish hfinish
  cases e with
  | start op'' => exact absurd ((step_start he).1.symm.trans hpc) (by simp)
  | transact =>
    rcases step_transact he with ⟨_, hpc', -⟩ | ⟨_, hpc', -⟩ | ⟨_, hpc', -⟩ <;>
      exact absurd (hpc'.symm.trans hpc) (by simp)
  | wait =>
    obtain ⟨op'', hpc', rfl⟩ := step_wait he
    obtain rfl : op = op'' := by simpa using hpc.symm.trans hpc'
    refine ⟨rfl, _, List.mem_append_right _ (List.mem_singleton_self _), ?_⟩
    intro htruthful
    have hfailed := htruthful (by simp [waitForOperation, N25QChip.finish, hflag])
    simp [hfate] at hfailed
  | finish ok left' writeEnabled' =>
    obtain ⟨op'', hop, -⟩ := step_finish he
    exact absurd hop (by simp [N25QChip.finish])

/-- A flag that is as before has neither been cleared nor set. -/
theorem of_same {P Q : Prop} {b b' : Bool} (h : b' = b) :
    (b = true → b' = false → P) ∧ (b = false → b' = true → Q) := by
  rw [h]
  exact ⟨fun ht hf => absurd (ht.symm.trans hf) (by simp), fun hf ht => absurd (hf.symm.trans ht) (by simp)⟩

theorem writeEnable_flags (chip : N25QChip) : chip.writeEnable.flags = chip.flags := by
  unfold N25QChip.writeEnable
  split <;> rfl

theorem execute_flags (chip : N25QChip) (op : Operation) : (chip.execute op).flags = chip.flags := by
  unfold N25QChip.execute
  split <;> rfl

/-- **Flags are sticky.** -/
theorem flag_sticks {e : N25QEvent} (flag : ErrorFlag) (he : step deviceId s e = some s') :
    (s.chip.flags flag = true → s'.chip.flags flag = false →
      e = .transact ∧ ∃ op, s.pc = .clearing op) ∧
    (s.chip.flags flag = false → s'.chip.flags flag = true →
      ∃ op left writeEnabled, s.chip.operation = some op ∧ op.errorStatus = flag ∧
        e = .finish false left writeEnabled) := by
  cases e with
  | start op =>
    obtain ⟨-, rfl⟩ := step_start he
    exact of_same rfl
  | transact =>
    rcases step_transact he with ⟨op, hpc, rfl⟩ | ⟨op, -, rfl⟩ | ⟨op, -, rfl⟩
    · refine ⟨fun _ _ => ⟨rfl, op, hpc⟩, ?_⟩
      intro h h'
      simp only [N25QChip.clearFlags] at h'
      split at h'
      · exact absurd (h.symm.trans h') (by simp)
      · exact absurd h' (by simp)
    · exact of_same (congrFun (writeEnable_flags s.chip) flag)
    · exact of_same (congrFun (execute_flags s.chip op) flag)
  | wait =>
    obtain ⟨op, -, rfl⟩ := step_wait he
    exact of_same rfl
  | finish ok left writeEnabled =>
    obtain ⟨op, hop, rfl⟩ := step_finish he
    cases ok with
    | true => exact of_same rfl
    | false =>
      simp only [N25QChip.finish, if_false, Bool.false_eq_true]
      by_cases hflag : flag = op.errorStatus
      · -- the flag of the failed operation
        rw [hflag, Function.update_self]
        exact ⟨fun _ h' => absurd h' (by simp), fun _ _ => ⟨op, left, writeEnabled, hop, rfl, rfl⟩⟩
      · rw [Function.update_of_ne hflag]
        exact of_same rfl

/-! ## Two page writes -/

/-- A page write that the chip ends with the given success. -/
def writePageRun (ok : Bool) : List N25QEvent :=
  [.start (.writePage 0 [0]), .transact, .transact, .finish ok (fun _ => 0xFF) false, .wait]

/-- An erase between a failed page write and the next one clears the flag. -/
theorem waits_truthful_example :
    ∃ s : N25QDriver, s.waits.map Waited.result = [.failure, .success, .success] ∧
      ∀ w ∈ s.waits, Truthful w := by
  let es : List N25QEvent := writePageRun false ++
    [.start (.eraseSector 0), .transact, .transact, .transact, .finish true (fun _ => 0) false,
      .wait] ++ writePageRun true
  obtain ⟨s, hrun, hresults⟩ :=
    @exists_run_of_exec _ _ (N25QDriver.step 4) BegunClean _ (init fun _ => 0xFF) es
      (fun s => s.waits.map Waited.result = [.failure, .success, .success]) (by decide +kernel)
  exact ⟨s, hresults, waits_truthful hrun⟩

/-- **A stale error flag**: a page write fails, the next one succeeds on the chip, and its `Wait`
returns `Failure`. -/
theorem stale_program_error :
    ∃ (es : List N25QEvent) (s : N25QDriver),
      Run (N25QDriver.step 4) always (init fun _ => 0xFF) es s ∧ ∃ w ∈ s.waits, ¬ Truthful w := by
  let es : List N25QEvent := writePageRun false ++ writePageRun true
  exact ⟨es, @exists_run_of_exec _ _ (N25QDriver.step 4) always _ (init fun _ => 0xFF) es
    (fun s => ∃ w ∈ s.waits, ¬ Truthful w) (by decide +kernel)⟩

end PWSat2OBC.N25QDriver
