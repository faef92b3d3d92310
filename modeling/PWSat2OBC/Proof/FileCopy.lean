import PWSat2OBC.Spec.Yaffs

/-!
# Copies of files

`YaffsFileSystem::Copy` reads and writes blocks of 1024 bytes until a read returns less. After a
failed read or write it translates the descriptor of the destination, which is not `-1`, so it
returns `Success`; a write of fewer bytes is not noticed.

* `Progress.turn`: one turn copies a block and goes on, or ends the loop.
* `copyLoop_ends`: the loop ends, and what it leaves.
* `trueCopy_iff`: when `Success` means that the destination holds the bytes of the source.
-/

namespace PWSat2OBC

namespace YaffsFileSystem

/-- The call fails, or writes fewer bytes than asked. -/
def Call.Fails : Call → Prop
  | .openFile result => result = -1
  | .read result => result = -1
  | .write nbyte result => result < nbyte
  | .close _ result => result = -1

instance : DecidablePred Call.Fails
  | .openFile result => inferInstanceAs (Decidable (result = -1))
  | .read result => inferInstanceAs (Decidable (result = -1))
  | .write nbyte result => inferInstanceAs (Decidable (result < nbyte))
  | .close _ result => inferInstanceAs (Decidable (result = -1))

/-- The descriptor that the call opens. -/
def Call.opens : Call → Option ℤ
  | .openFile result => if result = -1 then none else some result
  | _ => none

/-- The descriptor that the call closes. -/
def Call.closes : Call → Option ℤ
  | .close file _ => some file
  | _ => none

/-- Neither opens nor closes. -/
def Call.Transfers (c : Call) : Prop := c.opens = none ∧ c.closes = none

variable {File : Type} [DecidableEq File]

/-- What is promised of a copy of a file with these bytes. -/
structure TrueCopy (bytes : List Byte) (destination : File) (c : Copied File) : Prop where
  /-- `Success` means that the destination holds the bytes of the source. -/
  same : c.result = .success → c.files destination = bytes
  /-- A failed call and a short write are reported. -/
  noticed : (∃ call ∈ c.calls, call.Fails) → c.result ≠ .success
  /-- Every descriptor is closed once. -/
  closed : (c.calls.filterMap Call.closes).Perm (c.calls.filterMap Call.opens)

/-- What there is to read once the destination has been opened. -/
def readable (files : File → List Byte) (source destination : File) : List Byte :=
  if source = destination then [] else files source

/-! ## The turns of the loop -/

/-- The loop comes to its turn `i`. -/
def Reached (a : Answers) (length i : ℕ) : Prop :=
  ∀ j < i, 1024 * (j + 1) ≤ length ∧ (∃ n, a.reads j = some n ∧ 1024 ≤ n) ∧ a.writes j ≠ none

/-- No read and no write fails. -/
def NoFailure (a : Answers) (length : ℕ) : Prop :=
  ∀ i, Reached a length i → a.reads i ≠ none ∧ a.writes i ≠ none

/-- All writes so far were whole. -/
def FullWrites (a : Answers) (i : ℕ) : Prop := ∀ j < i, ∃ n, a.writes j = some n ∧ 1024 ≤ n

/-- All reads and writes transfer what there is. -/
def Whole (a : Answers) (length : ℕ) : Prop :=
  ∀ i, 1024 * i ≤ length → ∃ n m, a.reads i = some n ∧ min 1024 (length - 1024 * i) ≤ n ∧
    a.writes i = some m ∧ min 1024 (length - 1024 * i) ≤ m

theorem Reached.succ {a : Answers} {length i : ℕ} (h : Reached a length i) (hi : 1024 * (i + 1) ≤ length)
    (hread : ∃ n, a.reads i = some n ∧ 1024 ≤ n) (hwrite : a.writes i ≠ none) :
    Reached a length (i + 1) := by
  intro j hj
  rcases Nat.lt_succ_iff_lt_or_eq.1 hj with hj | rfl
  · exact h j hj
  · exact ⟨hi, hread, hwrite⟩

theorem FullWrites.succ {a : Answers} {i : ℕ} :
    FullWrites a (i + 1) ↔ FullWrites a i ∧ ∃ n, a.writes i = some n ∧ 1024 ≤ n := by
  constructor
  · exact fun h => ⟨fun j hj => h j (Nat.lt_succ_of_lt hj), h i (Nat.lt_succ_self i)⟩
  · rintro ⟨h, hi⟩ j hj
    rcases Nat.lt_succ_iff_lt_or_eq.1 hj with hj | rfl
    · exact h j hj
    · exact hi

/-- The state before turn `i`. The calls since the two files were opened are `l`. -/
structure Progress (a : Answers) (content : List Byte) (source destination : File) (opened : List Call)
    (i : ℕ) (s : CopyState File) : Prop where
  position : s.position = 1024 * i
  inside : 1024 * i ≤ content.length
  source : s.files source = content
  reached : Reached a content.length i
  calls : ∃ l, s.calls = opened ++ l ∧ (∀ c ∈ l, c.Transfers) ∧ ((∀ c ∈ l, ¬ c.Fails) ↔ FullWrites a i)
  copied : FullWrites a i → s.files destination = content.take (1024 * i)

/-- What a loop leaves that has ended with a failed read or write. -/
structure Failed (a : Answers) (content : List Byte) (opened : List Call) (s : CopyState File) : Prop where
  failure : ¬ NoFailure a content.length
  calls : ∃ l, s.calls = opened ++ l ∧ (∀ c ∈ l, c.Transfers) ∧ ∃ c ∈ l, c.Fails

/-- What a loop leaves that has come to the end of the source. -/
structure Finished (a : Answers) (content : List Byte) (source destination : File) (opened : List Call)
    (s : CopyState File) : Prop where
  noFailure : NoFailure a content.length
  source : s.files source = content
  calls : ∃ l, s.calls = opened ++ l ∧ (∀ c ∈ l, c.Transfers) ∧
    ((∀ c ∈ l, ¬ c.Fails) ∧ s.files destination = content ↔ Whole a content.length)

section Turn

variable {a : Answers} {source destination : File} {s : CopyState File} {i : ℕ}

/-- The bytes of the source that have not been read. -/
def CopyState.rest (s : CopyState File) (source : File) : List Byte := (s.files source).drop s.position

/-- The number of bytes that the turn reads. -/
def CopyState.block (s : CopyState File) (source : File) (n : ℕ) : ℕ :=
  min n (min bufferSize (s.rest source).length)

/-- The state after a block of `k` bytes was read and `m` of them were written. -/
def CopyState.wrote (s : CopyState File) (source destination : File) (k m : ℕ) : CopyState File :=
  ⟨Function.update s.files destination
      (s.files destination ++ ((s.rest source).take k).take m),
    s.position + k, s.calls ++ [.read k] ++ [.write k m]⟩

theorem copyTurn_unread (hread : a.reads i = none) : copyTurn a source destination s i =
    (some .failed, { s with calls := s.calls ++ [.read (-1)] }) := by
  simp only [copyTurn, hread, transferred, if_true]
  rfl

theorem copyTurn_unwritten {n : ℕ} (hread : a.reads i = some n) (hwrite : a.writes i = none) :
    copyTurn a source destination s i = (some .failed,
      { s.wrote source destination (s.block source n) 0 with
        calls := s.calls ++ [.read (s.block source n)] ++ [.write (s.block source n) (-1)] }) := by
  have hne : ¬ ((s.block source n : ℕ) : ℤ) = -1 := by omega
  unfold CopyState.block CopyState.rest at hne
  simp only [copyTurn, hread, hwrite, transferred, if_neg hne, if_true]
  rfl

theorem copyTurn_written {n m : ℕ} (hread : a.reads i = some n) (hwrite : a.writes i = some m) :
    copyTurn a source destination s i =
      (if s.block source n < bufferSize then some .finished else none,
        s.wrote source destination (s.block source n) (min m (s.block source n))) := by
  have hlength : ((s.rest source).take (s.block source n)).length = s.block source n := by
    rw [List.length_take]
    exact min_eq_left ((min_le_right _ _).trans (min_le_right _ _))
  have hread' : ¬ ((s.block source n : ℕ) : ℤ) = -1 := by omega
  have hwrite' : ¬ ((min m (s.block source n) : ℕ) : ℤ) = -1 := by omega
  unfold CopyState.block CopyState.rest at hlength hread' hwrite'
  unfold copyTurn CopyState.wrote CopyState.block CopyState.rest
  simp only [hread, hwrite, transferred, if_neg hread', Int.toNat_natCast, hlength, if_neg hwrite',
    Nat.cast_lt]
  split <;> rfl

variable {content : List Byte} {opened : List Call}

omit [DecidableEq File] in
/-- The calls of a turn with a read of `k` bytes and a write of `m` bytes. -/
theorem Progress.append (h : Progress a content source destination opened i s) {k m : ℕ} (hm : m ≤ k) :
    ∃ l, s.calls ++ [.read k] ++ [.write k m] = opened ++ l ∧ (∀ c ∈ l, c.Transfers) ∧
      ((∀ c ∈ l, ¬ c.Fails) ↔ FullWrites a i ∧ m = k) := by
  obtain ⟨l, hl, htransfers, hfull⟩ := h.calls
  refine ⟨l ++ [.read k, .write k m], ?_, ?_, ?_⟩
  · rw [hl, List.append_assoc, List.append_assoc]
    rfl
  · intro c hc
    rcases List.mem_append.1 hc with hc | hc
    · exact htransfers c hc
    · rcases List.mem_pair.1 hc with rfl | rfl <;> exact ⟨rfl, rfl⟩
  · have hread : ¬ (Call.read k).Fails := by
      intro hfails
      have heq : (k : ℤ) = -1 := hfails
      omega
    have hwrite : ¬ (Call.write k m).Fails ↔ m = k := by
      change ¬ ((m : ℤ) < k) ↔ m = k
      omega
    rw [List.forall_mem_append, hfull, List.forall_mem_cons, List.forall_mem_singleton, hwrite]
    exact and_congr_right fun _ => and_iff_right hread

omit [DecidableEq File] in
/-- The same with a call that fails. -/
theorem Progress.append_failed (h : Progress a content source destination opened i s) {l : List Call}
    (hl : ∀ c ∈ l, c.Transfers) (hfails : ∃ c ∈ l, c.Fails) :
    ∃ l', s.calls ++ l = opened ++ l' ∧ (∀ c ∈ l', c.Transfers) ∧ ∃ c ∈ l', c.Fails := by
  obtain ⟨before, hbefore, htransfers, -⟩ := h.calls
  obtain ⟨c, hc, hcall⟩ := hfails
  refine ⟨before ++ l, by rw [hbefore, List.append_assoc], ?_, c, List.mem_append_right _ hc, hcall⟩
  exact List.forall_mem_append.2 ⟨htransfers, hl⟩

/-- Writing does not change what is still to be read. -/
theorem Progress.wrote_source (h : Progress a content source destination opened i s)
    (hsame : source = destination → content = []) (k m : ℕ) :
    (s.wrote source destination k m).files source = content := by
  by_cases heq : source = destination
  · have hempty : s.files source = [] := by rw [h.source, hsame heq]
    simp only [CopyState.wrote, CopyState.rest, ← heq, Function.update_self, hempty]
    rw [hsame heq, List.drop_nil, List.take_nil, List.take_nil, List.append_nil]
  · simp only [CopyState.wrote, Function.update_of_ne heq, h.source]

omit [DecidableEq File] in
theorem Progress.rest_eq (h : Progress a content source destination opened i s) :
    s.rest source = content.drop (1024 * i) := by
  rw [CopyState.rest, h.source, h.position]

omit [DecidableEq File] in
theorem Progress.block_eq (h : Progress a content source destination opened i s) (n : ℕ) :
    s.block source n = min n (min 1024 (content.length - 1024 * i)) := by
  have hsize : bufferSize = 1024 := rfl
  rw [CopyState.block, h.rest_eq, List.length_drop, hsize]

/-- With whole writes so far, the destination holds what has been read. -/
theorem Progress.wrote_destination (h : Progress a content source destination opened i s) (hwrites : FullWrites a i)
    {k m : ℕ} (heq : min m k = k) :
    (s.wrote source destination k (min m k)).files destination = content.take (1024 * i + k) := by
  simp only [CopyState.wrote, Function.update_self, h.rest_eq]
  rw [heq, List.take_take, min_self, h.copied hwrites, List.take_add]

omit [DecidableEq File] in
/-- At the last block no read and no write has failed. -/
theorem Progress.noFailure_of_last (h : Progress a content source destination opened i s) {n m : ℕ}
    (hread : a.reads i = some n) (hwrite : a.writes i = some m) (hlast : s.block source n < 1024) :
    NoFailure a content.length := by
  rw [h.block_eq] at hlast
  intro j hj
  -- the loop does not come to a later turn
  have hle : j ≤ i := by
    by_contra hlt
    obtain ⟨hlength, ⟨n', hn', hn⟩, -⟩ := hj i (by omega)
    rw [hread] at hn'
    obtain rfl := Option.some.inj hn'
    omega
  rcases Nat.lt_or_eq_of_le hle with hlt | rfl
  · obtain ⟨-, ⟨n', hn', -⟩, hw⟩ := h.reached j hlt
    exact ⟨by rw [hn']; exact Option.some_ne_none _, hw⟩
  · exact ⟨by rw [hread]; exact Option.some_ne_none _, by rw [hwrite]; exact Option.some_ne_none _⟩

/-- At the last block: with whole writes and all of the source in the destination, everything has
been transferred, and the other way round. -/
theorem Progress.whole_of_last (h : Progress a content source destination opened i s) {n m k : ℕ}
    (hread : a.reads i = some n) (hwrite : a.writes i = some m) (hk : s.block source n = k) (hlast : k < 1024) :
    (FullWrites a i ∧ min m k = k) ∧ (s.wrote source destination k (min m k)).files destination = content ↔
      Whole a content.length := by
  have hblock := h.block_eq n
  rw [hk] at hblock
  constructor
  · rintro ⟨⟨hwrites, heq⟩, hsamebytes⟩ j hj
    rw [h.wrote_destination hwrites heq] at hsamebytes
    -- the source ends with this block
    have hend : content.length ≤ 1024 * i + k := by
      rw [← hsamebytes, List.length_take]
      exact min_le_left _ _
    have hle : j ≤ i := by omega
    rcases Nat.lt_or_eq_of_le hle with hlt | rfl
    · obtain ⟨-, ⟨n', hn', hn⟩, -⟩ := h.reached j hlt
      obtain ⟨m', hm', hm⟩ := hwrites j hlt
      exact ⟨n', m', hn', (min_le_left _ _).trans hn, hm', (min_le_left _ _).trans hm⟩
    · exact ⟨n, m, hread, by omega, hwrite, by omega⟩
  · intro hwhole
    obtain ⟨n', m', hn', hn, hm', hm⟩ := hwhole i h.inside
    rw [hread] at hn'
    rw [hwrite] at hm'
    obtain rfl := Option.some.inj hn'
    obtain rfl := Option.some.inj hm'
    have hwrites : FullWrites a i := by
      intro j hj
      obtain ⟨hlength, -, -⟩ := h.reached j hj
      obtain ⟨-, m', -, -, hm', hm⟩ := hwhole j (by omega)
      exact ⟨m', hm', by omega⟩
    have heq : min m k = k := by omega
    refine ⟨⟨hwrites, heq⟩, ?_⟩
    rw [h.wrote_destination hwrites heq]
    exact List.take_of_length_le (by omega)

/-- The last block ends the loop. -/
theorem Progress.finish (h : Progress a content source destination opened i s)
    (hsame : source = destination → content = []) {n m : ℕ} (hread : a.reads i = some n)
    (hwrite : a.writes i = some m) (hlast : s.block source n < 1024) :
    Finished a content source destination opened
      (s.wrote source destination (s.block source n) (min m (s.block source n))) := by
  obtain ⟨l, hl, htransfers, hfull⟩ := h.append (min_le_right m (s.block source n))
  refine ⟨h.noFailure_of_last hread hwrite hlast, h.wrote_source hsame _ _, l, hl, htransfers, ?_⟩
  rw [hfull]
  exact h.whole_of_last hread hwrite rfl hlast

/-- Behind a whole block the loop goes on. -/
theorem Progress.next (h : Progress a content source destination opened i s)
    (hsame : source = destination → content = []) {n m k : ℕ} (hread : a.reads i = some n)
    (hwrite : a.writes i = some m) (hk : s.block source n = k) (hwhole : ¬ k < 1024) :
    Progress a content source destination opened (i + 1) (s.wrote source destination k (min m k)) := by
  have hinside := h.inside
  have hblock := h.block_eq n
  rw [hk] at hblock
  have hn : 1024 ≤ n := by omega
  have hk' : k = 1024 := by omega
  obtain ⟨l, hl, htransfers, hfull⟩ := h.append (min_le_right m k)
  refine ⟨?_, ?_, h.wrote_source hsame _ _, ?_, ⟨l, hl, htransfers, ?_⟩, ?_⟩
  · simp only [CopyState.wrote, h.position]
    omega
  · omega
  · exact h.reached.succ (by omega) ⟨n, hread, hn⟩ (by rw [hwrite]; exact Option.some_ne_none _)
  · rw [hfull, FullWrites.succ]
    refine and_congr_right fun _ => ⟨fun heq => ⟨m, hwrite, by omega⟩, ?_⟩
    rintro ⟨m', hm', hle⟩
    rw [hwrite] at hm'
    obtain rfl := Option.some.inj hm'
    omega
  · intro hwrites
    obtain ⟨hbefore, m', hm', hle⟩ := FullWrites.succ.1 hwrites
    rw [hwrite] at hm'
    obtain rfl := Option.some.inj hm'
    rw [h.wrote_destination hbefore (by omega), hk', Nat.mul_succ]

/-- **One turn** of the loop. -/
theorem Progress.turn (h : Progress a content source destination opened i s)
    (hsame : source = destination → content = []) :
    (∃ t, copyTurn a source destination s i = (none, t) ∧
        Progress a content source destination opened (i + 1) t) ∨
      (∃ t, copyTurn a source destination s i = (some .failed, t) ∧ Failed a content opened t) ∨
      ∃ t, copyTurn a source destination s i = (some .finished, t) ∧
        Finished a content source destination opened t := by
  cases hread : a.reads i with
  | none =>
    right; left
    refine ⟨_, copyTurn_unread hread, fun hno => (hno i h.reached).1 hread, ?_⟩
    refine h.append_failed (fun c hc => ?_) ⟨_, List.mem_singleton_self _, rfl⟩
    rw [List.mem_singleton.1 hc]
    exact ⟨rfl, rfl⟩
  | some n =>
  cases hwrite : a.writes i with
  | none =>
    right; left
    refine ⟨_, copyTurn_unwritten hread hwrite, fun hno => (hno i h.reached).2 hwrite, ?_⟩
    simp only [List.append_assoc]
    refine h.append_failed (fun c hc => ?_)
      ⟨.write (s.block source n) (-1), List.mem_append_right _ (List.mem_singleton_self _), ?_⟩
    · rcases List.mem_pair.1 hc with rfl | rfl <;> exact ⟨rfl, rfl⟩
    · change (-1 : ℤ) < (s.block source n : ℕ)
      omega
  | some m =>
  have hturn := @copyTurn_written File _ a source destination s i n m hread hwrite
  by_cases hlast : s.block source n < bufferSize
  · rw [if_pos hlast] at hturn
    right; right
    exact ⟨_, hturn, h.finish hsame hread hwrite hlast⟩
  · rw [if_neg hlast] at hturn
    left
    exact ⟨_, hturn, h.next hsame hread hwrite rfl hlast⟩

/-- **The loop ends** before it runs out of turns. -/
theorem copyLoop_ends (h : Progress a content source destination opened 0 s)
    (hsame : source = destination → content = []) {n : ℕ} (hn : content.length < 1024 * n) :
    ∃ t, (Loops.firstSome (copyTurn a source destination) (List.range n) s = (some .failed, t) ∧
        Failed a content opened t) ∨
      (Loops.firstSome (copyTurn a source destination) (List.range n) s = (some .finished, t) ∧
        Finished a content source destination opened t) := by
  have hloop : ∀ n, (∃ t, Loops.firstSome (copyTurn a source destination) (List.range n) s = (none, t) ∧
        Progress a content source destination opened n t) ∨
      ∃ t, (Loops.firstSome (copyTurn a source destination) (List.range n) s = (some .failed, t) ∧
          Failed a content opened t) ∨
        (Loops.firstSome (copyTurn a source destination) (List.range n) s = (some .finished, t) ∧
          Finished a content source destination opened t) := by
    intro n
    induction n with
    | zero => exact Or.inl ⟨s, rfl, h⟩
    | succ n ih =>
      rw [List.range_succ]
      rcases ih with ⟨t, hnone, hprogress⟩ | ⟨t, ⟨hsome, hfailed⟩ | ⟨hsome, hfinished⟩⟩
      · rw [Loops.firstSome_snoc_none hnone]
        rcases hprogress.turn hsame with hgo | ⟨u, hturn, hfailed⟩ | ⟨u, hturn, hfinished⟩
        · exact Or.inl hgo
        · exact Or.inr ⟨u, Or.inl ⟨hturn, hfailed⟩⟩
        · exact Or.inr ⟨u, Or.inr ⟨hturn, hfinished⟩⟩
      · rw [Loops.firstSome_snoc_some hsome]
        exact Or.inr ⟨t, Or.inl ⟨rfl, hfailed⟩⟩
      · rw [Loops.firstSome_snoc_some hsome]
        exact Or.inr ⟨t, Or.inr ⟨rfl, hfinished⟩⟩
  rcases hloop n with ⟨t, -, hprogress⟩ | hends
  · -- all turns so far have read whole blocks
    have hinside := hprogress.inside
    omega
  · exact hends

end Turn

/-! ## Copies -/

/-- When a copy keeps its promise: a file cannot be opened, or no read and no write fails and the
failure of a close is what is reported, or all bytes are transferred. A file is not copied to
itself, for it is empty once it has been opened for writing. -/
def KeepsPromise (a : Answers) (files : File → List Byte) (source destination : File) : Prop :=
  a.source = -1 ∨ a.destination = -1 ∨
    (NoFailure a (readable files source destination).length ∧
      (a.destinationClosed = -1 ∨ a.sourceClosed = -1)) ∨
    (Whole a (readable files source destination).length ∧ (source = destination → files source = []))

theorem Whole.noFailure {a : Answers} {length : ℕ} (h : Whole a length) : NoFailure a length := by
  intro i hi
  have hinside : 1024 * i ≤ length := by
    rcases i with _ | i
    · exact Nat.zero_le _
    · exact (hi i (Nat.lt_succ_self i)).1
  obtain ⟨n, m, hread, -, hwrite, -⟩ := h i hinside
  exact ⟨by rw [hread]; exact Option.some_ne_none _, by rw [hwrite]; exact Option.some_ne_none _⟩

section Copy

variable {a : Answers} {files : File → List Byte} {source destination : File}

/-- A copy whose files are both open. -/
theorem copy_opened (hs : a.source ≠ -1) (hd : a.destination ≠ -1) :
    ∃ t : CopyState File,
      (Failed a (readable files source destination) [.openFile a.source, .openFile a.destination] t ∧
        copy a files source destination = some ⟨.success, t.files, t.calls ++
          [Call.close a.destination a.destinationClosed, Call.close a.source a.sourceClosed]⟩) ∨
      (Finished a (readable files source destination) source destination
          [.openFile a.source, .openFile a.destination] t ∧
        copy a files source destination = some
          ⟨if a.destinationClosed = -1 ∨ a.sourceClosed = -1 then a.lastError else .success, t.files,
            t.calls ++ [Call.close a.destination a.destinationClosed, Call.close a.source a.sourceClosed]⟩) := by
  have hreadable : Function.update files destination [] source = readable files source destination := by
    rw [readable]
    split
    · rename_i heq
      rw [heq, Function.update_self]
    · rename_i hne
      exact Function.update_of_ne hne _ _
  have hlength : (readable files source destination).length ≤ (files source).length := by
    rw [readable]
    split
    · exact Nat.zero_le _
    · exact le_refl _
  have hstart : Progress a (readable files source destination) source destination
      [.openFile a.source, .openFile a.destination] 0
      ⟨Function.update files destination [], 0, [.openFile a.source, .openFile a.destination]⟩ := by
    refine ⟨rfl, Nat.zero_le _, hreadable, fun j hj => absurd hj (Nat.not_lt_zero j),
      ⟨[], rfl, fun c hc => absurd hc List.not_mem_nil, ?_⟩, fun _ => ?_⟩
    · exact iff_of_true (fun c hc => absurd hc List.not_mem_nil) fun j hj => absurd hj (Nat.not_lt_zero j)
    · exact Function.update_self _ _ _
  have hsize : bufferSize = 1024 := rfl
  have hturns : (readable files source destination).length < 1024 * ((files source).length / bufferSize + 1) := by
    rw [hsize]
    omega
  obtain ⟨t, ⟨hloop, hfailed⟩ | ⟨hloop, hfinished⟩⟩ :=
    copyLoop_ends hstart (fun heq => by rw [readable, if_pos heq]) hturns
  · refine ⟨t, Or.inl ⟨hfailed, ?_⟩⟩
    simp only [copy, if_neg hs, if_neg hd, List.cons_append, List.nil_append, hloop, Option.map_some,
      yaffsTranslateError, if_pos hd]
  · refine ⟨t, Or.inr ⟨hfinished, ?_⟩⟩
    simp only [copy, if_neg hs, if_neg hd, List.cons_append, List.nil_append, hloop, Option.map_some,
      yaffsTranslateError]
    by_cases hdest : a.destinationClosed = -1 <;> by_cases hsource : a.sourceClosed = -1 <;>
      simp [hdest, hsource]

/-- The descriptors of a copy whose files are both open. -/
theorem closes_perm (hs : a.source ≠ -1) (hd : a.destination ≠ -1) {calls l : List Call}
    (hcalls : calls = [.openFile a.source, .openFile a.destination] ++ l) (hl : ∀ c ∈ l, c.Transfers) :
    ((calls ++ [Call.close a.destination a.destinationClosed, Call.close a.source a.sourceClosed]).filterMap
        Call.closes).Perm
      ((calls ++ [Call.close a.destination a.destinationClosed, Call.close a.source a.sourceClosed]).filterMap
        Call.opens) := by
  have hnone : l.filterMap Call.closes = [] ∧ l.filterMap Call.opens = [] :=
    ⟨List.filterMap_eq_nil_iff.2 fun c hc => (hl c hc).2, List.filterMap_eq_nil_iff.2 fun c hc => (hl c hc).1⟩
  rw [hcalls, List.filterMap_append, List.filterMap_append, List.filterMap_append, List.filterMap_append,
    hnone.1, hnone.2]
  simp only [List.filterMap_cons, List.filterMap_nil, Call.closes, Call.opens, if_neg hs, if_neg hd,
    List.append_nil, List.nil_append]
  exact List.Perm.swap _ _ _

/-- What has been read is all of the source, unless the file is copied to itself. -/
theorem Finished.bytes_iff {opened : List Call} {t : CopyState File} {P W : Prop}
    (h : Finished a (readable files source destination) source destination opened t)
    (hwhole : P ∧ t.files destination = readable files source destination ↔ W) :
    P ∧ t.files destination = files source ↔ W ∧ (source = destination → files source = []) := by
  by_cases heq : source = destination
  · -- the file was emptied when it was opened for writing
    have hread : readable files source destination = [] := by rw [readable, if_pos heq]
    have hempty : t.files destination = [] := by rw [← heq, h.source, hread]
    rw [← hwhole, hread, hempty]
    constructor
    · rintro ⟨hp, hbytes⟩
      exact ⟨⟨hp, rfl⟩, fun _ => hbytes.symm⟩
    · rintro ⟨⟨hp, -⟩, hbytes⟩
      exact ⟨hp, (hbytes heq).symm⟩
  · have hread : readable files source destination = files source := by rw [readable, if_neg heq]
    rw [← hwhole, hread]
    exact (and_iff_left fun h => absurd h heq).symm

/-- No call has failed, neither in the loop nor before or behind it. -/
theorem not_fails (hs : a.source ≠ -1) (hd : a.destination ≠ -1)
    (hclose : ¬ (a.destinationClosed = -1 ∨ a.sourceClosed = -1)) {calls l : List Call}
    (hcalls : calls = [.openFile a.source, .openFile a.destination] ++ l) (hl : ∀ c ∈ l, ¬ c.Fails) :
    ¬ ∃ c ∈ calls ++ [Call.close a.destination a.destinationClosed, Call.close a.source a.sourceClosed], c.Fails := by
  rintro ⟨c, hc, hfails⟩
  rw [hcalls] at hc
  push Not at hclose
  rcases List.mem_append.1 hc with hc | hc
  · rcases List.mem_append.1 hc with hc | hc
    · rcases List.mem_pair.1 hc with rfl | rfl
      · exact absurd hfails hs
      · exact absurd hfails hd
    · exact absurd hfails (hl c hc)
  · rcases List.mem_pair.1 hc with rfl | rfl
    · exact absurd hfails hclose.1
    · exact absurd hfails hclose.2

omit [DecidableEq File] in
/-- After a failed read or write `Success` is reported: the error is translated from the descriptor
of the destination. -/
theorem Failed.not_trueCopy {bytes content : List Byte} {opened closed : List Call} {t : CopyState File}
    (h : Failed a content opened t) : ¬ TrueCopy bytes destination ⟨.success, t.files, t.calls ++ closed⟩ := by
  intro htrue
  obtain ⟨l, hl, -, c, hc, hfails⟩ := h.calls
  refine htrue.noticed ⟨c, ?_, hfails⟩ rfl
  rw [hl]
  exact List.mem_append_left _ (List.mem_append_right _ hc)

/-- **A copy keeps its promise** exactly when all bytes are transferred, or a failed close or a
file that cannot be opened is all that goes wrong. -/
theorem trueCopy_iff (a : Answers) (files : File → List Byte) (source destination : File) :
    ∃ c, copy a files source destination = some c ∧
      (TrueCopy (files source) destination c ↔ KeepsPromise a files source destination) := by
  by_cases hs : a.source = -1
  · refine ⟨⟨a.lastError, files, [.openFile a.source]⟩, ?_, iff_of_true ⟨?_, ?_, ?_⟩ (Or.inl hs)⟩
    · simp only [copy, yaffsTranslateError, hs]
      rfl
    · exact fun h => absurd h a.lastError_ne
    · exact fun _ => a.lastError_ne
    · simp [Call.closes, Call.opens, hs]
  by_cases hd : a.destination = -1
  · refine ⟨⟨a.lastError, files, [.openFile a.source, .openFile a.destination, .close a.source a.sourceClosed]⟩,
      ?_, iff_of_true ⟨?_, ?_, ?_⟩ (Or.inr (Or.inl hd))⟩
    · simp only [copy, if_neg hs, yaffsTranslateError, hd]
      rfl
    · exact fun h => absurd h a.lastError_ne
    · exact fun _ => a.lastError_ne
    · simp only [List.filterMap_cons, List.filterMap_nil, Call.closes, Call.opens, if_neg hs, if_pos hd]
      exact List.Perm.refl _
  obtain ⟨t, ⟨hfailed, hcopy⟩ | ⟨hfinished, hcopy⟩⟩ := @copy_opened File _ a files source destination hs hd
  · refine ⟨_, hcopy, iff_of_false hfailed.not_trueCopy ?_⟩
    rintro (h | h | ⟨h, -⟩ | ⟨h, -⟩)
    · exact hs h
    · exact hd h
    · exact hfailed.failure h
    · exact hfailed.failure h.noFailure
  · obtain ⟨l, hl, htransfers, hwhole⟩ := hfinished.calls
    have hperm := closes_perm hs hd hl htransfers
    refine ⟨_, hcopy, ?_⟩
    by_cases hclose : a.destinationClosed = -1 ∨ a.sourceClosed = -1
    · rw [if_pos hclose]
      refine iff_of_true ⟨fun h => absurd h a.lastError_ne, fun _ => a.lastError_ne, hperm⟩ ?_
      exact Or.inr (Or.inr (Or.inl ⟨hfinished.noFailure, hclose⟩))
    · rw [if_neg hclose]
      have hbytes := hfinished.bytes_iff hwhole
      constructor
      · intro htrue
        have hnofail : ∀ c ∈ l, ¬ c.Fails := by
          intro c hc hfails
          refine htrue.noticed ⟨c, ?_, hfails⟩ rfl
          rw [hl]
          exact List.mem_append_left _ (List.mem_append_right _ hc)
        exact Or.inr (Or.inr (Or.inr (hbytes.1 ⟨hnofail, htrue.same rfl⟩)))
      · intro hkeeps
        have hok : Whole a (readable files source destination).length ∧
            (source = destination → files source = []) := by
          rcases hkeeps with h | h | ⟨-, h⟩ | h
          · exact absurd h hs
          · exact absurd h hd
          · exact absurd h hclose
          · exact h
        obtain ⟨hnofail, hsame⟩ := hbytes.2 hok
        exact ⟨fun _ => hsame, fun hfails => absurd hfails (not_fails hs hd hclose hl hnofail), hperm⟩

/-- A copy whose first read fails. -/
def unreadable : Answers where
  source := 1
  destination := 2
  reads := fun _ => none
  writes := fun _ => some 1024
  sourceClosed := 0
  destinationClosed := 0
  lastError := .failed 5
  lastError_ne := by decide

/-- A file of one byte, and one that is empty. -/
def oneByte (file : Bool) : List Byte := if file then [1] else []

/-- `Success` is returned, and the destination is empty. -/
theorem not_trueCopy_unreadable : ∃ c, copy unreadable oneByte true false = some c ∧
    ¬ TrueCopy (oneByte true) false c := by
  refine ⟨⟨.success, Function.update oneByte false [], [.openFile 1, .openFile 2, .read (-1), .close 2 0,
    .close 1 0]⟩, rfl, ?_⟩
  intro htrue
  exact absurd (htrue.same rfl) (by decide)

end Copy

end YaffsFileSystem

end PWSat2OBC
