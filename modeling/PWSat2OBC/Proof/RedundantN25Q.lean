import PWSat2OBC.Proof.N25Q
import PWSat2OBC.Proof.Redundancy
import PWSat2OBC.Spec.RedundantN25Q

/-!
# Triple redundancy on N25Q flash

* `readMemory_majority`: a read that succeeds holds the majority of the chips, where the vote
  of `CorrectBuffer` is not needed or its conditions are met; it succeeds exactly if the
  chips it needs can be read.
* `writesRange_iff`: the parts of a write are cut from the start of the buffer and the pages
  of a chip are not, so a byte is written to its place exactly if it stays in the page of its
  part; others wrap around to where the byte one page earlier belongs.
-/

namespace PWSat2OBC.RedundantN25Q

open N25Q Voting

/-! ## Reading -/

section

variable (chips : ReadChips) (address : ℕ) (outputBuffer redundantBuffer1 redundantBuffer2 : Span)

/-- The number of bytes that are read. -/
def bufferLength : ℕ :=
  min outputBuffer.length (min redundantBuffer1.length redundantBuffer2.length)

/-- The bytes of a chip that are read. -/
def chipBytes (i : Fin 3) (length : ℕ) : List Byte := memoryBytes (chips.memory i) address length

/-- The first two chips agree on the bytes that are read. -/
def Agree (length : ℕ) : Prop := chipBytes chips address 0 length = chipBytes chips address 1 length

/-- The buffer vote is done: the length and all buffers are aligned to words. -/
def WordAligned : Prop :=
  bufferLength outputBuffer redundantBuffer1 redundantBuffer2 % 4 = 0 ∧ outputBuffer.addr % 4 = 0 ∧
    redundantBuffer1.addr % 4 = 0 ∧ redundantBuffer2.addr % 4 = 0

theorem length_subspan {s : Span} {n : ℕ} (h : n ≤ s.length) : (s.subspan 0 n).bytes.length = n := by
  unfold Span.length at h
  simp only [Span.subspan, List.drop_zero, List.length_take]
  omega

theorem getElem?_refill {front buffer : List Byte} {i : ℕ} (hi : i < front.length)
    (hle : front.length ≤ buffer.length) : (refill front buffer)[i]? = front[i]? := by
  rw [refill, List.take_of_length_le hle, List.getElem?_append_left hi]

theorem getElem?_memoryBytes (memory : Memory) {length i : ℕ} (hi : i < length) :
    (memoryBytes memory address length)[i]? = some (memory ((chipAddress address + i) % size)) := by
  simp [memoryBytes, hi]

/-- What the driver of one chip returns. -/
theorem driver_cases (i : Fin 3) {s : Span} {length : ℕ} (hle : length ≤ s.length) :
    ∃ r bytes report, N25Q.readMemory (deviceId i) (chips.memory i) (chips.attempts i) address
        (s.subspan 0 length).bytes = (r, bytes, report) ∧
      (r = .success ↔ Readable (chips.attempts i)) ∧ bytes.length = length ∧
      (Readable (chips.attempts i) → bytes = chipBytes chips address i length) := by
  have hlength := length_subspan hle
  refine ⟨_, _, _, rfl, readMemory_success_iff (deviceId i) _,
    (length_readMemory (deviceId i) _).trans hlength, ?_⟩
  intro h
  refine (readMemory_bytes (deviceId i) _ h).trans ?_
  rw [hlength]
  rfl

/-- The result of the vote. -/
def corrected (length : ℕ) : List Byte :=
  (Redundancy.correctBuffer ⟨outputBuffer.addr, chipBytes chips address 0 length⟩
    ⟨redundantBuffer1.addr, chipBytes chips address 1 length⟩
    ⟨redundantBuffer2.addr, chipBytes chips address 2 length⟩).2

/-- The outcomes of a read: one of the first two chips is not readable, both agree, or the
third one decides. -/
theorem readMemory_cases :
    let outcome := readMemory chips address outputBuffer redundantBuffer1 redundantBuffer2
    let length := bufferLength outputBuffer redundantBuffer1 redundantBuffer2
    (¬ (Readable (chips.attempts 0) ∧ Readable (chips.attempts 1)) ∧ outcome.result ≠ .success) ∨
    (Readable (chips.attempts 0) ∧ Readable (chips.attempts 1)) ∧
      (Agree chips address length ∧ outcome.result = .success ∧
          outcome.outputBuffer = refill (chipBytes chips address 0 length) outputBuffer.bytes ∨
        ¬ Agree chips address length ∧ (outcome.result = .success ↔ Readable (chips.attempts 2)) ∧
          (Readable (chips.attempts 2) → outcome.outputBuffer =
            refill (corrected chips address outputBuffer redundantBuffer1 redundantBuffer2 length)
              outputBuffer.bytes)) := by
  intro outcome length
  obtain ⟨r0, bytes0, report0, hdriver0, hr0, -, hbytes0⟩ :=
    @driver_cases chips address 0 outputBuffer length (min_le_left _ _)
  obtain ⟨r1, bytes1, report1, hdriver1, hr1, -, hbytes1⟩ :=
    @driver_cases chips address 1 redundantBuffer1 length (le_trans (min_le_right _ _) (min_le_left _ _))
  obtain ⟨r2, bytes2, report2, hdriver2, hr2, -, hbytes2⟩ :=
    @driver_cases chips address 2 redundantBuffer2 length (le_trans (min_le_right _ _) (min_le_right _ _))
  simp only [outcome, readMemory]
  rw [show min outputBuffer.length (min redundantBuffer1.length redundantBuffer2.length) = length from rfl]
  simp only [hdriver0, hdriver1, hdriver2]
  by_cases h0 : Readable (chips.attempts 0)
  · rw [if_neg (not_not.2 (hr0.2 h0))]
    by_cases h1 : Readable (chips.attempts 1)
    · rw [if_neg (not_not.2 (hr1.2 h1))]
      right
      refine ⟨⟨h0, h1⟩, ?_⟩
      rw [hbytes0 h0, hbytes1 h1]
      by_cases hagree : chipBytes chips address 0 length = chipBytes chips address 1 length
      · rw [if_pos hagree]
        exact Or.inl ⟨hagree, rfl, rfl⟩
      · -- they differ, and the third chip is asked
        rw [if_neg hagree]
        right
        refine ⟨hagree, ?_⟩
        by_cases h2 : Readable (chips.attempts 2)
        · rw [if_neg (not_not.2 (hr2.2 h2)), hbytes2 h2]
          exact ⟨⟨fun _ => h2, fun _ => rfl⟩, fun _ => rfl⟩
        · have hne : r2 ≠ .success := fun h => h2 (hr2.1 h)
          rw [if_pos hne]
          exact ⟨⟨fun h => absurd h hne, fun h => absurd h h2⟩, fun h => absurd h h2⟩
    · -- the second chip is not made up for by the third one either
      have hne : r1 ≠ .success := fun h => h1 (hr1.1 h)
      rw [if_pos hne]
      exact Or.inl ⟨fun h => h1 h.2, hne⟩
  · have hne : r0 ≠ .success := fun h => h0 (hr0.1 h)
    rw [if_pos hne]
    exact Or.inl ⟨fun h => h0 h.1, hne⟩

/-- The majority of the three chips at the `i`-th cell. -/
def majority (i : ℕ) : Byte :=
  vote ((List.finRange 3).map fun c => chips.memory c ((chipAddress address + i) % size))

theorem majority_eq (i : ℕ) :
    majority chips address i = majority3 (chips.memory 0 ((chipAddress address + i) % size))
      (chips.memory 1 ((chipAddress address + i) % size))
      (chips.memory 2 ((chipAddress address + i) % size)) := by
  rw [← vote_three]
  rfl

/-- The vote over aligned buffers. -/
theorem corrected_eq {length : ℕ} (hlength : length % 4 = 0) (h0 : outputBuffer.addr % 4 = 0)
    (h1 : redundantBuffer1.addr % 4 = 0) (h2 : redundantBuffer2.addr % 4 = 0) :
    corrected chips address outputBuffer redundantBuffer1 redundantBuffer2 length =
      (List.range length).map (majority chips address) := by
  unfold corrected chipBytes memoryBytes
  rw [Redundancy.correctBuffer_map _ _ _ _ _ _ _ h1 h2, if_pos ⟨by rwa [List.length_range], h0⟩]
  apply List.map_congr_left
  intro i _
  exact (majority_eq chips address i).symm

/-- **The read is a majority read**, where the vote is done or not needed. -/
theorem readMemory_majority :
    ((readMemory chips address outputBuffer redundantBuffer1 redundantBuffer2).result = .success ↔
      Readable (chips.attempts 0) ∧ Readable (chips.attempts 1) ∧
        (Agree chips address (bufferLength outputBuffer redundantBuffer1 redundantBuffer2) ∨
          Readable (chips.attempts 2))) ∧
    ((readMemory chips address outputBuffer redundantBuffer1 redundantBuffer2).result = .success →
      Agree chips address (bufferLength outputBuffer redundantBuffer1 redundantBuffer2) ∨
        WordAligned outputBuffer redundantBuffer1 redundantBuffer2 →
      ∀ i < bufferLength outputBuffer redundantBuffer1 redundantBuffer2,
        (readMemory chips address outputBuffer redundantBuffer1 redundantBuffer2).outputBuffer[i]? =
          some (majority chips address i)) := by
  let length := bufferLength outputBuffer redundantBuffer1 redundantBuffer2
  have hle : length ≤ outputBuffer.bytes.length := min_le_left _ _
  rcases readMemory_cases chips address outputBuffer redundantBuffer1 redundantBuffer2 with
    ⟨hnot, hresult⟩ | ⟨⟨h0, h1⟩, ⟨hagree, hresult, houtput⟩ | ⟨hdiffer, hresult, houtput⟩⟩
  · exact ⟨⟨fun h => absurd h hresult, fun h => absurd ⟨h.1, h.2.1⟩ hnot⟩, fun h => absurd h hresult⟩
  · refine ⟨⟨fun _ => ⟨h0, h1, Or.inl hagree⟩, fun _ => hresult⟩, ?_⟩
    intro _ _ i hi
    -- two chips that agree are the majority, whatever the third one holds
    have hbytes : (chipBytes chips address 0 length).length = length := length_memoryBytes _ _ _
    have hbyte := congrArg (fun l => l[i]?) hagree
    simp only [chipBytes] at hbyte
    rw [getElem?_memoryBytes address _ hi, getElem?_memoryBytes address _ hi, Option.some.injEq] at hbyte
    rw [houtput, getElem?_refill (by rwa [hbytes]) (by rwa [hbytes]), chipBytes,
      getElem?_memoryBytes address _ hi]
    rw [majority_eq, ← hbyte, majority3_left]
  · refine ⟨⟨?_, ?_⟩, ?_⟩
    · intro h
      exact ⟨h0, h1, Or.inr (hresult.1 h)⟩
    · rintro ⟨-, -, hagree | h2⟩
      · exact absurd hagree hdiffer
      · exact hresult.2 h2
    · rintro hsuccess (hagree | ⟨hlength, ha0, ha1, ha2⟩) i hi
      · exact absurd hagree hdiffer
      · have hcorrected := corrected_eq chips address outputBuffer redundantBuffer1
          redundantBuffer2 hlength ha0 ha1 ha2
        have hlen : ((List.range length).map (majority chips address)).length = length := by simp
        rw [houtput (hresult.1 hsuccess), hcorrected, getElem?_refill (by rwa [hlen]) (by rwa [hlen]),
          List.getElem?_map, Option.map_eq_some_iff]
        exact ⟨i, List.getElem?_range hi, rfl⟩

/-- **A single unreadable chip**: the first one is given up on, although the others can be
read. -/
theorem first_chip_unreadable :
    ∃ chips : ReadChips, (¬ Readable (chips.attempts 0) ∧ Readable (chips.attempts 1) ∧
        Readable (chips.attempts 2)) ∧
      (readMemory chips 0 ⟨0, [0]⟩ ⟨4, [0]⟩ ⟨8, [0]⟩).result ≠ .success := by
  refine ⟨⟨fun _ _ => 0, fun i _ => if i = 0 then ⟨.failed 1, .success, []⟩
    else ⟨.success, .success, []⟩⟩, ?_, ?_⟩
  · decide
  · decide

end

/-! ## Programming -/

section

variable (address : ℕ) (buffer : List Byte)

/-- The bytes of the part at an offset. -/
def part (offset : ℕ) : List Byte := (buffer.drop offset).take (min pageSize (buffer.length - offset))

/-- All chips execute all their page programs. -/
def AllExecute (answers : ℕ → Fin 3 → PageAnswer) : Prop :=
  ∀ o ∈ offsets buffer.length, ∀ i, (answers o i).instead = none

/-- A chip after its page programs for the parts at the given offsets. -/
def programParts (os : List ℕ) (memory : Memory) : Memory :=
  os.foldl (fun m o => (Operation.writePage (address + o) (part buffer o)).effect m) memory

/-- One turn of the loop programs its part into each chip. -/
theorem writePart_memory {answers : ℕ → Fin 3 → PageAnswer} {o : ℕ} {i : Fin 3}
    (hexec : (answers o i).instead = none) (chips : Chips) :
    (writePart answers address buffer chips o).2.memory i =
      (Operation.writePage (address + o) (part buffer o)).effect (chips.memory i) := by
  have hpage : writePage (answers o i) (chips.memory i) address o (part buffer o) =
      (Operation.writePage (address + o) (part buffer o)).effect (chips.memory i) := by
    rw [writePage, hexec]
  unfold writePart
  dsimp only
  split <;> exact hpage

/-- A turn never ends the loop with success. -/
theorem writePart_ne_success {answers : ℕ → Fin 3 → PageAnswer} {chips : Chips} {o : ℕ} :
    (writePart answers address buffer chips o).1 ≠ some .success := by
  unfold writePart
  dsimp only
  split
  · simp
  · simp
  · rename_i votedResult hne _
    simpa using hne

/-- **A write that succeeds** has programmed all parts. -/
theorem writeMemory_memory {answers : ℕ → Fin 3 → PageAnswer} (hexec : AllExecute buffer answers)
    (chips : Chips) (hsuccess : (writeMemory answers address buffer chips).1 = .success) (i : Fin 3) :
    (writeMemory answers address buffer chips).2.memory i =
      programParts address buffer (offsets buffer.length) (chips.memory i) := by
  have hloop : ∀ os chips t, (∀ o ∈ os, ∀ i, (answers o i).instead = none) →
      Loops.firstSome (writePart answers address buffer) os chips = (none, t) →
      t.memory i = programParts address buffer os (chips.memory i) := by
    intro os
    induction os with
    | nil =>
      intro chips t _ h
      rw [Loops.firstSome_nil, Prod.mk.injEq] at h
      rw [← h.2]
      rfl
    | cons o os ih =>
      intro chips t hexec h
      have hturn := writePart_memory address buffer (hexec o List.mem_cons_self i) chips
      rcases hbody : writePart answers address buffer chips o with ⟨_ | r, u⟩
      · rw [hbody] at hturn
        rw [Loops.firstSome_cons_none hbody] at h
        rw [ih u t (fun o' ho' => hexec o' (List.mem_cons_of_mem o ho')) h, hturn]
        rfl
      · rw [Loops.firstSome_cons_some hbody] at h
        exact absurd (congrArg Prod.fst h) (by simp)
  unfold writeMemory at hsuccess ⊢
  rcases h : Loops.firstSome (writePart answers address buffer) (offsets buffer.length) chips with
    ⟨_ | r, t⟩
  · exact hloop _ chips t hexec h
  · -- a turn that ends the loop returns an error
    rw [h] at hsuccess
    obtain rfl : r = .success := hsuccess
    obtain ⟨o, -, t', hr⟩ := Loops.firstSome_returns (congrArg Prod.fst h)
    exact absurd hr (writePart_ne_success address buffer)

/-- The byte of the buffer that the cell `a` gets, counting pages from the one of `address`. -/
def source (a : ℕ) : ℕ := (a / pageSize - address / pageSize) * pageSize + pageIndex address a

/-- **The page programs in closed form**, as long as the range ends inside the chip: in the
`j`-th page the `j`-th part, turned by the offset of `address` in its page. -/
theorem programParts_eq (memory : Memory) (hsize : address + buffer.length ≤ size) {k : ℕ}
    (hk : k * pageSize < buffer.length + pageSize) (a : ℕ) :
    programParts address buffer ((List.range k).map (· * pageSize)) memory a =
      if (address / pageSize ≤ a / pageSize ∧ a / pageSize < address / pageSize + k) ∧
          source address a < buffer.length then
        memory a &&& buffer.getD (source address a) 0
      else memory a := by
  induction k with
  | zero =>
    rw [if_neg (by omega)]
    rfl
  | succ k ih =>
    rw [Nat.succ_mul] at hk
    have hk' : k * pageSize < buffer.length := by omega
    have hin : address + k * pageSize < size := by omega
    have hchip : chipAddress (address + k * pageSize) = address + k * pageSize := by
      rw [chipAddress_eq, Nat.mod_eq_of_lt hin]
    have hindex : pageIndex (address + k * pageSize) a = pageIndex address a := by
      simp only [pageIndex, pageSize]
      omega
    have hpage : (address + k * pageSize) / pageSize = address / pageSize + k := by
      simp only [pageSize]
      omega
    have hlt : pageIndex address a < pageSize := Nat.mod_lt _ (by decide)
    have hprev := ih (by omega)
    unfold programParts at hprev ⊢
    rw [List.range_succ, List.map_append, List.foldl_append, List.map_cons, List.map_nil,
      List.foldl_cons, List.foldl_nil, Operation.effect, hchip, programPage, hindex, hpage, hprev]
    have hlength : (part buffer (k * pageSize)).length = min pageSize (buffer.length - k * pageSize) := by
      simp only [part, List.length_take, List.length_drop]
      omega
    rw [hlength]
    by_cases ha : a / pageSize = address / pageSize + k
    · -- the cell is in the page of this part
      have hsource : source address a = k * pageSize + pageIndex address a := by
        unfold source
        rw [ha, Nat.add_sub_cancel_left]
      by_cases hidx : pageIndex address a < buffer.length - k * pageSize
      · have hget : (part buffer (k * pageSize)).getD (pageIndex address a) 0 =
            buffer.getD (source address a) 0 := by
          rw [hsource, part, List.getD_eq_getElem?_getD, List.getD_eq_getElem?_getD,
            List.getElem?_take_of_lt (by omega), List.getElem?_drop]
        rw [if_pos ⟨ha, by omega⟩, if_neg (by omega), if_pos ⟨by omega, by omega⟩, hget]
      · rw [if_neg (by omega), if_neg (by omega), if_neg (by omega)]
    · -- another page: only the parts before may have reached it
      have hiff : ((address / pageSize ≤ a / pageSize ∧ a / pageSize < address / pageSize + k) ∧
            source address a < buffer.length) ↔
          (address / pageSize ≤ a / pageSize ∧ a / pageSize < address / pageSize + (k + 1)) ∧
            source address a < buffer.length := by
        omega
      rw [if_neg (fun h => ha h.1)]
      simp only [hiff]

/-- The whole range is written: every chip holds the old bytes ANDed with the buffer at the
addresses of the range, and nothing else has changed. -/
def WritesRange : Prop :=
  ∀ (answers : ℕ → Fin 3 → PageAnswer) (chips : Chips), AllExecute buffer answers →
    (writeMemory answers address buffer chips).1 = .success →
    ∀ i, let memory := (writeMemory answers address buffer chips).2.memory i
      (∀ n < buffer.length, address + n < size ∧
        memory (address + n) = chips.memory i (address + n) &&& buffer.getD n 0) ∧
      ∀ a < size, a < address ∨ address + buffer.length ≤ a → memory a = chips.memory i a

/-- The bytes that do not stay in the page of their part change nothing. -/
def StaysInPages : Prop :=
  ∀ n < buffer.length, address % pageSize + n % pageSize < pageSize ∨ buffer.getD n 0 = 0xFF

/-- All parts of a write. -/
theorem programParts_offsets (memory : Memory) (hsize : address + buffer.length ≤ size) (a : ℕ) :
    programParts address buffer (offsets buffer.length) memory a =
      if address / pageSize ≤ a / pageSize ∧ source address a < buffer.length then
        memory a &&& buffer.getD (source address a) 0
      else memory a := by
  have hlt : pageIndex address a < pageSize := Nat.mod_lt _ (by decide)
  rw [offsets, programParts_eq address buffer memory hsize (by simp only [pageSize]; omega)]
  have hiff : ((address / pageSize ≤ a / pageSize ∧
        a / pageSize < address / pageSize + (buffer.length + pageSize - 1) / pageSize) ∧
        source address a < buffer.length) ↔
      address / pageSize ≤ a / pageSize ∧ source address a < buffer.length := by
    simp only [source, pageSize] at hlt ⊢
    omega
  simp only [hiff]

theorem and_allOnes (b : Byte) : b &&& 0xFF = b := by
  have h : (0xFF : Byte) = BitVec.allOnes 8 := by decide
  rw [h, BitVec.and_allOnes]

/-- Where a byte that stays in the page of its part goes. -/
theorem source_of_stays {n : ℕ} (h : address % pageSize + n % pageSize < pageSize) :
    source address (address + n) = n := by
  simp only [source, pageIndex, pageSize] at h ⊢
  omega

/-- At the address of a byte that does not, the byte one page further on arrives. -/
theorem source_of_wraps {n : ℕ} (h : pageSize ≤ address % pageSize + n % pageSize) :
    source address (address + n) = n + pageSize := by
  simp only [source, pageIndex, pageSize] at h ⊢
  omega

/-- A byte that arrives outside of the range does not stay in the page of its part. -/
theorem wraps_of_outside {a : ℕ} (hpage : address / pageSize ≤ a / pageSize)
    (hout : a < address ∨ address + buffer.length ≤ a) (hsource : source address a < buffer.length) :
    pageSize ≤ address % pageSize + source address a % pageSize := by
  simp only [source, pageIndex, pageSize] at hpage hsource ⊢
  omega

theorem writesRange_of_stays (hsize : buffer.length = 0 ∨ address + buffer.length ≤ size)
    (hpages : StaysInPages address buffer) : WritesRange address buffer := by
  intro answers chips hexec hsuccess i memory
  have hmemory : memory = programParts address buffer (offsets buffer.length) (chips.memory i) :=
    writeMemory_memory address buffer hexec chips hsuccess i
  rcases hsize with hempty | hsize
  · rw [hempty] at hmemory
    refine ⟨?_, ?_⟩
    · intro n hn
      omega
    · intro a _ _
      rw [hmemory]
      rfl
  have hcell : ∀ a, memory a = if address / pageSize ≤ a / pageSize ∧
      source address a < buffer.length then
        chips.memory i a &&& buffer.getD (source address a) 0 else chips.memory i a := by
    intro a
    rw [hmemory, programParts_offsets address buffer _ hsize]
  refine ⟨?_, ?_⟩
  · intro n hn
    refine ⟨by omega, ?_⟩
    have hpage : address / pageSize ≤ (address + n) / pageSize :=
      Nat.div_le_div_right (Nat.le_add_right _ _)
    rw [hcell]
    by_cases hstays : address % pageSize + n % pageSize < pageSize
    · rw [source_of_stays address hstays, if_pos ⟨hpage, hn⟩]
    · -- the byte goes astray, and what arrives here in its place is `0xFF` as well
      have hn' := (hpages n hn).resolve_left hstays
      rw [source_of_wraps address (not_lt.1 hstays), hn', and_allOnes]
      by_cases hnext : n + pageSize < buffer.length
      · have hwraps : ¬ address % pageSize + (n + pageSize) % pageSize < pageSize := by
          rwa [Nat.add_mod_right]
        rw [if_pos ⟨hpage, hnext⟩, (hpages _ hnext).resolve_left hwraps, and_allOnes]
      · rw [if_neg fun h => hnext h.2]
  · intro a _ hout
    rw [hcell]
    by_cases h : address / pageSize ≤ a / pageSize ∧ source address a < buffer.length
    · have hwraps := wraps_of_outside address buffer h.1 hout h.2
      rw [if_pos h, (hpages _ h.2).resolve_left (not_lt.2 hwraps), and_allOnes]
    · rw [if_neg h]

/-- Chips that answer every page program with success and execute it. -/
def obedient : ℕ → Fin 3 → PageAnswer := fun _ _ => ⟨.success, none⟩

theorem writeMemory_obedient (chips : Chips) :
    (writeMemory obedient address buffer chips).1 = .success := by
  have hloop : ∀ os chips,
      (Loops.firstSome (writePart obedient address buffer) os chips).1 = none := by
    intro os
    induction os with
    | nil => intro chips; rfl
    | cons o os ih =>
      intro chips
      have hbody : writePart obedient address buffer chips o =
          (none, (writePart obedient address buffer chips o).2) := rfl
      rw [Loops.firstSome_cons_none hbody]
      exact ih _
  have hnone := hloop (offsets buffer.length) chips
  unfold writeMemory
  rcases h : Loops.firstSome (writePart obedient address buffer) (offsets buffer.length) chips with
    ⟨_ | r, t⟩
  · rfl
  · rw [h] at hnone
    exact absurd hnone (by simp)

theorem stays_of_writesRange (h : WritesRange address buffer) :
    (buffer.length = 0 ∨ address + buffer.length ≤ size) ∧ StaysInPages address buffer := by
  -- erased chips, so that every byte programmed can be seen
  let chips : Chips := ⟨fun _ _ => 0xFF, []⟩
  have hexec : AllExecute buffer obedient := fun _ _ _ => rfl
  have hsuccess := writeMemory_obedient address buffer chips
  obtain ⟨hinside, houtside⟩ := h obedient chips hexec hsuccess 0
  have hsize : buffer.length = 0 ∨ address + buffer.length ≤ size := by
    by_cases hempty : buffer.length = 0
    · exact Or.inl hempty
    · have := (hinside (buffer.length - 1) (by omega)).1
      omega
  refine ⟨hsize, ?_⟩
  rcases hsize with hempty | hsize
  · intro n hn
    omega
  have hcell : ∀ a, (writeMemory obedient address buffer chips).2.memory 0 a =
      if address / pageSize ≤ a / pageSize ∧ source address a < buffer.length then
        (0xFF : Byte) &&& buffer.getD (source address a) 0 else 0xFF := by
    intro a
    rw [writeMemory_memory address buffer hexec chips hsuccess,
      programParts_offsets address buffer _ hsize]
  have hones : ∀ b : Byte, (0xFF : Byte) &&& b = b := by
    intro b
    rw [BitVec.and_comm, and_allOnes]
  intro n
  induction n using Nat.strong_induction_on with
  | _ n ih =>
    intro hn
    by_cases hstays : address % pageSize + n % pageSize < pageSize
    · exact Or.inl hstays
    right
    -- the byte wraps around to the cell one page before its own
    have hwraps := not_lt.1 hstays
    have hpos : 0 < pageSize := by decide
    have hcellsource : source address (address + n - pageSize) = n ∧
        address / pageSize ≤ (address + n - pageSize) / pageSize := by
      simp only [source, pageIndex, pageSize] at hwraps ⊢
      omega
    have hvalue := hcell (address + n - pageSize)
    rw [hcellsource.1, if_pos ⟨hcellsource.2, hn⟩, hones] at hvalue
    rw [← hvalue]
    by_cases hfirst : n < pageSize
    · have hmod := Nat.mod_eq_of_lt hfirst
      have hle := Nat.mod_le address pageSize
      exact houtside _ (by omega) (Or.inl (by omega))
    · have hprev := (ih (n - pageSize) (by omega) (by omega)).resolve_left (by
        rw [← Nat.mod_eq_sub_mod (not_lt.1 hfirst)]
        exact hstays)
      have hinside' := (hinside (n - pageSize) (by omega)).2
      rw [← Nat.add_sub_assoc (not_lt.1 hfirst), hprev, and_allOnes] at hinside'
      exact hinside'

/-- **When the whole range is written**: it lies inside the chip, and every byte that does not
stay in the page of its part is `0xFF`. -/
theorem writesRange_iff :
    WritesRange address buffer ↔
      (buffer.length = 0 ∨ address + buffer.length ≤ size) ∧ StaysInPages address buffer :=
  ⟨stays_of_writesRange address buffer, fun h => writesRange_of_stays address buffer h.1 h.2⟩

/-- The chunks of the file system begin at page boundaries. -/
theorem stays_of_aligned (h : address % pageSize = 0) : StaysInPages address buffer := by
  intro n _
  left
  rw [h, Nat.zero_add]
  exact Nat.mod_lt n (by decide)

/-- **Two bytes across a page boundary**: the second one lands at the start of the page. -/
theorem page_boundary_write : ¬ WritesRange 255 [0, 0] := by
  intro h
  let chips : Chips := ⟨fun _ _ => 0xFF, []⟩
  have hsuccess : (writeMemory obedient 255 [0, 0] chips).1 = .success := by decide +kernel
  have hcell := ((h obedient chips (fun _ _ _ => rfl) hsuccess 0).1 1 (by decide)).2
  exact absurd hcell (by decide +kernel)

end

end PWSat2OBC.RedundantN25Q
