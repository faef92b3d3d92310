import PWSat2OBC.Lib.BlockStore
import PWSat2OBC.Lib.Runs
import PWSat2OBC.Proof.RedundantN25Q
import PWSat2OBC.Spec.N25QYaffs

/-!
# The Yaffs device refines a chunk store

The abstract flash is a `BlockStore`. A chip `Holds` a store if it has the words of each chunk
at its address. All operations inside the flash keep this for the chips that carry them out
(`holds_writeChunk`, `holds_eraseBlock`), so after every run two chips hold the abstract flash,
whatever has happened to the third one (`refines_run`), and what is read is what it holds
(`readChunk_holds`).

* `reads_chunk_store`: a chunk that is read after a run is the one of the abstract flash.
-/

namespace PWSat2OBC.RedundantN25Q

open N25Q Voting

/-! ## Two of three -/

/-- A chip carries out an operation and says so. -/
def Obeys (answer : PageAnswer) : Prop := answer.result = .success ∧ answer.instead = none

theorem voted_of_two {α : Type} [DecidableEq α] {f : Fin 3 → α} {x : α} (bad : Fin 3)
    (h : ∀ i ≠ bad, f i = x) : Redundancy.voted (f 0) (f 1) (f 2) = some x := by
  unfold Redundancy.voted
  by_cases h0 : bad = 0
  · rw [h 1 (by rw [h0]; decide), h 2 (by rw [h0]; decide)]
    by_cases hx : f 0 = x
    · rw [if_pos (Or.inl hx), hx]
    · rw [if_neg (by rintro (h | h) <;> exact hx h), if_pos rfl]
  · -- the first chip is a good one, and one more is
    rw [h 0 (Ne.symm h0)]
    by_cases h1 : bad = 1
    · rw [h 2 (by rw [h1]; decide), if_pos (Or.inr rfl)]
    · rw [h 1 (Ne.symm h1), if_pos (Or.inl rfl)]

theorem majority3_of_two {w : ℕ} {f : Fin 3 → BitVec w} {x : BitVec w} (bad : Fin 3)
    (h : ∀ i ≠ bad, f i = x) : majority3 (f 0) (f 1) (f 2) = x := by
  rw [← vote_three]
  apply vote_of_count
  by_cases h0 : bad = 0
  · rw [h 1 (by rw [h0]; decide), h 2 (by rw [h0]; decide)]
    simp only [List.count_cons, List.count_nil, beq_iff_eq]
    grind
  · rw [h 0 (Ne.symm h0)]
    by_cases h1 : bad = 1
    · rw [h 2 (by rw [h1]; decide)]
      simp only [List.count_cons, List.count_nil, beq_iff_eq]
      grind
    · rw [h 1 (Ne.symm h1)]
      simp only [List.count_cons, List.count_nil, beq_iff_eq]
      grind

/-! ## Programming and erasing -/

section

variable {bad : Fin 3}

/-- The loop of a write, when all chips but one obey: it comes to its end, and each of these
chips has programmed all parts. -/
theorem firstSome_writePart {answers : ℕ → Fin 3 → PageAnswer} (hobey : ∀ i ≠ bad, ∀ o, Obeys (answers o i))
    (address : ℕ) (buffer : List Byte) (os : List ℕ) (chips : Chips) :
    ∃ t, Loops.firstSome (writePart answers address buffer) os chips = (none, t) ∧
      ∀ i ≠ bad, t.memory i = programParts address buffer os (chips.memory i) := by
  induction os generalizing chips with
  | nil => exact ⟨chips, rfl, fun _ _ => rfl⟩
  | cons o os ih =>
    have hvoted : Redundancy.voted (answers o 0).result (answers o 1).result (answers o 2).result =
        some .success :=
      @voted_of_two _ _ (fun i => (answers o i).result) _ bad fun i hi => (hobey i hi o).1
    have hturn : (writePart answers address buffer chips o).1 = none := by
      unfold writePart
      simp only [hvoted]
    rcases hbody : writePart answers address buffer chips o with ⟨r, u⟩
    rw [hbody] at hturn
    obtain rfl : r = none := hturn
    obtain ⟨t, ht, hmemory⟩ := ih u
    refine ⟨t, by rw [Loops.firstSome_cons_none hbody, ht], ?_⟩
    intro i hi
    have hpart := writePart_memory address buffer (hobey i hi o).2 chips
    rw [hbody] at hpart
    rw [hmemory i hi, hpart]
    rfl

theorem writeMemory_of_two {answers : ℕ → Fin 3 → PageAnswer} (hobey : ∀ i ≠ bad, ∀ o, Obeys (answers o i))
    (address : ℕ) (buffer : List Byte) (chips : Chips) :
    (writeMemory answers address buffer chips).1 = .success ∧
      ∀ i ≠ bad, (writeMemory answers address buffer chips).2.memory i =
        programParts address buffer (offsets buffer.length) (chips.memory i) := by
  obtain ⟨t, ht, hmemory⟩ := firstSome_writePart hobey address buffer (offsets buffer.length) chips
  unfold writeMemory
  rw [ht]
  exact ⟨rfl, hmemory⟩

theorem eraseAll_of_two {answers : Fin 3 → PageAnswer} (hobey : ∀ i ≠ bad, Obeys (answers i))
    (op : Operation) (chips : Chips) :
    (eraseAll op answers chips).1 = .success ∧
      ∀ i ≠ bad, (eraseAll op answers chips).2.memory i = op.effect (chips.memory i) := by
  have hvoted : Redundancy.voted (answers 0).result (answers 1).result (answers 2).result = some .success :=
    @voted_of_two _ _ (fun i => (answers i).result) _ bad fun i hi => (hobey i hi).1
  unfold eraseAll
  dsimp only
  rw [hvoted]
  refine ⟨rfl, ?_⟩
  intro i hi
  show erase (answers i) op (chips.memory i) = _
  rw [erase, (hobey i hi).2]

/-- A write that begins with a page: the bytes go where they belong. -/
theorem programParts_aligned {address : ℕ} {buffer : List Byte} (haligned : address % pageSize = 0)
    (hsize : address + buffer.length ≤ size) (memory : Memory) (a : ℕ) :
    programParts address buffer (offsets buffer.length) memory a =
      if address ≤ a ∧ a < address + buffer.length then memory a &&& buffer.getD (a - address) 0
      else memory a := by
  rw [programParts_offsets address buffer memory hsize]
  by_cases ha : address ≤ a
  · have hsource : source address a = a - address := by
      simp only [source, pageIndex, pageSize] at haligned ⊢
      omega
    have hpage : address / pageSize ≤ a / pageSize := Nat.div_le_div_right ha
    rw [hsource]
    have hiff : (address / pageSize ≤ a / pageSize ∧ a - address < buffer.length) ↔
        address ≤ a ∧ a < address + buffer.length := by
      omega
    simp only [hiff]
  · have hpage : ¬ address / pageSize ≤ a / pageSize := by
      simp only [pageSize] at haligned ⊢
      omega
    rw [if_neg (fun h => hpage h.1), if_neg (fun h => ha h.1)]

end

end PWSat2OBC.RedundantN25Q

namespace PWSat2OBC.N25QYaffsDevice

open N25Q RedundantN25Q Voting Runs

variable (dev : N25QYaffsDevice)

/-! ## Chunks and blocks -/

/-- The number of blocks of the flash. -/
def blocks : ℕ := dev.totalSize / dev.blockMapping.blockSize

/-- The number of chunks of the flash. -/
def chunkCount : ℕ := dev.blocks * dev.chunksPerBlock

theorem chunksPerBlock_mul : dev.chunksPerBlock * dev.chunkSize = dev.blockMapping.blockSize :=
  Nat.div_mul_cancel dev.chunks

theorem blockSize_pos : 0 < dev.blockMapping.blockSize := by
  cases dev.blockMapping <;> decide

theorem chunksPerBlock_pos : 0 < dev.chunksPerBlock := by
  have h := dev.blockSize_pos
  rw [← dev.chunksPerBlock_mul] at h
  exact Nat.pos_of_mul_pos_right h

/-- Each chunk lies in the chips. -/
theorem chunk_inside {c : ℕ} (hc : c < dev.chunkCount) : c * dev.chunkSize + dev.chunkSize ≤ size := by
  calc c * dev.chunkSize + dev.chunkSize = (c + 1) * dev.chunkSize := (Nat.succ_mul _ _).symm
    _ ≤ dev.chunkCount * dev.chunkSize := Nat.mul_le_mul_right _ hc
    _ = dev.blocks * dev.blockMapping.blockSize := by
      rw [chunkCount, Nat.mul_assoc, dev.chunksPerBlock_mul]
    _ ≤ dev.totalSize := Nat.div_mul_le_self _ _
    _ ≤ size := dev.inChip

theorem chunkAddress_toNat {c : BitVec 32} (hc : c.toNat < dev.chunkCount) :
    (dev.chunkAddress c).toNat = c.toNat * dev.chunkSize := by
  have hinside := dev.chunk_inside hc
  have hsize : dev.chunkSize < 2 ^ 32 := by unfold size at hinside; omega
  rw [chunkAddress, BitVec.toNat_mul, BitVec.toNat_ofNat, Nat.mod_eq_of_lt hsize]
  apply Nat.mod_eq_of_lt
  unfold size at hinside
  omega

/-- A block begins with its first chunk. -/
theorem blockAddress_toNat {b : BitVec 32} (hb : b.toNat < dev.blocks) :
    (dev.blockAddress b).toNat = b.toNat * dev.blockMapping.blockSize := by
  have hpos := dev.chunksPerBlock_pos
  have hlt : b.toNat * dev.chunksPerBlock < dev.chunkCount := Nat.mul_lt_mul_of_pos_right hb hpos
  have hinside := dev.chunk_inside hlt
  rw [Nat.mul_assoc, dev.chunksPerBlock_mul] at hinside
  have hle : dev.chunksPerBlock ≤ dev.chunksPerBlock * dev.chunkSize :=
    Nat.le_mul_of_pos_right _ dev.chunkSize_pos
  have hblock : dev.blockMapping.blockSize ≤ 65536 := by cases dev.blockMapping <;> decide
  have hcount : b.toNat * dev.chunksPerBlock ≤ b.toNat * dev.blockMapping.blockSize := by
    rw [← dev.chunksPerBlock_mul]
    exact Nat.mul_le_mul_left _ hle
  rw [dev.chunksPerBlock_mul] at hle
  have hchunk : dev.chunkSize < 2 ^ 32 := by unfold size at hinside; omega
  unfold size at hinside
  rw [blockAddress, BitVec.toNat_mul, BitVec.toNat_mul, BitVec.toNat_ofNat, BitVec.toNat_ofNat,
    Nat.mod_eq_of_lt (show dev.chunksPerBlock < 2 ^ 32 by omega), Nat.mod_eq_of_lt hchunk,
    Nat.mod_eq_of_lt (show b.toNat * dev.chunksPerBlock < 2 ^ 32 by omega), Nat.mul_assoc,
    dev.chunksPerBlock_mul, Nat.mod_eq_of_lt (by omega)]

/-- Where the cell of a chunk is among the blocks. -/
theorem cell_div {c i : ℕ} (hi : i < dev.chunkSize) :
    (c * dev.chunkSize + i) / dev.blockMapping.blockSize = c / dev.chunksPerBlock := by
  rw [← dev.chunksPerBlock_mul, Nat.mul_comm dev.chunksPerBlock, ← Nat.div_div_eq_div_mul,
    Nat.add_comm, Nat.add_mul_div_right _ _ dev.chunkSize_pos, Nat.div_eq_of_lt hi, Nat.zero_add]

/-! ## Refinement -/

/-- A chip has the words of each chunk at its address. -/
def Holds (memory : Memory) (store : BlockStore.Store 8) : Prop :=
  ∀ c < dev.chunkCount, ∀ i < dev.chunkSize, memory (c * dev.chunkSize + i) = store c i

variable {dev} {memory : Memory} {store : BlockStore.Store 8}

theorem holds_writeChunk (h : dev.Holds memory store) {c : ℕ} (hc : c < dev.chunkCount)
    {data : List Byte} (hdata : data.length ≤ dev.chunkSize) :
    dev.Holds (programParts (c * dev.chunkSize) data (offsets data.length) memory)
      (BlockStore.apply dev.chunksPerBlock store (.write c data)) := by
  intro c' hc' i hi
  have haligned : c * dev.chunkSize % pageSize = 0 := Nat.mod_eq_zero_of_dvd (dev.pages.mul_left c)
  have hinside := dev.chunk_inside hc
  rw [programParts_aligned haligned (by omega)]
  by_cases hcc : c' = c
  · rw [hcc, BlockStore.apply_write, h c hc i hi]
    by_cases hlt : i < data.length
    · rw [if_pos (by omega), Nat.add_sub_cancel_left, List.getD_eq_getElem?_getD,
        List.getD_eq_getElem?_getD, List.getElem?_eq_getElem hlt, Option.getD_some, Option.getD_some]
    · -- behind the data the chunk stays as it is
      rw [if_neg (by omega), List.getD_eq_getElem?_getD, List.getElem?_eq_none (by omega),
        Option.getD_none, BitVec.and_allOnes]
  · have hne : ¬ BlockStore.Touches dev.chunksPerBlock c' (.write c data : BlockStore.Op 8) :=
      fun heq => hcc heq.symm
    have hout : ¬ (c * dev.chunkSize ≤ c' * dev.chunkSize + i ∧
        c' * dev.chunkSize + i < c * dev.chunkSize + data.length) := by
      rcases Nat.lt_or_gt_of_ne hcc with hlt | hlt
      · have hle := Nat.mul_le_mul_right dev.chunkSize (Nat.succ_le_of_lt hlt)
        rw [Nat.succ_mul] at hle
        omega
      · have hle := Nat.mul_le_mul_right dev.chunkSize (Nat.succ_le_of_lt hlt)
        rw [Nat.succ_mul] at hle
        omega
    rw [if_neg hout, BlockStore.apply_of_untouched hne, h c' hc' i hi]

/-- The operation of `EraseBlock` on a chip. -/
def eraseOperation (dev : N25QYaffsDevice) (address : ℕ) : Operation :=
  match dev.blockMapping with
  | .sector => .eraseSector address
  | .subSector => .eraseSubSector address

theorem effect_eraseOperation (address : ℕ) :
    (dev.eraseOperation address).effect memory =
      N25Q.eraseBlock memory dev.blockMapping.blockSize (chipAddress address) := by
  unfold eraseOperation
  cases dev.blockMapping <;> rfl

theorem eraseBlock_eq (answers : Fin 3 → PageAnswer) (b : BitVec 32) (chips : Chips) :
    dev.eraseBlock answers b chips =
      let (result, chips) := eraseAll (dev.eraseOperation (dev.blockAddress b).toNat) answers chips
      (if result ≠ .success then .fail else .ok, chips) := by
  unfold N25QYaffsDevice.eraseBlock eraseOperation
  cases dev.blockMapping <;> rfl

theorem holds_eraseBlock (h : dev.Holds memory store) {b : ℕ} (hb : b < dev.blocks) :
    dev.Holds ((dev.eraseOperation (b * dev.blockMapping.blockSize)).effect memory)
      (BlockStore.apply dev.chunksPerBlock store (.erase b)) := by
  intro c hc i hi
  have hle : b * dev.blockMapping.blockSize < size :=
    calc b * dev.blockMapping.blockSize
        < dev.blocks * dev.blockMapping.blockSize := Nat.mul_lt_mul_of_pos_right hb dev.blockSize_pos
      _ ≤ dev.totalSize := Nat.div_mul_le_self _ _
      _ ≤ size := dev.inChip
  rw [effect_eraseOperation, chipAddress_eq, Nat.mod_eq_of_lt hle, N25Q.eraseBlock, cell_div _ hi,
    Nat.mul_div_cancel _ dev.blockSize_pos]
  by_cases hcb : c / dev.chunksPerBlock = b
  · rw [if_pos hcb, ← hcb, BlockStore.apply_erase]
    rfl
  · have hne : ¬ BlockStore.Touches dev.chunksPerBlock c (.erase b : BlockStore.Op 8) := hcb
    rw [if_neg hcb, BlockStore.apply_of_untouched hne, h c hc i hi]

/-! ## Runs -/

variable (dev) in
/-- The operations that are inside the flash, without OOB data, and that all chips but one
carry out. Upsets hit only that one. -/
def Served (bad : Fin 3) (_ : N25QYaffsState) : N25QYaffsEvent → Prop
  | .writeChunk nandChunk data oobLen answers =>
    nandChunk.toNat < dev.chunkCount ∧ data.length ≤ dev.chunkSize ∧ oobLen ≤ 0 ∧
      ∀ i ≠ bad, ∀ o, Obeys (answers o i)
  | .eraseBlock blockNo answers => blockNo.toNat < dev.blocks ∧ ∀ i ≠ bad, Obeys (answers i)
  | .upset chip _ => chip = bad

/-- The operation of the abstract flash. -/
def operation : N25QYaffsEvent → Option (BlockStore.Op 8)
  | .writeChunk nandChunk data _ _ => some (.write nandChunk.toNat data)
  | .eraseBlock blockNo _ => some (.erase blockNo.toNat)
  | .upset _ _ => none

variable (dev) in
/-- The abstract flash after some events. -/
def flash (store : BlockStore.Store 8) (es : List N25QYaffsEvent) : BlockStore.Store 8 :=
  BlockStore.run dev.chunksPerBlock store (es.filterMap operation)

theorem flash_snoc_some {es : List N25QYaffsEvent} {e : N25QYaffsEvent} {op : BlockStore.Op 8}
    (h : operation e = some op) :
    dev.flash store (es ++ [e]) = BlockStore.apply dev.chunksPerBlock (dev.flash store es) op := by
  rw [flash, List.filterMap_append, List.filterMap_cons_some h, List.filterMap_nil,
    BlockStore.run_snoc, flash]

theorem flash_snoc_none {es : List N25QYaffsEvent} {e : N25QYaffsEvent} (h : operation e = none) :
    dev.flash store (es ++ [e]) = dev.flash store es := by
  rw [flash, List.filterMap_append, List.filterMap_cons_none h, List.filterMap_nil, List.append_nil,
    flash]

/-- All chips but one hold the abstract flash, and no callback has failed. -/
def Refines (bad : Fin 3) (store : BlockStore.Store 8) (es : List N25QYaffsEvent)
    (s : N25QYaffsState) : Prop :=
  (∀ i ≠ bad, dev.Holds (s.chips.memory i) (dev.flash store es)) ∧ ∀ r ∈ s.results, r = .ok

theorem Refines.step {bad : Fin 3} {es : List N25QYaffsEvent} {s s' : N25QYaffsState}
    {e : N25QYaffsEvent} (h : @Refines dev bad store es s) (hok : dev.Served bad s e)
    (hs : dev.step s e = some s') : @Refines dev bad store (es ++ [e]) s' := by
  obtain ⟨hmemory, hresults⟩ := h
  have hall : ∀ r ∈ s.results ++ [YaffsResult.ok], r = .ok := by
    intro r hr
    rcases List.mem_append.1 hr with hr | hr
    · exact hresults r hr
    · exact List.mem_singleton.1 hr
  cases e with
  | writeChunk nandChunk data oobLen answers =>
    obtain ⟨hc, hdata, hoob, hobey⟩ := hok
    obtain ⟨hsuccess, hchips⟩ := writeMemory_of_two hobey (dev.chunkAddress nandChunk).toNat data s.chips
    have hwrite : dev.writeChunk answers nandChunk data oobLen s.chips =
        (.ok, (writeMemory answers (dev.chunkAddress nandChunk).toNat data s.chips).2) := by
      unfold N25QYaffsDevice.writeChunk
      dsimp only
      rw [if_neg (by omega), hsuccess, if_neg (by simp)]
    simp only [N25QYaffsDevice.step, hwrite, Option.some.injEq] at hs
    subst hs
    refine ⟨?_, hall⟩
    intro i hi
    rw [flash_snoc_some rfl, hchips i hi, dev.chunkAddress_toNat hc]
    exact holds_writeChunk (hmemory i hi) hc hdata
  | eraseBlock blockNo answers =>
    obtain ⟨hb, hobey⟩ := hok
    obtain ⟨hsuccess, hchips⟩ :=
      eraseAll_of_two hobey (dev.eraseOperation (dev.blockAddress blockNo).toNat) s.chips
    simp only [N25QYaffsDevice.step, eraseBlock_eq, hsuccess, Option.some.injEq] at hs
    subst hs
    refine ⟨?_, hall⟩
    intro i hi
    rw [flash_snoc_some rfl, hchips i hi, dev.blockAddress_toNat hb]
    exact holds_eraseBlock (hmemory i hi) hb
  | upset chip left =>
    simp only [N25QYaffsDevice.step, Option.some.injEq] at hs
    subst hs
    refine ⟨?_, hresults⟩
    intro i hi
    obtain rfl : chip = bad := hok
    rw [flash_snoc_none rfl]
    show dev.Holds (Function.update s.chips.memory chip left i) _
    rw [Function.update_of_ne hi]
    exact hmemory i hi

theorem refines_run {bad : Fin 3} {es : List N25QYaffsEvent} {s₀ s : N25QYaffsState}
    (h0 : ∀ i ≠ bad, dev.Holds (s₀.chips.memory i) store) (hnone : s₀.results = [])
    (h : Run dev.step (dev.Served bad) s₀ es s) : @Refines dev bad store es s := by
  apply Run.inv_trace _ _ h
  · refine ⟨h0, ?_⟩
    intro r hr
    rw [hnone] at hr
    exact absurd hr List.not_mem_nil
  · intro es s e s' hI hok hs
    exact hI.step hok hs

/-- Every sequence of such events can happen. -/
theorem exists_run {bad : Fin 3} {s₀ : N25QYaffsState} (es : List N25QYaffsEvent)
    (h : ∀ s, ∀ e ∈ es, dev.Served bad s e) : ∃ s, Run dev.step (dev.Served bad) s₀ es s := by
  induction es using List.reverseRecOn with
  | nil => exact ⟨s₀, .nil⟩
  | append_singleton es e ih =>
    obtain ⟨s, hrun⟩ := ih fun s e' he' => h s e' (List.mem_append_left _ he')
    have hok := h s e (List.mem_append_right _ (List.mem_singleton_self e))
    cases e <;> exact ⟨_, hrun.snoc hok rfl⟩

/-! ## Reading -/

theorem chipBytes_of_holds {chips : ReadChips} {i : Fin 3} (h : dev.Holds (chips.memory i) store)
    {c : BitVec 32} (hc : c.toNat < dev.chunkCount) {length : ℕ} (hlength : length ≤ dev.chunkSize) :
    chipBytes chips (dev.chunkAddress c).toNat i length = (List.range length).map (store c.toNat) := by
  have hinside := dev.chunk_inside hc
  unfold chipBytes memoryBytes
  apply List.map_congr_left
  intro n hn
  rw [List.mem_range] at hn
  rw [dev.chunkAddress_toNat hc, chipAddress_eq, Nat.mod_add_mod, Nat.mod_eq_of_lt (by omega),
    h c.toNat hc n (by omega)]

/-- What is read from the flash when two chips hold it and all can be read. -/
theorem readChunk_holds {bad : Fin 3} {chips : ReadChips}
    (hmemory : ∀ i ≠ bad, dev.Holds (chips.memory i) store)
    (hread : ∀ i, Readable (chips.attempts i)) {c : BitVec 32} (hc : c.toNat < dev.chunkCount)
    {data : Span} (hdata : data.length ≤ dev.chunkSize) (hwords : data.length % 4 = 0)
    (haligned : data.addr % 4 = 0) {oobLen : ℤ} (hoob : oobLen ≤ 0) :
    let outcome := dev.readChunk chips c data oobLen
    outcome.result = .ok ∧ outcome.eccResult = some .noError ∧
      outcome.data = (List.range data.length).map (store c.toNat) := by
  let redundantBuffer1 : Span := ⟨dev.redundantReadBuffer1, List.replicate data.length 0⟩
  let redundantBuffer2 : Span := ⟨dev.redundantReadBuffer2, List.replicate data.length 0⟩
  have houtcome : dev.readChunk chips c data oobLen =
      ⟨.ok, some .noError,
        (readMemory chips (dev.chunkAddress c).toNat data redundantBuffer1 redundantBuffer2).outputBuffer,
        (readMemory chips (dev.chunkAddress c).toNat data redundantBuffer1 redundantBuffer2).reports⟩ := by
    rw [readChunk, if_neg (by omega), if_neg (by omega)]
  intro outcome
  simp only [outcome, houtcome]
  refine ⟨trivial, trivial, ?_⟩
  have hlength : bufferLength data redundantBuffer1 redundantBuffer2 = data.length := by
    simp [bufferLength, redundantBuffer1, redundantBuffer2, Span.length]
  have hgood : ∀ i ≠ bad, chipBytes chips (dev.chunkAddress c).toNat i data.length =
      (List.range data.length).map (store c.toNat) :=
    fun i hi => chipBytes_of_holds (hmemory i hi) hc hdata
  have hrefill : ∀ bytes : List Byte, bytes.length = data.length → refill bytes data.bytes = bytes := by
    intro bytes hbytes
    unfold Span.length at hbytes
    rw [refill, ← hbytes, List.take_length, List.drop_eq_nil_of_le (by omega), List.append_nil]
  rcases readMemory_cases chips (dev.chunkAddress c).toNat data redundantBuffer1 redundantBuffer2 with
    ⟨hnot, -⟩ | ⟨-, ⟨hagree, -, houtput⟩ | ⟨-, -, houtput⟩⟩
  · exact absurd ⟨hread 0, hread 1⟩ hnot
  · -- the chips 0 and 1 agree, and one of them is a good one
    rw [hlength] at houtput hagree
    rw [houtput, hrefill (chipBytes chips _ 0 data.length) (length_memoryBytes _ _ _)]
    by_cases h0 : bad = 0
    · unfold Agree at hagree
      rw [hagree, hgood 1 (by rw [h0]; decide)]
    · exact hgood 0 (Ne.symm h0)
  · -- they differ: the vote is done, since all buffers are words
    rw [hlength, corrected_eq chips _ data redundantBuffer1 redundantBuffer2 hwords haligned dev.aligned1
      dev.aligned2] at houtput
    rw [houtput (hread 2), hrefill _ (by simp)]
    apply List.map_congr_left
    intro n hn
    rw [List.mem_range] at hn
    have hinside := dev.chunk_inside hc
    rw [majority_eq]
    apply @majority3_of_two _ (fun i => chips.memory i _) _ bad
    intro i hi
    rw [dev.chunkAddress_toNat hc, chipAddress_eq, Nat.mod_add_mod, Nat.mod_eq_of_lt (by omega),
      hmemory i hi c.toNat hc n (by omega)]

/-! ## Reading back -/

section

variable {bad : Fin 3} {es : List N25QYaffsEvent} {s₀ s : N25QYaffsState}

/-- **A read after any run** returns the chunk of the abstract flash, and no callback has failed,
whatever one of the chips does and holds. -/
theorem reads_chunk_store (h0 : ∀ i ≠ bad, dev.Holds (s₀.chips.memory i) store) (hnone : s₀.results = [])
    (h : Run dev.step (dev.Served bad) s₀ es s) {attempts : Fin 3 → ℕ → ReadAttempt}
    (hread : ∀ i, Readable (attempts i)) {c : BitVec 32} (hc : c.toNat < dev.chunkCount)
    {data : Span} (hdata : data.length ≤ dev.chunkSize) (hwords : data.length % 4 = 0)
    (haligned : data.addr % 4 = 0) :
    (∀ r ∈ s.results, r = .ok) ∧
      let outcome := dev.readChunk ⟨s.chips.memory, attempts⟩ c data 0
      outcome.result = .ok ∧ outcome.eccResult = some .noError ∧
        outcome.data = (List.range data.length).map (dev.flash store es c.toNat) := by
  obtain ⟨hmemory, hresults⟩ := refines_run h0 hnone h
  exact ⟨hresults, readChunk_holds hmemory hread hc hdata hwords haligned le_rfl⟩

/-- The first bytes of the chunk 5, which is written twice while the first chip does what it
wants. -/
theorem reads_chunk_store_example :
    ∃ s : N25QYaffsState, (∀ r ∈ s.results, r = .ok) ∧
      (n25qStorage.readChunk ⟨s.chips.memory, fun _ _ => ⟨.success, .success, []⟩⟩ 5 ⟨0, [0, 0, 0, 0]⟩ 0).data =
        [0x0C, 0xF0, 0xFF, 0xFF] := by
  let obeys (i : Fin 3) : PageAnswer := if i = 0 then ⟨.failure, some fun _ => 9⟩ else ⟨.success, none⟩
  have hobeys : ∀ i ≠ 0, Obeys (obeys i) := by
    intro i hi
    simp only [obeys, if_neg hi]
    exact ⟨rfl, rfl⟩
  have hcount : n25qStorage.chunkCount = 8192 := by decide
  obtain ⟨s, hrun⟩ := @exists_run n25qStorage 0 ⟨⟨fun _ _ => 0xFF, []⟩, []⟩
    [.writeChunk 5 [0x0F] 0 fun _ => obeys, .upset 0 fun _ => 7, .writeChunk 5 [0xFC, 0xF0] 0 fun _ => obeys]
    (by
      intro s e he
      simp only [List.mem_cons, List.not_mem_nil, or_false] at he
      rcases he with rfl | rfl | rfl
      · exact ⟨by rw [hcount]; decide, by decide, le_rfl, fun i hi _ => hobeys i hi⟩
      · rfl
      · exact ⟨by rw [hcount]; decide, by decide, le_rfl, fun i hi _ => hobeys i hi⟩)
  obtain ⟨hresults, -, -, hread⟩ := @reads_chunk_store n25qStorage (fun _ _ => 0xFF) 0 _ _ s
    (fun _ _ _ _ _ _ => rfl) rfl hrun (fun _ _ => ⟨.success, .success, []⟩)
    (fun _ => ⟨0, by decide, rfl, rfl⟩) 5 (by rw [hcount]; decide) ⟨0, [0, 0, 0, 0]⟩ (by decide) (by decide)
    (by decide)
  exact ⟨s, hresults, hread.trans (by decide)⟩

end

end PWSat2OBC.N25QYaffsDevice
