import Mathlib.Data.List.TakeWhile
import Mathlib.Tactic.Linarith

/-!
# Blocks in packets of a fixed size

Blocks (an identifier and data) are laid one after the other into packets. Each packet
starts with a header. A block that does not end in its packet goes on in the next one
behind a continuation mark and its identifier; what is left of a packet is padding.

* `read`: the reader, which knows the lengths of the blocks and nothing else.
* `Pager`: the packets finished so far and the payload of the current one.
* `Clean`, `Waits`: what the reader makes of a pager between two blocks, and inside one.
* `weight_le_of_read`: blocks that were read weigh at most what the packets supply, where
  padding weighs nothing. A writer that loses a symbol cannot be read back.
-/

namespace Packets

/-- What the reader has to know of the format. -/
structure Marks (α : Type*) where
  cont : α
  pad : α
  cont_ne_pad : cont ≠ pad
  /-- The payload of a packet, behind its header. -/
  strip : List α → Option (List α)

structure Block (α : Type*) where
  pid : α
  data : List α
deriving DecidableEq, Repr

/-- A block cut at the end of a packet. -/
structure Cut (α : Type*) where
  pid : α
  part : List α
  missing : ℕ
deriving DecidableEq, Repr

/-- What the reader knows: the lengths of the blocks to come, the blocks read, and the
block that the last packet cut. -/
structure Reading (α : Type*) where
  lengths : List ℕ
  blocks : List (Block α)
  cut : Option (Cut α)
deriving DecidableEq, Repr

variable {α : Type*}

/-! ## The reader -/

section Reader

variable [DecidableEq α] (M : Marks α)

/-- Blocks up to padding or the end of the packet. A continuation mark has no place here. -/
def readBlocks : List ℕ → List (Block α) → List α → Option (Reading α)
  | lengths, blocks, [] => some ⟨lengths, blocks, none⟩
  | [], blocks, pid :: _ => if pid = M.pad then some ⟨[], blocks, none⟩ else none
  | n :: lengths, blocks, pid :: rest =>
    if pid = M.pad then some ⟨n :: lengths, blocks, none⟩
    else if pid = M.cont then none
    else if n ≤ rest.length then
      readBlocks lengths (blocks ++ [⟨pid, rest.take n⟩]) (rest.drop n)
    else some ⟨lengths, blocks, some ⟨pid, rest, n - rest.length⟩⟩

/-- The rest of a cut block, then the blocks behind it. -/
def readPart (lengths : List ℕ) (blocks : List (Block α)) (c : Cut α) (rest : List α) :
    Option (Reading α) :=
  if c.missing ≤ rest.length then
    readBlocks M lengths (blocks ++ [⟨c.pid, c.part ++ rest.take c.missing⟩]) (rest.drop c.missing)
  else some ⟨lengths, blocks, some ⟨c.pid, c.part ++ rest, c.missing - rest.length⟩⟩

/-- The payload of a packet. A cut block must go on first. -/
def readPayload (r : Reading α) (payload : List α) : Option (Reading α) :=
  match r.cut, payload with
  | none, _ => readBlocks M r.lengths r.blocks payload
  | some c, mark :: pid :: rest =>
    if mark = M.cont ∧ pid = c.pid then readPart M r.lengths r.blocks c rest else none
  | some _, _ => none

def readPacket (r : Reading α) (packet : List α) : Option (Reading α) :=
  (M.strip packet).bind (readPayload M r)

/-- All packets, from the start. -/
def reads (lengths : List ℕ) (packets : List (List α)) : Option (Reading α) :=
  packets.foldlM (readPacket M) ⟨lengths, [], none⟩

/-- **The blocks in a sequence of packets**, unless it breaks the format or ends inside a
block. -/
def read (lengths : List ℕ) (packets : List (List α)) : Option (List (Block α)) :=
  (reads M lengths packets).bind fun r => if r.cut.isNone then some r.blocks else none

theorem reads_append {lengths : List ℕ} {ps : List (List α)} {p : List α} {r : Reading α}
    (h : reads M lengths ps = some r) : reads M lengths (ps ++ [p]) = readPacket M r p := by
  unfold reads at h ⊢
  rw [List.foldlM_append, h]
  simp

/-- A block begins where nothing of it was read. -/
theorem readBlocks_cons {pid : α} (hp : pid ≠ M.pad) (hc : pid ≠ M.cont) (n : ℕ) (ls : List ℕ)
    (bs : List (Block α)) (xs : List α) :
    readBlocks M (n :: ls) bs (pid :: xs) = readPart M ls bs ⟨pid, [], n⟩ xs := by
  rw [readBlocks, if_neg hp, if_neg hc]
  rfl

/-- Only a reading with no cut block accepts an empty payload. -/
theorem eq_of_readPayload_nil {r r' : Reading α} (h : readPayload M r [] = some r') : r = r' := by
  obtain ⟨ls, bs, cut⟩ := r
  cases cut with
  | none => simpa [readPayload, readBlocks] using h
  | some c => simp [readPayload] at h

/-- Padding ends a packet. -/
theorem readBlocks_replicate_pad (ls : List ℕ) (bs : List (Block α)) (n : ℕ) :
    readBlocks M ls bs (List.replicate n M.pad) = some ⟨ls, bs, none⟩ := by
  cases n with
  | zero => simp [readBlocks]
  | succ n => cases ls <;> simp [List.replicate_succ, readBlocks]

/-! ## Weights -/

/-- The symbols that are not padding. -/
def weight (xs : List α) : ℕ := xs.countP (· ≠ M.pad)

def blockWeight (b : Block α) : ℕ := weight M (b.pid :: b.data)

def blocksWeight (bs : List (Block α)) : ℕ := (bs.map (blockWeight M)).sum

/-- A payload supplies its symbols, but for a continuation mark and the identifier behind it. -/
def supplyOf : List α → ℕ
  | [] => 0
  | x :: rest => if x = M.cont then weight M (rest.drop 1) else weight M (x :: rest)

def packetSupply (packet : List α) : ℕ := ((M.strip packet).map (supplyOf M)).getD 0

def packetsSupply (packets : List (List α)) : ℕ := (packets.map (packetSupply M)).sum

/-- The weight of the blocks read and of the cut one as far as it was read. -/
def Reading.weight (r : Reading α) : ℕ :=
  blocksWeight M r.blocks + (r.cut.map fun c => Packets.weight M (c.pid :: c.part)).getD 0

@[simp] theorem Reading.weight_none (ls : List ℕ) (bs : List (Block α)) :
    Reading.weight M ⟨ls, bs, none⟩ = blocksWeight M bs := rfl

@[simp] theorem Reading.weight_some (ls : List ℕ) (bs : List (Block α)) (c : Cut α) :
    Reading.weight M ⟨ls, bs, some c⟩ = blocksWeight M bs + Packets.weight M (c.pid :: c.part) := rfl

@[simp] theorem weight_nil : weight M [] = 0 := rfl

@[simp] theorem weight_append (xs ys : List α) :
    weight M (xs ++ ys) = weight M xs + weight M ys := List.countP_append

@[simp] theorem weight_replicate_pad (n : ℕ) : weight M (List.replicate n M.pad) = 0 := by
  simp [weight, List.countP_replicate]

theorem weight_cons (x : α) (xs : List α) :
    weight M (x :: xs) = (if x = M.pad then 0 else 1) + weight M xs := by
  unfold weight
  by_cases h : x = M.pad
  · simp [h]
  · simp [h, Nat.add_comm]

theorem blockWeight_mk (pid : α) (data : List α) :
    blockWeight M ⟨pid, data⟩ = (if pid = M.pad then 0 else 1) + weight M data := weight_cons M pid data

@[simp] theorem blocksWeight_nil : blocksWeight M [] = 0 := rfl

@[simp] theorem blocksWeight_append (bs cs : List (Block α)) :
    blocksWeight M (bs ++ cs) = blocksWeight M bs + blocksWeight M cs := by
  simp [blocksWeight]

@[simp] theorem blocksWeight_singleton (b : Block α) : blocksWeight M [b] = blockWeight M b := by
  simp [blocksWeight]

theorem weight_take_add_drop (n : ℕ) (xs : List α) :
    weight M (xs.take n) + weight M (xs.drop n) = weight M xs := by
  rw [← weight_append, List.take_append_drop]

theorem supplyOf_of_ne {x : α} (h : x ≠ M.cont) (xs : List α) :
    supplyOf M (x :: xs) = weight M (x :: xs) := by rw [supplyOf, if_neg h]

@[simp] theorem supplyOf_cont (xs : List α) :
    supplyOf M (M.cont :: xs) = weight M (xs.drop 1) := by rw [supplyOf, if_pos rfl]

/-- Blocks read from a payload weigh at most what was there. -/
theorem readBlocks_weight {ls : List ℕ} {bs : List (Block α)} {xs : List α} {r : Reading α}
    (h : readBlocks M ls bs xs = some r) : r.weight M ≤ blocksWeight M bs + weight M xs := by
  induction ls generalizing bs xs with
  | nil =>
    cases xs with
    | nil =>
      obtain rfl := Option.some.inj h
      simp
    | cons pid rest =>
      rw [readBlocks] at h
      split_ifs at h with hp
      obtain rfl := Option.some.inj h
      simp
  | cons n ls ih =>
    cases xs with
    | nil =>
      obtain rfl := Option.some.inj h
      simp
    | cons pid rest =>
      rw [readBlocks] at h
      split_ifs at h with hp hc hn
      · obtain rfl := Option.some.inj h
        simp
      · have ih := ih h
        have hw := weight_take_add_drop M n rest
        rw [blocksWeight_append, blocksWeight_singleton, blockWeight_mk] at ih
        rw [weight_cons]
        omega
      · obtain rfl := Option.some.inj h
        simp

theorem readPart_weight {ls : List ℕ} {bs : List (Block α)} {c : Cut α} {xs : List α}
    {r : Reading α} (h : readPart M ls bs c xs = some r) :
    r.weight M ≤ blocksWeight M bs + weight M (c.pid :: c.part) + weight M xs := by
  rw [readPart] at h
  split_ifs at h with hn
  · have hw := readBlocks_weight M h
    have ht := weight_take_add_drop M c.missing xs
    rw [blocksWeight_append, blocksWeight_singleton, blockWeight_mk, weight_append] at hw
    rw [weight_cons]
    omega
  · obtain rfl := Option.some.inj h
    simp only [Reading.weight_some, weight_cons, weight_append]
    omega

/-- Outside a block the reader stops at a continuation mark. -/
theorem supplyOf_of_readBlocks {ls : List ℕ} {bs : List (Block α)} {xs : List α} {r : Reading α}
    (h : readBlocks M ls bs xs = some r) : supplyOf M xs = weight M xs := by
  cases xs with
  | nil => rfl
  | cons x rest =>
    apply supplyOf_of_ne
    rintro rfl
    cases ls with
    | nil => simp [readBlocks, M.cont_ne_pad] at h
    | cons n ls => simp [readBlocks, M.cont_ne_pad] at h

theorem readPayload_weight {r r' : Reading α} {xs : List α} (h : readPayload M r xs = some r') :
    r'.weight M ≤ r.weight M + supplyOf M xs := by
  obtain ⟨ls, bs, cut⟩ := r
  cases cut with
  | none =>
    have h : readBlocks M ls bs xs = some r' := h
    have hw := readBlocks_weight M h
    rw [supplyOf_of_readBlocks M h]
    rwa [Reading.weight_none]
  | some c =>
    match xs, h with
    | mark :: pid :: rest, h =>
      simp only [readPayload] at h
      split_ifs at h with hm
      obtain ⟨rfl, rfl⟩ := hm
      have hw := readPart_weight M h
      rw [Reading.weight_some, supplyOf_cont, List.drop_succ_cons, List.drop_zero]
      exact hw

theorem readPacket_weight {r r' : Reading α} {p : List α} (h : readPacket M r p = some r') :
    r'.weight M ≤ r.weight M + packetSupply M p := by
  obtain ⟨xs, hs, hr⟩ := Option.bind_eq_some_iff.1 h
  have hw := readPayload_weight M hr
  simpa [packetSupply, hs] using hw

theorem foldlM_weight {ps : List (List α)} {r r' : Reading α}
    (h : ps.foldlM (readPacket M) r = some r') :
    r'.weight M ≤ r.weight M + packetsSupply M ps := by
  induction ps generalizing r with
  | nil =>
    obtain rfl := Option.some.inj h
    simp [packetsSupply]
  | cons p ps ih =>
    rw [List.foldlM_cons] at h
    obtain ⟨t, h1, h2⟩ := Option.bind_eq_some_iff.1 h
    have hp := readPacket_weight M h1
    have hps := ih h2
    simp only [packetsSupply, List.map_cons, List.sum_cons] at hps ⊢
    omega

/-- **What was read was supplied.** -/
theorem weight_le_of_read {ls : List ℕ} {ps : List (List α)} {bs : List (Block α)}
    (h : read M ls ps = some bs) : blocksWeight M bs ≤ packetsSupply M ps := by
  obtain ⟨r, hr, hb⟩ := Option.bind_eq_some_iff.1 h
  split_ifs at hb
  obtain rfl := Option.some.inj hb
  have hw := foldlM_weight M hr
  have hr : r.weight M = blocksWeight M r.blocks + _ := rfl
  rw [Reading.weight_none, blocksWeight_nil] at hw
  omega

end Reader

/-! ## The writer's side -/

/-- A format with the sizes and headers of its packets. The headers leave room for a mark,
an identifier and a symbol, and the reader finds the payload behind them. -/
structure Layout (α : Type*) extends Marks α where
  size : ℕ
  /-- The header of a packet, by its number. -/
  header : ℕ → List α
  /-- The identifiers of blocks. -/
  plain : α → Prop
  plain_ne : ∀ x, plain x → x ≠ cont ∧ x ≠ pad
  header_room : ∀ k, (header k).length + 3 ≤ size
  strip_header : ∀ k xs, (∀ x ∈ xs.head?, x = cont ∨ x = pad ∨ plain x) →
    strip (header k ++ xs) = some xs

/-- The packets finished so far, the payload of the current one, and whether it holds
anything worth a packet. -/
structure Pager (α : Type*) where
  packets : List (List α)
  payload : List α
  dirty : Bool

namespace Pager

variable (L : Layout α) (v : Pager α)

def current : List α := L.header v.packets.length ++ v.payload

def room : ℕ := L.size - (v.current L).length

/-- The current packet, padded. -/
def pack : List α := v.current L ++ List.replicate (v.room L) L.pad

/-- Finish the current packet and begin the next. -/
def turn : Pager α := ⟨v.packets ++ [v.pack L], [], false⟩

def put (xs : List α) : Pager α := { v with payload := v.payload ++ xs, dirty := true }

def mark : Pager α := { v with payload := v.payload ++ [L.cont] }

/-- All packets, the current one among them if it holds anything. -/
def finished : List (List α) := if v.dirty then v.packets ++ [v.pack L] else v.packets

structure Wf : Prop where
  fits : (v.current L).length ≤ L.size
  head : ∀ x ∈ v.payload.head?, x = L.cont ∨ L.plain x
  packets : ∀ p ∈ v.packets, p.length = L.size ∧ ∃ k, L.header k <+: p

variable {L v}

theorem wf_nil : (⟨[], [], false⟩ : Pager α).Wf L where
  fits := by
    have := L.header_room 0
    simp only [current, List.length_nil, List.append_nil]
    omega
  head := by simp
  packets := by simp

theorem length_pack (hw : v.Wf L) : (v.pack L).length = L.size := by
  have := hw.fits
  simp only [pack, room, List.length_append, List.length_replicate]
  omega

theorem Wf.finished (hw : v.Wf L) : ∀ p ∈ v.finished L, p.length = L.size ∧ ∃ k, L.header k <+: p := by
  have hpack : ∃ k, L.header k <+: v.pack L := by
    refine ⟨v.packets.length, v.payload ++ List.replicate (v.room L) L.pad, ?_⟩
    simp [pack, current]
  rw [Pager.finished]
  split
  · intro p hp
    rcases List.mem_append.1 hp with hp | hp
    · exact hw.packets p hp
    · obtain rfl := List.mem_singleton.1 hp
      exact ⟨length_pack hw, hpack⟩
  · exact hw.packets

theorem Wf.turn (hw : v.Wf L) : (v.turn L).Wf L where
  fits := by
    have := L.header_room (v.turn L).packets.length
    rw [current]
    simp only [Pager.turn, List.append_nil] at this ⊢
    omega
  head := by simp [Pager.turn]
  packets := by
    have h := Wf.finished (v := { v with dirty := true }) ⟨hw.fits, hw.head, hw.packets⟩
    exact h

theorem room_turn (v : Pager α) : 3 ≤ (v.turn L).room L := by
  have := L.header_room (v.turn L).packets.length
  simp only [room, current, Pager.turn, List.append_nil] at this ⊢
  omega

theorem room_put (xs : List α) : (v.put xs).room L = v.room L - xs.length := by
  simp only [room, current, put, List.length_append]
  omega

theorem room_mark : (v.mark L).room L = v.room L - 1 := room_put [L.cont]

theorem Wf.put (hw : v.Wf L) {pid : α} (hp : L.plain pid) {xs : List α} (h : 1 + xs.length ≤ v.room L) :
    (v.put (pid :: xs)).Wf L where
  fits := by
    have := hw.fits
    simp only [room, current, Pager.put, List.length_append, List.length_cons] at h this ⊢
    omega
  head := by
    intro x hx
    cases hv : v.payload with
    | nil =>
      simp only [Pager.put, hv, List.nil_append, List.head?_cons, Option.mem_some_iff] at hx
      exact .inr (hx ▸ hp)
    | cons y ys =>
      apply hw.head
      simpa [Pager.put, hv] using hx
  packets := hw.packets

theorem Wf.mark (hw : v.Wf L) (hv : v.payload = []) (h : 1 ≤ v.room L) : (v.mark L).Wf L where
  fits := by
    have := hw.fits
    simp only [room, current, Pager.mark, List.length_append, List.length_singleton] at h this ⊢
    omega
  head := by simp [Pager.mark, hv]
  packets := hw.packets

/-- The reader finds the payload. -/
theorem strip_pack (hw : v.Wf L) :
    L.strip (v.pack L) = some (v.payload ++ List.replicate (v.room L) L.pad) := by
  rw [pack, current, List.append_assoc]
  apply L.strip_header
  intro x hx
  cases hv : v.payload with
  | nil =>
    rw [hv, List.nil_append] at hx
    have := List.mem_of_mem_head? hx
    exact .inr (.inl (List.eq_of_mem_replicate this))
  | cons y ys =>
    have hx : x ∈ v.payload.head? := by simpa [hv] using hx
    rcases hw.head x hx with h | h
    · exact .inl h
    · exact .inr (.inr h)

/-! ## Supplies of a pager -/

variable [DecidableEq α]

/-- What all packets supply to a reader. -/
def supply (L : Layout α) (v : Pager α) : ℕ :=
  packetsSupply L.toMarks v.packets + supplyOf L.toMarks v.payload

theorem supplyOf_append_pad (M : Marks α) (xs : List α) (n : ℕ) :
    supplyOf M (xs ++ List.replicate n M.pad) = supplyOf M xs := by
  cases xs with
  | nil =>
    cases n with
    | zero => rfl
    | succ n =>
      rw [List.nil_append, List.replicate_succ, supplyOf_of_ne M M.cont_ne_pad.symm, ← List.replicate_succ,
        weight_replicate_pad]
      rfl
  | cons x xs =>
    rw [List.cons_append]
    by_cases hx : x = M.cont
    · subst hx
      rw [supplyOf_cont, supplyOf_cont]
      cases xs with
      | nil => simp [List.drop_replicate]
      | cons y ys => simp
    · rw [supplyOf_of_ne M hx, supplyOf_of_ne M hx, ← List.cons_append, weight_append,
        weight_replicate_pad, Nat.add_zero]

theorem packetSupply_pack (hw : v.Wf L) :
    packetSupply L.toMarks (v.pack L) = supplyOf L.toMarks v.payload := by
  rw [packetSupply, strip_pack hw, Option.map_some, Option.getD_some, supplyOf_append_pad]

theorem supply_turn (hw : v.Wf L) : (v.turn L).supply L = v.supply L := by
  simp only [supply, turn, packetsSupply, List.map_append, List.map_cons, List.map_nil,
    List.sum_append, List.sum_singleton, packetSupply_pack hw, supplyOf, Nat.add_zero]

theorem supply_mark (hv : v.payload = []) : (v.mark L).supply L = v.supply L := by
  simp [supply, mark, hv, supplyOf]

theorem supply_finished_le (hw : v.Wf L) : packetsSupply L.toMarks (v.finished L) ≤ v.supply L := by
  rw [finished]
  split
  · exact (supply_turn hw).le
  · exact Nat.le_add_right _ _

/-- The identifier behind a lone continuation mark is not supplied. -/
theorem supply_put {pid : α} (hp : L.plain pid) (xs : List α) :
    (v.put (pid :: xs)).supply L + (if v.payload = [L.cont] then 1 else 0) =
      v.supply L + 1 + weight L.toMarks xs := by
  obtain ⟨hc, hpad⟩ := L.plain_ne pid hp
  have hcons : weight L.toMarks (pid :: xs) = 1 + weight L.toMarks xs := by
    rw [weight_cons, if_neg hpad]
  have hput : (v.put (pid :: xs)).supply L =
      packetsSupply L.toMarks v.packets + supplyOf L.toMarks (v.payload ++ pid :: xs) := rfl
  rw [hput, supply]
  match v.payload with
  | [] =>
    rw [List.nil_append, supplyOf_of_ne _ hc, hcons, supplyOf]
    simp
    omega
  | [x] =>
    by_cases hx : x = L.cont
    · subst hx
      simp
      omega
    · rw [if_neg (by simpa using hx), List.singleton_append, supplyOf_of_ne _ hx, supplyOf_of_ne _ hx,
        weight_cons, weight_cons _ x, hcons, weight_nil]
      omega
  | x :: y :: ys =>
    rw [if_neg (by simp), List.cons_append]
    by_cases hx : x = L.cont
    · subst hx
      rw [supplyOf_cont, supplyOf_cont, List.cons_append, List.drop_succ_cons, List.drop_succ_cons,
        List.drop_zero, List.drop_zero, weight_append, hcons]
      omega
    · rw [supplyOf_of_ne _ hx, supplyOf_of_ne _ hx, ← List.cons_append, weight_append, hcons]
      omega

/-! ## Readings of a pager -/

section Readings

variable (L v) (ls : List ℕ)

/-- Between two blocks: `done` was read so far, and what comes next is read as the next
blocks. -/
def Clean (rest : List ℕ) (done : List (Block α)) : Prop :=
  (v.dirty = false → v.payload = []) ∧
    ∃ r, reads L.toMarks ls v.packets = some r ∧
      ∀ xs, readPayload L.toMarks r (v.payload ++ xs) = readBlocks L.toMarks rest done xs

/-- Inside a block: with its identifier repeated, what comes next is read as its rest. -/
def Waits (rest : List ℕ) (done : List (Block α)) (c : Cut α) : Prop :=
  ∃ r, reads L.toMarks ls v.packets = some r ∧
    ∀ xs, readPayload L.toMarks r (v.payload ++ c.pid :: xs) = readPart L.toMarks rest done c xs

/-- Behind a complete block, but with a continuation mark in the new packet. -/
structure Overrun (rest : List ℕ) (done : List (Block α)) : Prop where
  reads : reads L.toMarks ls v.packets = some ⟨rest, done, none⟩
  payload : v.payload = [L.cont]
  dirty : v.dirty = false

end Readings

variable {ls : List ℕ} {rest : List ℕ} {done : List (Block α)} {c : Cut α}

theorem clean_nil : (⟨[], [], false⟩ : Pager α).Clean L ls ls [] :=
  ⟨fun _ => rfl, _, rfl, fun _ => rfl⟩

/-- A finished packet is read to the same point. -/
theorem Clean.reads_turn (h : v.Clean L ls rest done) (hw : v.Wf L) :
    reads L.toMarks ls (v.turn L).packets = some ⟨rest, done, none⟩ := by
  obtain ⟨-, r, hr, hx⟩ := h
  rw [turn, reads_append _ hr, readPacket, strip_pack hw, Option.bind_some, hx,
    readBlocks_replicate_pad]

theorem Clean.turn (h : v.Clean L ls rest done) (hw : v.Wf L) : (v.turn L).Clean L ls rest done :=
  ⟨fun _ => rfl, _, h.reads_turn hw, fun _ => rfl⟩

theorem Clean.overrun (h : v.Clean L ls rest done) (hw : v.Wf L) :
    ((v.turn L).mark L).Overrun L ls rest done :=
  ⟨h.reads_turn hw, rfl, rfl⟩

theorem Clean.waits {n : ℕ} (h : v.Clean L ls (n :: rest) done) {pid : α} (hp : L.plain pid) :
    v.Waits L ls rest done ⟨pid, [], n⟩ := by
  obtain ⟨hc, hpad⟩ := L.plain_ne pid hp
  obtain ⟨-, r, hr, hx⟩ := h
  refine ⟨r, hr, fun xs => ?_⟩
  rw [hx, readBlocks_cons _ hpad hc]

/-- The last part of a block. -/
theorem Waits.put (h : v.Waits L ls rest done c) {xs : List α} (hn : xs.length = c.missing) :
    (v.put (c.pid :: xs)).Clean L ls rest (done ++ [⟨c.pid, c.part ++ xs⟩]) := by
  obtain ⟨r, hr, hx⟩ := h
  refine ⟨fun hd => Bool.noConfusion hd, r, hr, fun ys => ?_⟩
  rw [Pager.put, List.append_assoc, List.cons_append, hx, readPart, if_pos (by simp [hn]), ← hn,
    List.take_left, List.drop_left]

/-- A part of a block that fills its packet, and the mark behind the next header. -/
theorem Waits.cut (h : v.Waits L ls rest done c) (hw : v.Wf L) (hp : L.plain c.pid) (xs : List α)
    (hroom : v.room L = 1 + xs.length) (hn : xs.length < c.missing) :
    (((v.put (c.pid :: xs)).turn L).mark L).Waits L ls rest done
      ⟨c.pid, c.part ++ xs, c.missing - xs.length⟩ := by
  have hw' : (v.put (c.pid :: xs)).Wf L := hw.put hp hroom.ge
  have hfull : (v.put (c.pid :: xs)).room L = 0 := by
    rw [room_put, hroom, List.length_cons]
    omega
  obtain ⟨r, hr, hx⟩ := h
  refine ⟨⟨rest, done, some ⟨c.pid, c.part ++ xs, c.missing - xs.length⟩⟩, ?_, fun ys => ?_⟩
  · have hpay : (v.put (c.pid :: xs)).payload = v.payload ++ c.pid :: xs := rfl
    rw [Pager.mark, Pager.turn]
    dsimp only
    rw [show (v.put (c.pid :: xs)).packets = v.packets from rfl, reads_append _ hr, readPacket,
      strip_pack hw', Option.bind_some, hfull, List.replicate_zero, List.append_nil, hpay, hx,
      readPart, if_neg (by omega)]
  · simp [Pager.mark, Pager.turn, readPayload]

theorem Clean.read_finished (h : v.Clean L ls [] done) (hw : v.Wf L) :
    read L.toMarks ls (v.finished L) = some done := by
  cases hd : v.dirty with
  | true =>
    have hr : reads L.toMarks ls (v.finished L) = some ⟨[], done, none⟩ := by
      rw [finished, if_pos hd]
      exact h.reads_turn hw
    rw [read, hr]
    rfl
  | false =>
    obtain ⟨hpay, r, hr, hx⟩ := h
    have hx := hx []
    rw [hpay hd, List.append_nil, readBlocks] at hx
    have hr : reads L.toMarks ls (v.finished L) = some r := by
      rw [finished, if_neg (by simp [hd])]
      exact hr
    obtain rfl := eq_of_readPayload_nil _ hx
    rw [read, hr]
    rfl

theorem Overrun.read_finished (h : v.Overrun L ls [] done) :
    read L.toMarks ls (v.finished L) = some done := by
  rw [finished, if_neg (by simp [h.dirty]), read, h.reads]
  rfl

end Pager

end Packets
