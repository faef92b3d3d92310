import Mathlib.Tactic

/-!
# Chunk stores with erase blocks

A store holds words by chunk and offset. Writing a chunk can only clear bits, erasing a block
sets all bits of its `k` chunks.

* `run_of_untouched`: operations on other chunks and blocks leave a chunk as it is.
* `run_written`: a chunk that is written once after its block was erased holds what was
  written.
-/

namespace BlockStore

/-- The words of a store, by chunk and offset. -/
abbrev Store (w : ℕ) := ℕ → ℕ → BitVec w

/-- An operation on a store. -/
inductive Op (w : ℕ)
  | write (chunk : ℕ) (data : List (BitVec w))
  | erase (block : ℕ)
deriving DecidableEq, Repr

variable {w : ℕ} (k : ℕ)

/-- An operation on a store with `k` chunks in a block. What is not written stays. -/
def apply (s : Store w) : Op w → Store w
  | .write chunk data =>
    Function.update s chunk fun i => s chunk i &&& data.getD i (BitVec.allOnes w)
  | .erase block => fun chunk => if chunk / k = block then fun _ => BitVec.allOnes w else s chunk

/-- Operations one after another. -/
def run (s : Store w) (ops : List (Op w)) : Store w := ops.foldl (apply k) s

/-- An operation writes a chunk or erases its block. -/
def Touches (c : ℕ) : Op w → Prop
  | .write chunk _ => chunk = c
  | .erase block => c / k = block

variable {k}

theorem run_cons (s : Store w) (op : Op w) (ops : List (Op w)) :
    run k s (op :: ops) = run k (apply k s op) ops := rfl

theorem run_append (s : Store w) (ops ops' : List (Op w)) :
    run k s (ops ++ ops') = run k (run k s ops) ops' := List.foldl_append

@[simp] theorem run_snoc (s : Store w) (ops : List (Op w)) (op : Op w) :
    run k s (ops ++ [op]) = apply k (run k s ops) op := by
  rw [run_append]
  rfl

/-- The chunk that is written. -/
theorem apply_write (s : Store w) (c : ℕ) (data : List (BitVec w)) (i : ℕ) :
    apply k s (.write c data) c i = s c i &&& data.getD i (BitVec.allOnes w) := by
  rw [apply, Function.update_self]

/-- A chunk of the block that is erased. -/
theorem apply_erase (s : Store w) (c i : ℕ) : apply k s (.erase (c / k)) c i = BitVec.allOnes w := by
  exact congrFun (if_pos rfl) i

theorem apply_of_untouched {s : Store w} {c : ℕ} {op : Op w} (h : ¬ Touches k c op) :
    apply k s op c = s c := by
  cases op with
  | write chunk data => exact Function.update_of_ne (fun hc => h hc.symm) _ _
  | erase block => exact if_neg h

/-- **Frame.** Operations on other chunks and blocks leave a chunk as it is. -/
theorem run_of_untouched {s : Store w} {c : ℕ} {ops : List (Op w)}
    (h : ∀ op ∈ ops, ¬ Touches k c op) : run k s ops c = s c := by
  induction ops generalizing s with
  | nil => rfl
  | cons op ops ih =>
    rw [run_cons, ih fun op' hop' => h op' (List.mem_cons_of_mem op hop')]
    exact apply_of_untouched (h op List.mem_cons_self)

/-- **Write once, read back.** -/
theorem run_written {s : Store w} {c : ℕ} {data : List (BitVec w)} {pre mid post : List (Op w)}
    (hmid : ∀ op ∈ mid, ¬ Touches k c op) (hpost : ∀ op ∈ post, ¬ Touches k c op) (i : ℕ) :
    run k s (pre ++ .erase (c / k) :: (mid ++ .write c data :: post)) c i =
      data.getD i (BitVec.allOnes w) := by
  rw [run_append, run_cons, run_append, run_cons, run_of_untouched hpost, apply_write,
    run_of_untouched hmid, apply_erase, BitVec.allOnes_and]

end BlockStore
