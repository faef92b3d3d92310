import PWSat2OBC.Spec.Writer
import Mathlib.Tactic.Linarith

/-!
# What a writer holds

`Holds w n xs`: the writer is valid over a buffer of `n` bytes and `xs` is what was written
so far. Every operation that fits appends its bytes (`Holds.write`).
-/

namespace PWSat2OBC

namespace Writer

structure Holds (w : Writer) (n : ℕ) (xs : List Byte) : Prop where
  isValid : w.isValid = true
  length : w.buffer.length = n
  small : n < 2 ^ 16
  position : w.position = xs.length
  taken : w.buffer.take xs.length = xs

variable {w : Writer} {n : ℕ} {xs : List Byte}

theorem Holds.le (h : w.Holds n xs) : xs.length ≤ n := by
  have := congrArg List.length h.taken
  rw [List.length_take, h.length] at this
  omega

theorem Holds.remainingSize (h : w.Holds n xs) : w.remainingSize = (n - xs.length : ℕ) := by
  have := h.le
  rw [Writer.remainingSize, h.length, h.position]
  omega

theorem holds_reset (hn : w.buffer.length = n) (h0 : 0 < n) (hs : n < 2 ^ 16) : w.reset.Holds n [] where
  isValid := by
    have : w.buffer ≠ [] := by
      rintro h
      rw [h, List.length_nil] at hn
      omega
    simpa [reset] using this
  length := hn
  small := hs
  position := rfl
  taken := rfl

theorem holds_init {view : List Byte} (hn : view.length = n) (h0 : 0 < n) (hs : n < 2 ^ 16) :
    (init view).Holds n [] := holds_reset (w := init view) hn h0 hs

/-- **Bytes that fit are appended.** -/
theorem Holds.write (h : w.Holds n xs) (ys : List Byte) (hn : xs.length + ys.length ≤ n)
    (h8 : ys.length < 2 ^ 8) : (w.write ys).1 = true ∧ (w.write ys).2.Holds n (xs ++ ys) := by
  have hstate : (w.updateState ys.length) = w := by
    have hfits : w.position + ys.length ≤ w.buffer.length := by rwa [h.position, h.length]
    rw [updateState, if_pos h.isValid, Nat.mod_eq_of_lt h8, decide_eq_true hfits, ← h.isValid]
  have hs := h.small
  have hlen := h.length
  have hwrite : w.write ys = (true, w.store ys) := by
    rw [Writer.write, hstate]
    simp only [h.isValid, if_true]
  rw [hwrite]
  refine ⟨rfl, h.isValid, ?_, hs, ?_, ?_⟩
  · simp only [store, List.length_append, List.length_take, List.length_drop, h.position, hlen]
    omega
  · simp only [store, h.position, List.length_append]
    exact Nat.mod_eq_of_lt (by omega)
  · have hx : (w.buffer.take w.position).length = xs.length := by
      rw [h.position, h.taken]
    have hxs : w.buffer.take w.position = xs := by rw [h.position, h.taken]
    rw [store]
    dsimp only
    rw [hxs, List.take_left']
    rfl

/-- What is behind the bytes written stays as it was. -/
theorem Holds.drop_write (h : w.Holds n xs) (ys : List Byte) :
    (w.write ys).2.buffer.drop (xs ++ ys).length = w.buffer.drop (xs ++ ys).length := by
  have hpos := h.position
  have hle := h.le
  have hlen := h.length
  unfold Writer.write
  have hbuffer : (w.updateState ys.length).buffer = w.buffer := by
    unfold updateState
    split <;> rfl
  have hposition : (w.updateState ys.length).position = w.position := by
    unfold updateState
    split <;> rfl
  dsimp only
  split
  · have htake : (w.buffer.take xs.length ++ ys).length = (xs ++ ys).length := by
      rw [List.length_append, List.length_append, List.length_take]
      omega
    rw [store]
    dsimp only
    rw [hbuffer, hposition, hpos, List.drop_left' htake, List.length_append]
  · rw [hbuffer]

/-- **A reserved span** that bytes arrive in: what they do not reach keeps the bytes of the
buffer. -/
theorem Holds.reserve (h : w.Holds n xs) {count : ℕ} {ys : List Byte} (hn : xs.length + count ≤ n)
    (h8 : count < 2 ^ 8) (hys : ys.length ≤ count) :
    (w.reserve count).1 = (xs.length, count) ∧
      ((w.reserve count).2.fillReserved xs.length ys).Holds n
        (xs ++ ys ++ (w.buffer.drop (xs ++ ys).length).take (count - ys.length)) := by
  have hlen := h.length
  have hs := h.small
  have hmin : min count (w.buffer.length - w.position) = count := by
    rw [h.position, hlen]
    omega
  have hfits : w.position + count % 2 ^ 8 ≤ w.buffer.length := by
    rw [h.position, hlen, Nat.mod_eq_of_lt h8]
    exact hn
  have hstate : w.updateState count = w := by
    rw [updateState, if_pos h.isValid, decide_eq_true hfits, ← h.isValid]
  have hmod : (w.position + count) % 2 ^ 16 = xs.length + count := by
    rw [h.position]
    exact Nat.mod_eq_of_lt (by omega)
  unfold Writer.reserve fillReserved
  dsimp only
  rw [hmin, hstate, hmod, h.position]
  refine ⟨rfl, h.isValid, ?_, hs, ?_, ?_⟩
  · simp only [List.length_append, List.length_take, List.length_drop, hlen]
    omega
  · simp only [List.length_append, List.length_take, List.length_drop, hlen]
    omega
  · have htotal : (xs ++ ys ++ (w.buffer.drop (xs ++ ys).length).take (count - ys.length)).length =
        (xs ++ ys).length + (count - ys.length) := by
      simp only [List.length_append, List.length_take, List.length_drop, hlen]
      omega
    dsimp only
    rw [h.taken, htotal, ← List.length_append, List.take_length_add_append]

/-- The rest of the buffer is filled. -/
theorem Holds.fill (h : w.Holds n xs) (h8 : n - xs.length < 2 ^ 8) (value : Byte) :
    (w.fill value).2.Holds n (xs ++ List.replicate (n - xs.length) value) := by
  have := h.le
  rw [Writer.fill, h.remainingSize, Int.toNat_natCast]
  exact (h.write _ (by rw [List.length_replicate]; omega) (by rwa [List.length_replicate])).2

/-- A full buffer is what was written. -/
theorem Holds.buffer_eq (h : w.Holds n xs) (hfull : xs.length = n) : w.buffer = xs := by
  rw [← h.taken, List.take_of_length_le (by rw [h.length, hfull])]

end Writer

end PWSat2OBC
