import Mathlib.Data.List.Basic

/-! Buffers of a fixed size with reads and writes that must stay inside them. -/

namespace Buffer

open List

variable {α : Type*}

/-- The `n` elements from `off` on, when they lie inside the buffer. -/
def load (buf : List α) (off n : ℕ) : Option (List α) :=
  if off + n ≤ buf.length then some ((buf.drop off).take n) else none

/-- The buffer after `xs` has been copied to `off`, when the copy stays inside it. -/
def store (buf : List α) (off : ℕ) (xs : List α) : Option (List α) :=
  if off + xs.length ≤ buf.length then
    some (buf.take off ++ xs ++ buf.drop (off + xs.length))
  else none

variable {buf out xs : List α} {off n : ℕ}

theorem load_eq_some_iff :
    load buf off n = some xs ↔ off + n ≤ buf.length ∧ (buf.drop off).take n = xs := by
  simp [load]

theorem store_eq_some_iff :
    store buf off xs = some out ↔
      off + xs.length ≤ buf.length ∧ buf.take off ++ xs ++ buf.drop (off + xs.length) = out := by
  simp [store]

theorem load_of_le (h : off + n ≤ buf.length) : load buf off n = some ((buf.drop off).take n) :=
  if_pos h

theorem load_isSome (h : off + n ≤ buf.length) : (load buf off n).isSome := by
  simp [load, h]

theorem store_isSome (h : off + xs.length ≤ buf.length) : (store buf off xs).isSome := by
  simp [store, h]

theorem length_of_load (h : load buf off n = some xs) : xs.length = n := by
  obtain ⟨hle, rfl⟩ := load_eq_some_iff.mp h
  simp only [length_take, length_drop]
  omega

/-- A write neither grows nor shrinks the buffer. -/
theorem length_of_store (h : store buf off xs = some out) : out.length = buf.length := by
  obtain ⟨hle, rfl⟩ := store_eq_some_iff.mp h
  simp only [length_append, length_take, length_drop]
  omega

/-- What lies behind a write keeps its value. -/
theorem getElem?_of_store {i : ℕ} (h : store buf off xs = some out)
    (hi : off + xs.length ≤ i) : out[i]? = buf[i]? := by
  obtain ⟨hle, rfl⟩ := store_eq_some_iff.mp h
  have hfront : (buf.take off ++ xs).length = off + xs.length := by
    rw [length_append, length_take_of_le (by omega)]
  rw [getElem?_append_right (by omega), getElem?_drop, hfront, Nat.add_sub_cancel' hi]

/-- Reading the middle of three segments. -/
theorem load_append (as bs cs : List α) (hoff : off = as.length)
    (hn : n = bs.length) : load (as ++ bs ++ cs) off n = some bs := by
  subst hoff hn
  simp [load]

/-- Overwriting the middle of three segments. -/
theorem store_append (as bs cs xs : List α) (hoff : off = as.length)
    (hx : xs.length = bs.length) : store (as ++ bs ++ cs) off xs = some (as ++ xs ++ cs) := by
  subst hoff
  simp [store, hx, drop_append]

end Buffer
