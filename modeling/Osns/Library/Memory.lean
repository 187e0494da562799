import Mathlib.Data.Nat.Notation
import Mathlib.Logic.Function.Basic

/-! Memory as a function from addresses, with reads and writes of consecutive cells. -/

namespace Memory

open List

variable {α : Type*}

/-- The `n` cells from `off` on. -/
def read (m : ℕ → α) : ℕ → ℕ → List α
  | _, 0 => []
  | off, n + 1 => m off :: read m (off + 1) n

/-- The memory after `xs` has been copied to `off`. -/
def write (m : ℕ → α) : ℕ → List α → ℕ → α
  | _, [] => m
  | off, x :: xs => write (Function.update m off x) (off + 1) xs

variable (m : ℕ → α)

theorem read_add (off a b : ℕ) : read m off (a + b) = read m off a ++ read m (off + a) b := by
  induction a generalizing off with
  | zero => simp [read]
  | succ a ih =>
    rw [Nat.add_right_comm, read, ih, read, cons_append, Nat.add_right_comm off 1 a,
      Nat.add_assoc off a 1]

@[simp] theorem length_read (off n : ℕ) : (read m off n).length = n := by
  induction n generalizing off with
  | zero => rfl
  | succ n ih => rw [read, length_cons, ih]

theorem read_congr {m m' : ℕ → α} {off n : ℕ} (h : ∀ i, off ≤ i → i < off + n → m i = m' i) :
    read m off n = read m' off n := by
  induction n generalizing off with
  | zero => rfl
  | succ n ih =>
    rw [read, read, h off (Nat.le_refl _) (by omega), ih]
    intro i hlow hhigh
    exact h i (by omega) (by omega)

/-- Cells outside the written range keep their contents. -/
theorem write_outside (off : ℕ) (xs : List α) {i : ℕ} (h : i < off ∨ off + xs.length ≤ i) :
    write m off xs i = m i := by
  induction xs generalizing m off with
  | nil => rfl
  | cons x xs ih =>
    rw [length_cons] at h
    rw [write, ih _ _ (by omega), Function.update_of_ne (by omega)]

theorem read_write (off : ℕ) (xs : List α) : read (write m off xs) off xs.length = xs := by
  induction xs generalizing m off with
  | nil => rfl
  | cons x xs ih =>
    rw [length_cons, read, write, ih, write_outside _ _ _ (.inl (Nat.lt_succ_self off)),
      Function.update_self]

/-- A write behind what has been read before extends it. -/
theorem read_write_append (n : ℕ) (xs : List α) :
    read (write m n xs) 0 (n + xs.length) = read m 0 n ++ xs := by
  rw [read_add, Nat.zero_add, read_write]
  congr 1
  apply read_congr
  intro i _ hi
  exact write_outside m n xs (.inl (by omega))

/-- Overwriting the middle of three segments that have been read. -/
theorem read_write_middle {n : ℕ} {as bs cs xs : List α} (h : read m 0 n = as ++ bs ++ cs)
    (hlen : xs.length = bs.length) : read (write m as.length xs) 0 n = as ++ xs ++ cs := by
  have hn : n = as.length + xs.length + cs.length := by
    have hn := congrArg length h
    rw [length_read, length_append, length_append] at hn
    rw [hlen]
    exact hn
  subst hn
  rw [read_add, read_add, Nat.zero_add] at h ⊢
  obtain ⟨hfront, hcs⟩ := append_inj' h (length_read ..)
  obtain ⟨has, -⟩ := append_inj' hfront (by rw [length_read, hlen])
  rw [read_write]
  congr 1
  · congr 1
    refine Eq.trans (read_congr ?_) has
    intro i _ hi
    exact write_outside m as.length xs (.inl (by omega))
  · refine Eq.trans (read_congr ?_) hcs
    intro i hi _
    exact write_outside m as.length xs (.inr (by omega))

end Memory
