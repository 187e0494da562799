import Osns.Library.Buffer

/-! A buffer of a fixed size that is filled from the front, with a position that wraps around at a
limit. -/

namespace Output

open List Option

variable {α : Type*}

structure State (α : Type*) where
  buf : List α
  pos : ℕ

/-- Copies `xs` to the position and moves it behind them, when the copy stays inside the buffer. -/
def put (limit : ℕ) (s : State α) (xs : List α) : Option (State α) :=
  (Buffer.store s.buf s.pos xs).map fun buf => { buf, pos := (s.pos + xs.length) % limit }

def putAll (limit : ℕ) : State α → List (List α) → Option (State α)
  | s, [] => some s
  | s, xs :: chunks => (put limit s xs).bind fun s => putAll limit s chunks

variable {limit : ℕ} {s s' : State α} {xs : List α} {chunks : List (List α)}

theorem put_eq_some_iff : put limit s xs = some s' ↔
    s.pos + xs.length ≤ s.buf.length ∧
      s' = { buf := s.buf.take s.pos ++ xs ++ s.buf.drop (s.pos + xs.length)
             pos := (s.pos + xs.length) % limit } := by
  simp only [put, map_eq_some_iff, Buffer.store_eq_some_iff]
  constructor
  · rintro ⟨buf, ⟨hle, rfl⟩, rfl⟩
    exact ⟨hle, rfl⟩
  · rintro ⟨hle, rfl⟩
    exact ⟨_, ⟨hle, rfl⟩, rfl⟩

theorem length_of_put (h : put limit s xs = some s') : s'.buf.length = s.buf.length := by
  simp only [put, map_eq_some_iff] at h
  obtain ⟨buf, hstore, rfl⟩ := h
  exact Buffer.length_of_store hstore

variable {done free : List α}

/-- A piece is put behind what has been put before. -/
theorem put_append (hfree : xs.length ≤ free.length) (hlimit : done.length + xs.length < limit) :
    put limit ⟨done ++ free, done.length⟩ xs
      = some ⟨(done ++ xs) ++ free.drop xs.length, (done ++ xs).length⟩ := by
  rw [put_eq_some_iff]
  refine ⟨by simp only [length_append]; omega, ?_⟩
  have hmod : (done.length + xs.length) % limit = done.length + xs.length := Nat.mod_eq_of_lt hlimit
  simp only [take_left, length_append, hmod, drop_append, Nat.add_sub_cancel_left]
  simp

/-- As long as the position does not wrap around, what has been put lies one behind the other. -/
theorem putAll_append (hfree : chunks.flatten.length ≤ free.length)
    (hlimit : done.length + chunks.flatten.length < limit) :
    putAll limit ⟨done ++ free, done.length⟩ chunks
      = some ⟨done ++ chunks.flatten ++ free.drop chunks.flatten.length,
          done.length + chunks.flatten.length⟩ := by
  induction chunks generalizing done free with
  | nil => simp [putAll]
  | cons xs chunks ih =>
    rw [flatten_cons, length_append] at hfree hlimit
    rw [putAll, put_append (by omega) (by omega), bind_some,
      ih (by rw [length_drop]; omega) (by rw [length_append]; omega)]
    simp [Nat.add_assoc]

theorem putAll_two (first second : List (List α)) :
    putAll limit s (first ++ second)
      = (putAll limit s first).bind fun t => putAll limit t second := by
  induction first generalizing s with
  | nil => rfl
  | cons xs chunks ih =>
    rw [cons_append, putAll, putAll, bind_assoc]
    congr 1
    funext t
    exact ih

theorem length_of_putAll (h : putAll limit s chunks = some s') : s'.buf.length = s.buf.length := by
  induction chunks generalizing s with
  | nil =>
    cases h
    rfl
  | cons xs chunks ih =>
    simp only [putAll, bind_eq_some_iff] at h
    obtain ⟨t, hput, hrest⟩ := h
    rw [ih hrest, length_of_put hput]

/-- The position has moved by all that has been put, also when it has wrapped around. -/
theorem pos_of_putAll (hpos : s.pos < limit) (h : putAll limit s chunks = some s') :
    s'.pos = (s.pos + chunks.flatten.length) % limit := by
  induction chunks generalizing s with
  | nil =>
    cases h
    exact (Nat.mod_eq_of_lt hpos).symm
  | cons xs chunks ih =>
    simp only [putAll, bind_eq_some_iff] at h
    obtain ⟨t, hput, hrest⟩ := h
    obtain ⟨-, rfl⟩ := put_eq_some_iff.mp hput
    rw [ih (Nat.mod_lt _ (Nat.zero_lt_of_lt hpos)) hrest, Nat.mod_add_mod, flatten_cons,
      length_append, Nat.add_assoc]

/-- In a buffer below the limit the position does not wrap around. -/
theorem length_le_of_putAll (hlt : s.buf.length < limit) (hle : s.pos ≤ s.buf.length)
    (h : putAll limit s chunks = some s') : s.pos + chunks.flatten.length ≤ s.buf.length := by
  induction chunks generalizing s with
  | nil => exact hle
  | cons xs chunks ih =>
    simp only [putAll, bind_eq_some_iff] at h
    obtain ⟨t, hput, hrest⟩ := h
    have hlength := length_of_put hput
    obtain ⟨hroom, ht⟩ := put_eq_some_iff.mp hput
    have hpos : t.pos = s.pos + xs.length := by
      rw [ht]
      exact Nat.mod_eq_of_lt (by omega)
    have hlater := ih (by omega) (by omega) hrest
    rw [flatten_cons, length_append]
    omega

/-- The position stays below the limit. -/
theorem pos_lt_of_putAll (hlimit : 0 < limit) (hpos : s.pos < limit)
    (h : putAll limit s chunks = some s') : s'.pos < limit := by
  rw [pos_of_putAll hpos h]
  exact Nat.mod_lt _ hlimit

end Output
