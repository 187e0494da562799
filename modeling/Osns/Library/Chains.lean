import Mathlib.Data.List.Nodup

/-! Hashtables with chains: a list of elements for every hash value. -/

namespace Chains

open List

variable {ι κ α : Type*}

/-- No chain has a key twice. -/
def Sound (key : α → κ) (t : ι → List α) : Prop := ∀ i, ((t i).map key).Nodup

section Operations

variable [DecidableEq κ] (hash : κ → ι) (key : α → κ)

/-- The first element with this key in the chain of the key. -/
def lookup (t : ι → List α) (k : κ) : Option α := (t (hash k)).find? (key · = k)

variable [DecidableEq ι]

def add (t : ι → List α) (a : α) : ι → List α :=
  Function.update t (hash (key a)) (a :: t (hash (key a)))

def remove (t : ι → List α) (k : κ) : ι → List α :=
  Function.update t (hash k) ((t (hash k)).eraseP (key · = k))

/-- The first element that meets the test is changed. -/
def modifyFirst (p : α → Bool) (f : α → α) : List α → List α
  | [] => []
  | a :: l => if p a then f a :: l else a :: modifyFirst p f l

/-- The first element with this key is changed where it is. -/
def modify (t : ι → List α) (k : κ) (f : α → α) : ι → List α :=
  Function.update t (hash k) (modifyFirst (key · = k) f (t (hash k)))

end Operations

theorem map_modifyFirst {β : Type*} {p : α → Bool} {f : α → α} {g : α → β} (hf : ∀ a, g (f a) = g a)
    (l : List α) : (modifyFirst p f l).map g = l.map g := by
  induction l with
  | nil => rfl
  | cons a l ih =>
    rw [modifyFirst]
    split
    · rw [map_cons, map_cons, hf]
    · rw [map_cons, map_cons, ih]

/-- Only the element that is found, before and after its change, can be missed among others. -/
theorem filter_modifyFirst {p q : α → Bool} {f : α → α} {l : List α}
    (h : ∀ a, l.find? p = some a → q a = false ∧ q (f a) = false) :
    (modifyFirst p f l).filter q = l.filter q := by
  induction l with
  | nil => rfl
  | cons a l ih =>
    by_cases ha : p a
    · obtain ⟨hbefore, hafter⟩ := h a (find?_cons_of_pos ha)
      rw [modifyFirst, if_pos ha, filter_cons, filter_cons, hbefore, hafter]
      simp
    · rw [find?_cons_of_neg ha] at h
      rw [modifyFirst, if_neg ha, filter_cons, filter_cons, ih h]

variable [DecidableEq ι] [DecidableEq κ] {hash : κ → ι} {key : α → κ} {t : ι → List α}

theorem lookup_add (a : α) (k : κ) :
    lookup hash key (add hash key t a) k = if key a = k then some a else lookup hash key t k := by
  by_cases hk : key a = k
  · subst hk
    simp [lookup, add]
  · by_cases hrow : hash k = hash (key a)
    · simp [lookup, add, hrow, hk]
    · simp [lookup, add, hrow, hk]

theorem find?_eraseP_of_nodup {l : List α} (h : (l.map key).Nodup) (k k' : κ) :
    (l.eraseP (key · = k)).find? (key · = k') = if k = k' then none else l.find? (key · = k') := by
  induction l with
  | nil => simp
  | cons a l ih =>
    rw [map_cons, nodup_cons] at h
    by_cases ha : key a = k
    · subst ha
      by_cases hk : key a = k'
      · subst hk
        simpa using h.1
      · simp [hk]
    · by_cases ha' : key a = k'
      · subst ha'
        simp [ha, Ne.symm ha]
      · simp [ha, ha', ih h.2]

theorem lookup_remove (h : Sound key t) (k k' : κ) :
    lookup hash key (remove hash key t k) k' = if k = k' then none else lookup hash key t k' := by
  by_cases hrow : hash k' = hash k
  · simp only [lookup, remove, hrow, Function.update_self]
    exact find?_eraseP_of_nodup (h (hash k)) k k'
  · have hk : k ≠ k' := fun heq => hrow (congrArg hash heq.symm)
    simp [lookup, remove, hrow, hk]

theorem Sound.add (h : Sound key t) {a : α} (hfresh : lookup hash key t (key a) = none) :
    Sound key (add hash key t a) := by
  intro i
  by_cases hi : i = hash (key a)
  · subst hi
    simpa [Chains.add, h (hash (key a)), lookup] using hfresh
  · simpa [Chains.add, hi] using h i

theorem Sound.remove (h : Sound key t) (k : κ) : Sound key (remove hash key t k) := by
  intro i
  by_cases hi : i = hash k
  · subst hi
    rw [Chains.remove, Function.update_self]
    exact ((eraseP_sublist).map key).nodup (h (hash k))
  · simpa [Chains.remove, hi] using h i

/-- An element that is added can be taken out again. -/
theorem remove_add (a : α) : remove hash key (add hash key t a) (key a) = t := by
  simp [remove, add]

end Chains
