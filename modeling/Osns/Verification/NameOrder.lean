import Mathlib.Data.List.DropRight
import Mathlib.Data.List.Lex
import Mathlib.Data.Nat.Digits.Defs
import Mathlib.Data.Prod.Lex
import Osns.Model.Name

/-! Where `compare_names` is a total order: it compares the index first and then what follows the first
six letters, which is a linear order on pairs. -/

namespace Osns

open List Option

variable (n : Name)

def Name.Indexed : Prop := calculateNameindex n = some n

/-- A total order on byte strings, for the names of a set. -/
structure TotalOrderOn (S : Name → Prop) : Prop where
  defined : ∀ a b, S a → S b → (compareNames a b).isSome
  zero_iff : ∀ a b, S a → S b → (compareNames a b = some 0 ↔ a.bytes = b.bytes)
  neg_iff_pos : ∀ a b, S a → S b →
    ((∃ r < 0, compareNames a b = some r) ↔ ∃ r > 0, compareNames b a = some r)
  trans : ∀ a b c, S a → S b → S c → (∃ r ≤ 0, compareNames a b = some r) →
    (∃ r ≤ 0, compareNames b c = some r) → ∃ r ≤ 0, compareNames a c = some r

theorem strcmp_terminated {xs ys : Bytes} (hx : 0 ∉ xs) (hy : 0 ∉ ys) (s t : Bytes) :
    ∃ r, strcmp (xs ++ 0 :: s) (ys ++ 0 :: t) = some r ∧
      (r < 0 ↔ xs.map UInt8.toNat < ys.map UInt8.toNat) ∧ (r = 0 ↔ xs = ys) := by
  induction xs generalizing ys with
  | nil =>
    cases ys with
    | nil => exact ⟨0, rfl, by simp, by simp⟩
    | cons y ys =>
      have hne : 0 ≠ y := by
        rintro rfl
        exact hy mem_cons_self
      have hpos : 0 < y.toNat := Nat.pos_of_ne_zero fun h => hne (UInt8.toNat_inj.mp h.symm)
      refine ⟨(0 : UInt8).toNat - y.toNat, if_neg hne, ?_, ?_⟩
      · simp [hpos]
      · simp [hpos.ne']
  | cons x xs ih =>
    have hx0 : x ≠ 0 := by
      rintro rfl
      exact hx mem_cons_self
    have hpos : 0 < x.toNat := Nat.pos_of_ne_zero fun h => hx0 (UInt8.toNat_inj.mp h)
    cases ys with
    | nil =>
      refine ⟨x.toNat - (0 : UInt8).toNat, if_neg hx0, ?_, ?_⟩
      · simp
      · simp [hpos.ne']
    | cons y ys =>
      by_cases hxy : x = y
      · subst hxy
        obtain ⟨r, hr, hneg, hzero⟩ := ih (fun h => hx (mem_cons_of_mem _ h))
          (fun h => hy (mem_cons_of_mem _ h))
        refine ⟨r, ?_, ?_, ?_⟩
        · rw [cons_append, cons_append, strcmp, if_pos rfl, if_neg hx0, hr]
        · rw [hneg, map_cons, map_cons, cons_lt_cons_iff]
          simp
        · rw [hzero, cons.injEq]
          simp
      · have hne : x.toNat ≠ y.toNat := fun h => hxy (UInt8.toNat_inj.mp h)
        refine ⟨x.toNat - y.toNat, if_neg hxy, ?_, ?_⟩
        · rw [map_cons, map_cons, cons_lt_cons_iff]
          omega
        · rw [cons.injEq]
          simp only [hxy, false_and, iff_false]
          omega

/-! ## The index -/

/-- The first six bytes, filled up with spaces. -/
def Name.padded : Bytes := n.bytes.take 6 ++ replicate (6 - (n.bytes.take 6).length) 32

/-- The letters as digits in base 92. -/
def Name.weight : ℕ := Nat.ofDigits 92 (n.padded.map letter).reverse

section Index

variable {n a b : Name}

@[simp] theorem Name.length_padded (n : Name) : n.padded.length = 6 := by
  rw [Name.padded, length_append, length_replicate, length_take]
  omega

theorem calculateNameindexHlp_eq {buffer : Bytes} (hlen : buffer.length = 6) :
    calculateNameindexHlp buffer = if buffer[1]?.all (letter · < 30) then
      some (Nat.ofDigits 92 (buffer.map letter).reverse) else none := by
  rcases buffer with _ | ⟨b1, _ | ⟨b2, _ | ⟨b3, _ | ⟨b4, _ | ⟨b5, _ | ⟨b6, _ | ⟨b7, rest⟩⟩⟩⟩⟩⟩⟩ <;>
    simp at hlen
  have hproduct : letter b2 * 71639296 < 2 ^ 31 ↔ letter b2 < 30 := by omega
  simp only [calculateNameindexHlp, hproduct, nameindexRoot1, nameindexRoot2, nameindexRoot3,
    nameindexRoot4, nameindexRoot5, map_cons, map_nil, reverse_cons, reverse_nil, nil_append,
    cons_append, Nat.ofDigits_cons, Nat.ofDigits_nil, getElem?_cons_succ, getElem?_cons_zero,
    all_some, decide_eq_true_eq]
  congr 2
  omega

/-- The index is the weight, where it can be calculated. -/
theorem indexed_iff : n.Indexed ↔
    min 6 n.len ≤ n.name.length ∧ (∀ b ∈ n.padded[1]?, letter b < 30) ∧ n.index = n.weight := by
  have hcount : (if 5 < n.len then 6 else n.len) = min 6 n.len := by
    split <;> omega
  have htake : n.bytes.take 6 = n.name.take (min 6 n.len) := take_take
  rw [Name.Indexed, calculateNameindex, hcount]
  by_cases hle : min 6 n.len ≤ n.name.length
  · have hlen : (n.name.take (min 6 n.len)).length = min 6 n.len := length_take_of_le hle
    have hstore : Buffer.store (replicate 6 32) 0 (n.name.take (min 6 n.len)) = some n.padded := by
      refine Buffer.store_eq_some_iff.mpr ⟨by rw [hlen, length_replicate]; omega, ?_⟩
      rw [Name.padded, htake, hlen, take_zero, nil_append, Nat.zero_add, drop_replicate]
    rw [Buffer.load_of_le (by omega), drop_zero]
    simp only [hstore, bind_eq_bind, bind_some, calculateNameindexHlp_eq n.length_padded]
    have hall : n.padded[1]?.all (letter · < 30) ↔ ∀ b ∈ n.padded[1]?, letter b < 30 := by
      simp only [Option.all_eq_true, decide_eq_true_eq, mem_def]
    by_cases hsecond : ∀ b ∈ n.padded[1]?, letter b < 30
    · rw [if_pos (hall.mpr hsecond), bind_some]
      refine ⟨fun h => ⟨hle, hsecond, (congrArg Name.index (some.inj h)).symm⟩, fun h => ?_⟩
      rw [← Name.weight, ← h.2.2]
      rfl
    · rw [if_neg (mt hall.mp hsecond)]
      exact iff_of_false (fun h => by cases h) fun h => hsecond h.2.1
  · simp [Buffer.load, hle]

end Index

/-! ## The order -/

/-- The C string behind the first six bytes. -/
def Name.tail : Bytes := (n.name.drop 6).takeWhile (· ≠ 0)

/-- The weight, and behind it the tail of a longer name. -/
def Name.rank : ℕ ×ₗ List ℕ :=
  toLex (n.weight, if 6 < n.len then 0 :: n.tail.map UInt8.toNat else [])

/-- Longer names have an end, names are apart exactly when their bytes are, and a name of less than six
bytes does not have the weight of one of more than six. -/
structure RanksApart (S : Name → Prop) : Prop where
  terminated : ∀ n, S n → 6 < n.len → 0 ∈ n.name.drop 6
  apart : ∀ a b, S a → S b → (a.rank = b.rank ↔ a.bytes = b.bytes)
  short : ∀ a b, S a → S b → a.weight = b.weight → a.len < 6 → b.len ≤ 6

section Order

variable {n a b : Name} {S : Name → Prop}

theorem drop_eq_tail (h : 0 ∈ n.name.drop 6) : ∃ rest, n.name.drop 6 = n.tail ++ 0 :: rest := by
  obtain ⟨front, rest, heq, hfront⟩ := eq_append_cons_of_mem h
  have htail : n.tail = front := by
    rw [Name.tail, heq, takeWhile_append_of_pos, takeWhile_cons_of_neg (by simp), append_nil]
    exact fun b hb => by simpa using ne_of_mem_of_not_mem hb hfront
  exact ⟨rest, by rw [htail, heq]⟩

theorem zero_notMem_tail (n : Name) : 0 ∉ n.tail := fun h => by simpa using mem_takeWhile_imp h

theorem rank_lt_iff : a.rank < b.rank ↔ a.weight < b.weight ∨ a.weight = b.weight ∧
    (if 6 < a.len then 0 :: a.tail.map UInt8.toNat else []) <
      (if 6 < b.len then 0 :: b.tail.map UInt8.toNat else []) :=
  Prod.Lex.toLex_lt_toLex

theorem rank_eq_iff : a.rank = b.rank ↔ a.weight = b.weight ∧
    (if 6 < a.len then 0 :: a.tail.map UInt8.toNat else []) =
      (if 6 < b.len then 0 :: b.tail.map UInt8.toNat else []) := by
  rw [Name.rank, Name.rank, toLex_inj, Prod.mk.injEq]

section

variable (ha : a.Indexed) (hb : b.Indexed) (hza : 6 < a.len → 0 ∈ a.name.drop 6)
  (hzb : 6 < b.len → 0 ∈ b.name.drop 6) (hshort : a.weight = b.weight → b.len < 6 → a.len ≤ 6)

include ha hb hza hzb hshort

/-- The result has the sign of the comparison of ranks. -/
theorem compareNames_spec :
    ∃ r, compareNames a b = some r ∧ (r < 0 ↔ a.rank < b.rank) ∧ (r = 0 ↔ a.rank = b.rank) := by
  rw [compareNames, (indexed_iff.mp ha).2.2, (indexed_iff.mp hb).2.2, rank_lt_iff, rank_eq_iff]
  by_cases hweight : a.weight = b.weight
  · rw [if_pos hweight]
    simp only [hweight, lt_self_iff_false, false_or, true_and]
    by_cases hlb : 6 < b.len
    · by_cases hla : 6 < a.len
      · obtain ⟨s, hs⟩ := drop_eq_tail (hza hla)
        obtain ⟨t, ht⟩ := drop_eq_tail (hzb hlb)
        obtain ⟨r, hr, hneg, hzero⟩ :=
          strcmp_terminated (zero_notMem_tail a) (zero_notMem_tail b) s t
        refine ⟨r, by rw [if_pos hlb, if_pos hla, hs, ht, hr], ?_, ?_⟩
        · rw [if_pos hla, if_pos hlb, hneg, cons_lt_cons_iff]
          simp
        · rw [if_pos hla, if_pos hlb, hzero, cons.injEq]
          have hmap : Function.Injective (map UInt8.toNat) :=
            Function.Injective.list_map fun _ _ => UInt8.toNat_inj.mp
          rw [hmap.eq_iff, and_iff_right rfl]
      · exact ⟨-1, by rw [if_pos hlb, if_neg hla], by simp [hla, hlb], by simp [hla, hlb]⟩
    · by_cases hla : 6 < a.len
      · have hsix : b.len = 6 := by
          have := hshort hweight
          omega
        exact ⟨1, by rw [if_neg hlb, if_pos hsix, if_pos hla], by simp [hla, hlb], by simp [hla, hlb]⟩
      · exact ⟨0, by rw [if_neg hlb, if_neg hla, ite_self], by simp [hla, hlb], by simp [hla, hlb]⟩
  · rw [if_neg hweight]
    refine ⟨_, rfl, ?_, ?_⟩
    · split <;> simp only [hweight, false_and, or_false] <;> omega
    · split <;> simp [hweight]

end

/-- The signs of the results, as an order by rank. -/
theorem compareNames_signs
    (h : ∃ r, compareNames a b = some r ∧ (r < 0 ↔ a.rank < b.rank) ∧ (r = 0 ↔ a.rank = b.rank)) :
    ((∃ r < 0, compareNames a b = some r) ↔ a.rank < b.rank) ∧
      ((∃ r > 0, compareNames a b = some r) ↔ b.rank < a.rank) ∧
      ((∃ r ≤ 0, compareNames a b = some r) ↔ a.rank ≤ b.rank) := by
  obtain ⟨r, hr, hneg, hzero⟩ := h
  have hpos : 0 < r ↔ b.rank < a.rank := by
    rw [← not_le, ← not_le, le_iff_lt_or_eq, le_iff_lt_or_eq, hneg, hzero]
  have hle : r ≤ 0 ↔ a.rank ≤ b.rank := by
    rw [le_iff_lt_or_eq, le_iff_lt_or_eq, hneg, hzero]
  simp [hr, ← hneg, ← hpos, ← hle]

/-- Names that are apart are compared by their ranks. -/
theorem RanksApart.compare (h : RanksApart S) (hS : ∀ n, S n → n.Indexed) (ha : S a) (hb : S b) :
    ∃ r, compareNames a b = some r ∧ (r < 0 ↔ a.rank < b.rank) ∧ (r = 0 ↔ a.rank = b.rank) :=
  compareNames_spec (hS a ha) (hS b hb) (h.terminated a ha) (h.terminated b hb)
    fun hweight => h.short b a hb ha hweight.symm

theorem RanksApart.totalOrder (h : RanksApart S) (hS : ∀ n, S n → n.Indexed) : TotalOrderOn S := by
  have hsigns {a b : Name} (ha : S a) (hb : S b) := compareNames_signs (h.compare hS ha hb)
  constructor
  · intro a b ha hb
    obtain ⟨r, hr, -⟩ := h.compare hS ha hb
    rw [hr]
    rfl
  · intro a b ha hb
    obtain ⟨r, hr, -, hzero⟩ := h.compare hS ha hb
    rw [← h.apart a b ha hb, ← hzero, hr, some.injEq]
  · intro a b ha hb
    rw [(hsigns ha hb).1, (hsigns hb ha).2.1]
  · intro a b c ha hb hc hab hbc
    rw [(hsigns ha hb).2.2] at hab
    rw [(hsigns hb hc).2.2] at hbc
    exact (hsigns ha hc).2.2.mpr (hab.trans hbc)

theorem strcmp_self {xs : Bytes} (h : (strcmp xs xs).isSome) : 0 ∈ xs := by
  induction xs with
  | nil => cases h
  | cons x xs ih =>
    rw [strcmp, if_pos rfl] at h
    split at h
    · next hzero => exact hzero ▸ mem_cons_self
    · exact mem_cons_of_mem _ (ih h)

theorem TotalOrderOn.ranksApart (h : TotalOrderOn S) (hS : ∀ n, S n → n.Indexed) : RanksApart S := by
  have hterminated (n : Name) (hn : S n) (hlen : 6 < n.len) : 0 ∈ n.name.drop 6 := by
    have hdefined := h.defined n n hn hn
    rw [compareNames, if_pos rfl, if_pos hlen, if_pos hlen] at hdefined
    exact strcmp_self hdefined
  have hshort (a b : Name) (ha : S a) (hb : S b) (hweight : a.weight = b.weight) (hlen : a.len < 6) :
      b.len ≤ 6 := by
    by_contra hlong
    have hindex : a.index = b.index := by
      rw [(indexed_iff.mp (hS a ha)).2.2, (indexed_iff.mp (hS b hb)).2.2, hweight]
    -- one way the longer name is behind, the other way they are equal
    have hab : compareNames a b = some (-1) := by
      rw [compareNames, if_pos hindex, if_pos (by omega), if_neg (by omega)]
    have hba : compareNames b a = some 0 := by
      rw [compareNames, if_pos hindex.symm, if_neg (by omega), if_neg (by omega)]
    obtain ⟨r, hr, heq⟩ := (h.neg_iff_pos a b ha hb).mp ⟨-1, by decide, hab⟩
    rw [hba, some.injEq] at heq
    omega
  refine ⟨hterminated, fun a b ha hb => ?_, hshort⟩
  obtain ⟨r, hr, -, hzero⟩ := compareNames_spec (hS a ha) (hS b hb) (hterminated a ha) (hterminated b hb)
    fun hweight => hshort b a hb ha hweight.symm
  rw [← hzero, ← h.zero_iff a b ha hb, hr, some.injEq]

end Order

/-! ## Plain names -/

/-- The first six letters are between the space and the last of the 92 characters that the index counts
and do not end in a space, the second one is small enough for its product, and a longer name is a C
string. -/
structure Name.Plain : Prop where
  whole : n.len ≤ n.name.length
  range : ∀ b ∈ n.bytes.take 6, letter b < 92
  last : (n.bytes.take 6).getLast? ≠ some 32
  second : ∀ b ∈ n.bytes[1]?, letter b < 30
  inner : 6 < n.len → 0 ∉ n.bytes.drop 6
  terminated : 6 < n.len → n.name[n.len]? = some 0

def Name.Regular : Prop := n.Plain ∧ n.Indexed

section Plain

variable {n a b : Name}

theorem letter_space : letter 32 = 0 := by decide

theorem letter_injective : Function.Injective letter := by
  intro b c h
  exact (UInt8.sub_left_inj 32).mp (UInt8.toNat_inj.mp h)

theorem Name.Plain.padded_lt (h : n.Plain) : ∀ b ∈ n.padded, letter b < 92 := by
  refine forall_mem_append.mpr ⟨h.range, fun b hb => ?_⟩
  rw [eq_of_mem_replicate hb, letter_space]
  decide

theorem Name.Plain.padded_second (h : n.Plain) : ∀ b ∈ n.padded[1]?, letter b < 30 := by
  intro b hb
  rw [Name.padded, getElem?_append] at hb
  split at hb
  · rw [getElem?_take_of_lt (by decide)] at hb
    exact h.second b hb
  · rw [eq_of_mem_replicate (mem_of_getElem? hb), letter_space]
    decide

theorem Name.Plain.length_bytes (h : n.Plain) : n.bytes.length = n.len := length_take_of_le h.whole

theorem rdropWhile_append_replicate {letters : Bytes} (h : letters.getLast? ≠ some 32) (k : ℕ) :
    (letters ++ replicate k 32).rdropWhile (· == 32) = letters := by
  induction k with
  | zero =>
    rw [replicate_zero, append_nil, rdropWhile_eq_self_iff]
    intro hne hlast
    rw [getLast?_eq_some_getLast hne] at h
    exact h (congrArg some (beq_iff_eq.mp hlast))
  | succ k ih =>
    rw [replicate_succ', ← append_assoc, rdropWhile_concat_pos _ _ _ rfl, ih]

theorem Name.Plain.take_eq (ha : a.Plain) (hb : b.Plain) (h : a.weight = b.weight) :
    a.bytes.take 6 = b.bytes.take 6 := by
  have hdigits : ∀ {n : Name}, n.Plain → ∀ d ∈ (n.padded.map letter).reverse, d < 92 := by
    intro n hn d hd
    rw [mem_reverse, List.mem_map] at hd
    obtain ⟨b, hb, rfl⟩ := hd
    exact hn.padded_lt b hb
  have hreverse := Nat.ofDigits_inj_of_len_eq (by decide) (by simp) (hdigits ha) (hdigits hb) h
  have hpadded : a.padded = b.padded := letter_injective.list_map (reverse_injective hreverse)
  have hrdrop := congrArg (rdropWhile (· == 32)) hpadded
  rwa [Name.padded, Name.padded, rdropWhile_append_replicate ha.last,
    rdropWhile_append_replicate hb.last] at hrdrop

theorem Name.Plain.tail_eq (h : n.Plain) (hlen : 6 < n.len) :
    0 ∈ n.name.drop 6 ∧ n.tail = n.bytes.drop 6 := by
  obtain ⟨hlt, hzero⟩ := List.getElem?_eq_some_iff.mp (h.terminated hlen)
  have hdrop : n.name.drop 6 = n.bytes.drop 6 ++ 0 :: n.name.drop (n.len + 1) := by
    rw [← hzero, ← drop_eq_getElem_cons hlt, Name.bytes, drop_take]
    conv_lhs => rw [← take_append_drop (n.len - 6) (n.name.drop 6)]
    rw [drop_drop, Nat.add_sub_cancel' (Nat.le_of_lt hlen)]
  refine ⟨by simp [hdrop], ?_⟩
  rw [Name.tail, hdrop, takeWhile_append_of_pos, takeWhile_cons_of_neg (by simp), append_nil]
  exact fun b hb => by simpa using ne_of_mem_of_not_mem hb (h.inner hlen)

/-- Behind the first six bytes the rank is that of the other ones. -/
theorem Name.Plain.rank_eq_iff (ha : a.Plain) (hb : b.Plain) :
    a.rank = b.rank ↔ a.weight = b.weight ∧ a.bytes.drop 6 = b.bytes.drop 6 := by
  have hmap : Function.Injective (map UInt8.toNat) :=
    Function.Injective.list_map fun _ _ => UInt8.toNat_inj.mp
  have hbehind {n : Name} (hn : n.Plain) : (if 6 < n.len then 0 :: n.tail.map UInt8.toNat else []) =
      if n.bytes.drop 6 = [] then [] else 0 :: (n.bytes.drop 6).map UInt8.toNat := by
    by_cases hlen : 6 < n.len
    · rw [if_pos hlen, (hn.tail_eq hlen).2, if_neg]
      rw [drop_eq_nil_iff, hn.length_bytes]
      omega
    · rw [if_neg hlen, if_pos (drop_eq_nil_of_le (by rw [hn.length_bytes]; omega))]
  rw [Osns.rank_eq_iff, hbehind ha, hbehind hb]
  refine and_congr_right fun _ => ?_
  cases a.bytes.drop 6 <;> cases b.bytes.drop 6 <;> simp [hmap.eq_iff, UInt8.toNat_inj]

theorem ranksApart_regular : RanksApart Name.Regular := by
  refine ⟨fun n hn hlen => (hn.1.tail_eq hlen).1, ?_, ?_⟩
  · rintro a b ⟨ha, -⟩ ⟨hb, -⟩
    rw [ha.rank_eq_iff hb]
    constructor
    · rintro ⟨hweight, hdrop⟩
      rw [← take_append_drop 6 a.bytes, ← take_append_drop 6 b.bytes, hdrop, ha.take_eq hb hweight]
    · intro h
      rw [Name.weight, Name.weight, Name.padded, Name.padded, h]
      exact ⟨rfl, rfl⟩
  · rintro a b ⟨ha, -⟩ ⟨hb, -⟩ hweight hlen
    have htake := congrArg length (ha.take_eq hb hweight)
    rw [length_take, length_take, ha.length_bytes, hb.length_bytes] at htake
    omega

end Plain

/-- Names with an index are in a total order exactly when the ranks tell them apart, and plain names get
an index and are. -/
theorem compareNames_totalOrder_iff (S : Name → Prop) (hS : ∀ n, S n → n.Indexed) :
    (TotalOrderOn S ↔ RanksApart S) ∧ RanksApart Name.Regular ∧
      ∀ n : Name, n.Plain → ({ n with index := n.weight } : Name).Regular := by
  refine ⟨⟨fun h => h.ranksApart hS, fun h => h.totalOrder hS⟩, ranksApart_regular, fun n h => ?_⟩
  have hplain : ({ n with index := n.weight } : Name).Plain := { h with }
  exact ⟨hplain, indexed_iff.mpr ⟨by have := h.whole; simp only; omega, hplain.padded_second, rfl⟩⟩

/-- The names "a1cde" with a space behind it and "b1cdef" use no filler. -/
theorem compareNames_totalOrder_iff_pair :
    TotalOrderOn fun n => n = ⟨[97, 49, 99, 100, 101, 32, 0], 6, 429673612108⟩ ∨
      n = ⟨[98, 49, 99, 100, 101, 102, 0], 6, 436264427410⟩ := by
  refine (compareNames_totalOrder_iff _ ?_).1.mpr ⟨?_, ?_, ?_⟩
  · rintro n (rfl | rfl) <;> rw [Name.Indexed] <;> decide
  · rintro n (rfl | rfl) hlen <;> exact absurd hlen (by decide)
  · rintro a b (rfl | rfl) (rfl | rfl) <;> rw [rank_eq_iff] <;> decide
  · rintro a b (rfl | rfl) (rfl | rfl) - - <;> decide

/-- The name "a" is equal to the name "a" with a space behind it; it is smaller than the name "a", five
spaces and an "x", which is equal to it; and the name "ab" has no index. -/
theorem compareNames_spaces :
    ¬ TotalOrderOn Name.Indexed ∧
      compareNames ⟨[97, 0], 1, 428402990080⟩ ⟨[97, 32, 32, 32, 32, 32, 120, 0], 7, 428402990080⟩ =
        some (-1) ∧
      compareNames ⟨[97, 32, 32, 32, 32, 32, 120, 0], 7, 428402990080⟩ ⟨[97, 0], 1, 428402990080⟩ =
        some 0 ∧
      calculateNameindex ⟨[97, 98, 0], 2, 0⟩ = none := by
  refine ⟨fun h => ?_, by decide, by decide, by decide⟩
  have hzero := h.zero_iff ⟨[97, 0], 1, 428402990080⟩ ⟨[97, 32, 0], 2, 428402990080⟩
    (by rw [Name.Indexed]; decide) (by rw [Name.Indexed]; decide)
  exact absurd (hzero.mp (by decide)) (by decide)

end Osns
