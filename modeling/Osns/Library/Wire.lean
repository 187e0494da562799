import Mathlib.Data.List.Forall2
import Osns.Library.BigEndian

/-! Messages as a sequence of fields: numbers of a fixed width, byte strings with their length in
front, and whatever is left at the end. -/

namespace Wire

open List Option BigEndian

inductive Field where
  | word (width : ℕ)
  | string
  | rest
  deriving DecidableEq, Repr

inductive Value where
  | number (n : ℕ)
  | bytes (bs : List UInt8)
  deriving DecidableEq, Repr

/-- The first field of a message and the bytes behind it, when the field is complete. -/
def read : Field → List UInt8 → Option (Value × List UInt8)
  | .word width, bs =>
    if width ≤ bs.length then
      some (.number (decode (bs.take width)), bs.drop width)
    else none
  | .string, bs =>
    if 4 ≤ bs.length ∧ 4 + decode (bs.take 4) ≤ bs.length then
      some (.bytes ((bs.drop 4).take (decode (bs.take 4))),
        (bs.drop 4).drop (decode (bs.take 4)))
    else none
  | .rest, bs => some (.bytes bs, [])

def readAll : List Field → List UInt8 → Option (List Value × List UInt8)
  | [], bs => some ([], bs)
  | f :: fs, bs => (read f bs).bind fun r => (readAll fs r.2).map fun t => (r.1 :: t.1, t.2)

/-- The fields of a message that has nothing behind its last field. -/
def decode (fs : List Field) (bs : List UInt8) : Option (List Value) :=
  (readAll fs bs).bind fun r => if r.2.isEmpty then some r.1 else none

def write : Field → Value → List UInt8
  | .word width, .number n => encode width n
  | .string, .bytes bs => encode 4 bs.length ++ bs
  | .rest, .bytes bs => bs
  | _, _ => []

def encode : List Field → List Value → List UInt8
  | f :: fs, v :: vs => write f v ++ encode fs vs
  | _, _ => []

/-- The value can be sent in a field of this kind. -/
def Suits : Field → Value → Prop
  | .word width, .number n => n < 256 ^ width
  | .string, .bytes bs => bs.length < 256 ^ 4
  | .rest, .bytes _ => True
  | _, _ => False

/-- Only the last field takes all that is left. -/
def Delimited (fs : List Field) : Prop := .rest ∉ fs.dropLast

instance (fs : List Field) : Decidable (Delimited fs) := inferInstanceAs (Decidable (_ ∉ _))

variable {f : Field} {fs : List Field} {v : Value} {vs : List Value} {bs tail : List UInt8}

/-- A field is read back from its encoding, whatever follows it. -/
theorem read_write (hf : f ≠ .rest) (h : Suits f v) (tail : List UInt8) :
    read f (write f v ++ tail) = some (v, tail) := by
  cases f with
  | rest => exact absurd rfl hf
  | word width =>
    cases v with
    | bytes bs => exact h.elim
    | number n =>
      have hn : n % 256 ^ width = n := Nat.mod_eq_of_lt h
      simp [read, write, BigEndian.decode_encode, hn, BigEndian.length_encode]
  | string =>
    cases v with
    | number n => exact h.elim
    | bytes bs =>
      have hn : bs.length % 256 ^ 4 = bs.length := Nat.mod_eq_of_lt h
      have hhead : (BigEndian.encode 4 bs.length ++ (bs ++ tail)).take 4
          = BigEndian.encode 4 bs.length :=
        take_left' (BigEndian.length_encode 4 _)
      have hbody : (BigEndian.encode 4 bs.length ++ (bs ++ tail)).drop 4 = bs ++ tail :=
        drop_left' (BigEndian.length_encode 4 _)
      rw [write, append_assoc, read, hhead, hbody, BigEndian.decode_encode, hn, if_pos,
        take_left, drop_left]
      simp only [length_append, BigEndian.length_encode]
      omega

theorem readAll_encode (h : List.Forall₂ Suits fs vs) (hd : Delimited fs)
    (htail : .rest ∉ fs ∨ tail = []) : readAll fs (encode fs vs ++ tail) = some (vs, tail) := by
  induction h with
  | nil => rfl
  | @cons f v fs vs hv hvs ih =>
    by_cases hf : f = .rest
    · subst hf
      -- nothing may follow the field that takes the rest
      have hfs : fs = [] := by
        cases fs with
        | nil => rfl
        | cons g gs => exact absurd (mem_cons_self ..) hd
      subst hfs
      cases hvs
      obtain rfl : tail = [] := htail.resolve_left fun h => h (mem_cons_self ..)
      cases v with
      | number n => exact hv.elim
      | bytes bs => simp [readAll, read, encode, write]
    · have hd' : Delimited fs := by
        intro hmem
        cases fs with
        | nil => exact absurd hmem not_mem_nil
        | cons g gs => exact hd (mem_cons_of_mem _ hmem)
      have htail' : .rest ∉ fs ∨ tail = [] :=
        htail.imp_left fun h hmem => h (mem_cons_of_mem _ hmem)
      rw [encode, append_assoc, readAll, read_write hf hv, bind_some, ih hd' htail', map_some]

/-- A message is decoded to what it was encoded from. -/
theorem decode_encode (h : List.Forall₂ Suits fs vs) (hd : Delimited fs) :
    decode fs (encode fs vs) = some vs := by
  have hread : readAll fs (encode fs vs ++ []) = some (vs, []) := readAll_encode h hd (.inr rfl)
  rw [append_nil] at hread
  simp [decode, hread]

/-- What is read from the front of a message is what stands there. -/
theorem write_of_read (h : read f bs = some (v, tail)) : write f v ++ tail = bs ∧ Suits f v := by
  cases f with
  | rest =>
    simp only [read, some.injEq, Prod.mk.injEq] at h
    obtain ⟨rfl, rfl⟩ := h
    exact ⟨append_nil _, trivial⟩
  | word width =>
    simp only [read, ite_none_right_eq_some, some.injEq, Prod.mk.injEq] at h
    obtain ⟨hle, rfl, rfl⟩ := h
    have hlen : (bs.take width).length = width := length_take_of_le hle
    have henc := BigEndian.encode_decode (bs.take width)
    have hlt := BigEndian.decode_lt (bs.take width)
    rw [hlen] at henc hlt
    refine ⟨?_, hlt⟩
    rw [write, henc, take_append_drop]
  | string =>
    simp only [read, ite_none_right_eq_some, some.injEq, Prod.mk.injEq] at h
    obtain ⟨⟨hle, hfit⟩, rfl, rfl⟩ := h
    have hlen : (bs.take 4).length = 4 := length_take_of_le hle
    have henc := BigEndian.encode_decode (bs.take 4)
    have hlt := BigEndian.decode_lt (bs.take 4)
    rw [hlen] at henc hlt
    have hbody : ((bs.drop 4).take (BigEndian.decode (bs.take 4))).length
        = BigEndian.decode (bs.take 4) := by
      rw [length_take, length_drop]
      omega
    refine ⟨?_, by rwa [Suits, hbody]⟩
    rw [write, hbody, henc, append_assoc, take_append_drop, take_append_drop]

theorem encode_of_readAll (h : readAll fs bs = some (vs, tail)) :
    encode fs vs ++ tail = bs ∧ List.Forall₂ Suits fs vs := by
  induction fs generalizing bs vs with
  | nil =>
    simp only [readAll, some.injEq, Prod.mk.injEq] at h
    obtain ⟨rfl, rfl⟩ := h
    exact ⟨rfl, .nil⟩
  | cons f fs ih =>
    simp only [readAll, bind_eq_some_iff, map_eq_some_iff, Prod.mk.injEq] at h
    obtain ⟨⟨v, rest⟩, hread, ⟨vs', tail'⟩, hall, rfl, rfl⟩ := h
    obtain ⟨hrest, hvs⟩ := ih hall
    obtain ⟨hbs, hv⟩ := write_of_read hread
    refine ⟨?_, .cons hv hvs⟩
    rw [encode, append_assoc, hrest, hbs]

/-- What is left of a message behind its first fields, when they are complete. -/
def skip (fs : List Field) (bs : List UInt8) : Option (List UInt8) := (readAll fs bs).map Prod.snd

@[simp] theorem skip_nil (bs : List UInt8) : skip [] bs = some bs := rfl

theorem skip_cons : skip (f :: fs) bs = (read f bs).bind fun r => skip fs r.2 := by
  simp only [skip, readAll, Option.map_bind]
  congr 1
  funext r
  simp [Function.comp_def]

theorem skip_word {width : ℕ} : skip (.word width :: fs) bs = some tail ↔
    width ≤ bs.length ∧ skip fs (bs.drop width) = some tail := by
  rw [skip_cons, read]
  split
  case isTrue h => simp [h]
  case isFalse h => simp [h]

theorem skip_string : skip (.string :: fs) bs = some tail ↔
    (4 ≤ bs.length ∧ 4 + BigEndian.decode (bs.take 4) ≤ bs.length) ∧
      skip fs (bs.drop (4 + BigEndian.decode (bs.take 4))) = some tail := by
  rw [skip_cons, read]
  split
  case isTrue h => simp [h, drop_drop]
  case isFalse h => simp [reduceCtorEq, h]

theorem skip_append {gs : List Field} : skip (fs ++ gs) bs = (skip fs bs).bind (skip gs) := by
  induction fs generalizing bs with
  | nil => rfl
  | cons f fs ih =>
    rw [cons_append, skip_cons, skip_cons, bind_assoc]
    congr 1
    funext r
    exact ih

/-- Fields that are complete stay so when more follows. -/
theorem skip_of_append {more : List UInt8} (hf : .rest ∉ fs) (h : skip fs bs = some tail) :
    skip fs (bs ++ more) = some (tail ++ more) := by
  simp only [skip, map_eq_some_iff, Prod.exists] at h ⊢
  obtain ⟨vs, rest, hread, rfl⟩ := h
  obtain ⟨rfl, hvs⟩ := encode_of_readAll hread
  refine ⟨vs, rest ++ more, ?_, rfl⟩
  rw [append_assoc]
  exact readAll_encode hvs (fun hmem => hf (dropLast_subset _ hmem)) (.inl hf)

end Wire
