import Mathlib.Data.List.Infix
import Osns.Model.Readers

/-! What the threads are to agree with: the messages of a stream, one after the other. -/

namespace Osns

open List Option

namespace ReadSetup

variable {σ : Type}

def firstMessage (c : ReadSetup σ) (h : σ) (ticket : ℕ) (bs : Bytes) :
    Option (PendingMessage σ × Bytes) :=
  if c.decryptor.cipherHeadersize ≤ bs.length then
    (c.readHeader h ticket bs).bind fun m =>
      if c.size m ≤ bs.length then some (m.fill (bs.take (c.size m)), bs.drop (c.size m)) else none
  else none

/-- The handle for the message behind others. A decryptor that is the only one goes on where it has
stopped. -/
def nextHandle (c : ReadSetup σ) (taken : List (PendingMessage σ)) : σ :=
  if c.maxCount = 1 then
    (taken.getLast?.bind fun m => (c.openPending m).map (·.1)).getD c.init
  else c.init

/-- Consecutive messages from the front of a stream, with consecutive numbers, and what is left of it. -/
inductive Takes (c : ReadSetup σ) (n : ℕ) (stream : Bytes) : List (PendingMessage σ) → Bytes → Prop
  | nil : Takes c n stream [] stream
  | snoc {taken rest m rest'} (h : Takes c n stream taken rest)
      (hm : c.firstMessage (c.nextHandle taken) (n + taken.length) rest = some (m, rest')) :
      Takes c n stream (taken ++ [m]) rest'

def outcome (c : ReadSetup σ) (m : PendingMessage σ) : Option Message :=
  (c.openPending m).bind fun r => c.payloadOf r.2

variable {c : ReadSetup σ} {n : ℕ} {stream rest rest' : Bytes} {taken taken' : List (PendingMessage σ)}

theorem Takes.exists_take (h : c.Takes n stream taken rest) (k : ℕ) :
    ∃ rest', c.Takes n stream (taken.take k) rest' := by
  induction h with
  | nil => exact ⟨stream, by rw [take_nil]; exact .nil⟩
  | @snoc taken rest m rest'' h hm ih =>
    by_cases hk : k ≤ taken.length
    · rw [take_append_of_le_length hk]
      exact ih
    · have hlen : (taken ++ [m]).length ≤ k := by
        rw [length_append, length_singleton]
        omega
      rw [take_of_length_le hlen]
      exact ⟨rest'', .snoc h hm⟩

theorem Takes.unique (h : c.Takes n stream taken rest) (h' : c.Takes n stream taken' rest')
    (hlen : taken.length = taken'.length) : taken = taken' ∧ rest = rest' := by
  induction h generalizing taken' rest' with
  | nil =>
    cases h' with
    | nil => exact ⟨rfl, rfl⟩
    | snoc _ _ =>
      rw [length_append, length_singleton] at hlen
      exact absurd hlen (Nat.succ_ne_zero _).symm
  | snoc h hm ih =>
    cases h' with
    | nil =>
      rw [length_append, length_singleton] at hlen
      exact absurd hlen (Nat.succ_ne_zero _)
    | snoc h' hm' =>
      rw [length_append, length_append, length_singleton, length_singleton,
        Nat.add_right_cancel_iff] at hlen
      obtain ⟨rfl, rfl⟩ := ih h' hlen
      rw [hm] at hm'
      cases hm'
      exact ⟨rfl, rfl⟩

theorem Takes.prefix_or (h : c.Takes n stream taken rest) (h' : c.Takes n stream taken' rest') :
    taken <+: taken' ∨ taken' <+: taken := by
  have hpre : ∀ {t t' : List (PendingMessage σ)} {r r' : Bytes}, c.Takes n stream t r →
      c.Takes n stream t' r' → t.length ≤ t'.length → t <+: t' := by
    intro t t' r r' ht ht' hle
    obtain ⟨_, hfront⟩ := ht'.exists_take t.length
    obtain ⟨heq, -⟩ := ht.unique hfront (by rw [length_take_of_le hle])
    rw [heq]
    exact take_prefix _ _
  rcases Nat.le_total taken.length taken'.length with hle | hle
  · exact .inl (hpre h h' hle)
  · exact .inr (hpre h' h hle)

variable {h : σ} {ticket : ℕ} {bs : Bytes} {m : PendingMessage σ}

theorem size_of_readHeader
    (hm : c.readHeader h ticket bs = some m) : c.size m < c.env.maxPacketSize := by
  unfold readHeader at hm
  split at hm
  · cases hm
  · next heq =>
    split at hm
    · cases hm
    · next hsmall =>
      cases hm
      exact Nat.lt_of_not_le hsmall

theorem readHeader_ticket (hm : c.readHeader h ticket bs = some m) : m.ticket = ticket := by
  unfold readHeader at hm
  split at hm
  · cases hm
  · split at hm
    · cases hm
    · cases hm
      rfl

theorem firstMessage_eq_some (hfirst : c.firstMessage h ticket bs = some (m, rest)) :
    ∃ m₀, c.readHeader h ticket bs = some m₀ ∧ c.size m₀ ≤ bs.length ∧
      m = m₀.fill (bs.take (c.size m₀)) ∧ rest = bs.drop (c.size m₀) := by
  obtain ⟨-, hbind⟩ := ite_none_right_eq_some.mp hfirst
  obtain ⟨m₀, hm₀, hite⟩ := bind_eq_some_iff.mp hbind
  obtain ⟨hle, heq⟩ := ite_none_right_eq_some.mp hite
  cases heq
  exact ⟨m₀, hm₀, hle, rfl, rfl⟩

theorem Takes.getElem_header (h : c.Takes n stream taken rest) {k : ℕ} (hm : taken[k]? = some m) :
    ∃ x rd m₀ bytes, c.readHeader x (n + k) rd = some m₀ ∧ m = m₀.fill bytes := by
  induction h with
  | nil => cases hm
  | @snoc taken rest m' rest' h hfirst ih =>
    rw [getElem?_append] at hm
    split at hm
    · exact ih hm
    · obtain ⟨m₀, hm₀, -, rfl, -⟩ := firstMessage_eq_some hfirst
      obtain ⟨hk, heq⟩ := List.getElem?_eq_some_iff.mp hm
      rw [length_singleton] at hk
      rw [getElem_singleton] at heq
      have hlen : k = taken.length := by omega
      rw [hlen]
      exact ⟨_, _, m₀, _, hm₀, heq.symm⟩

theorem Takes.getElem_ticket (h : c.Takes n stream taken rest) {k : ℕ}
    (hm : taken[k]? = some m) : m.ticket = n + k := by
  obtain ⟨x, rd, m₀, bytes, hm₀, rfl⟩ := h.getElem_header hm
  change m₀.ticket = n + k
  exact readHeader_ticket hm₀

/-! ## Decryptors -/

def Alike (c : ReadSetup σ) (h h' : σ) : Prop :=
  ∀ ticket rd, c.readHeader h ticket rd = c.readHeader h' ticket rd

/-- Handles that stay alike whatever they have read. -/
structure Interchangeable (c : ReadSetup σ) (Good : σ → Prop) : Prop where
  init : Good c.init
  alike : ∀ h, Good h → c.Alike h c.init
  openPending : ∀ h ticket rd m bytes r, Good h → c.readHeader h ticket rd = some m →
    c.openPending (m.fill bytes) = some r → Good r.1

/-- The header is all that is looked at for the size, a packet keeps its number, and decryptors that are
used at the same time can be interchanged. -/
structure Lawful (c : ReadSetup σ) : Prop where
  header : ∀ h ticket rd more, c.decryptor.cipherHeadersize ≤ rd.length →
    c.readHeader h ticket (rd ++ more) = (c.readHeader h ticket rd).map (·.fill (rd ++ more))
  number : ∀ h ticket rd m bytes r, c.readHeader h ticket rd = some m →
    c.openPending (m.fill bytes) = some r → r.2.sequence = u32 ticket
  long : ∀ m r, c.openPending m = some r → 4 < m.packet.buffer.length
  shared : c.maxCount = 1 ∨ ∃ Good, c.Interchangeable Good

/-! ## Streams without failures -/

/-- Along the stream every header can be decrypted and announces no message that is too large, and every
message passes its checks and is processed. -/
structure Succeeds (c : ReadSetup σ) (n : ℕ) (stream : Bytes) : Prop where
  header : ∀ taken rest, c.Takes n stream taken rest → c.decryptor.cipherHeadersize ≤ rest.length →
    (c.readHeader (c.nextHandle taken) (n + taken.length) rest).isSome
  outcome : ∀ taken rest, c.Takes n stream taken rest → ∀ m ∈ taken, (c.outcome m).isSome

theorem outcome_isSome (h : (c.outcome m).isSome) :
    ∃ x p msg, c.openPending m = some (x, p) ∧ c.payloadOf p = some msg := by
  obtain ⟨msg, hmsg⟩ := isSome_iff_exists.mp h
  obtain ⟨⟨x, p⟩, hopen, hp⟩ := bind_eq_some_iff.mp hmsg
  exact ⟨x, p, msg, hopen, hp⟩

theorem Succeeds.size_pos (h : c.Succeeds n stream) (hlawful : c.Lawful)
    (htakes : c.Takes n stream taken rest)
    (hm : c.firstMessage (c.nextHandle taken) (n + taken.length) rest = some (m, rest')) :
    0 < c.size m := by
  obtain ⟨m₀, -, hle, rfl, -⟩ := firstMessage_eq_some hm
  obtain ⟨x, p, -, hopen, -⟩ := outcome_isSome
    (h.outcome _ _ (htakes.snoc hm) _ (mem_append_right _ (mem_singleton_self _)))
  have hlong : 4 < (rest.take (c.size m₀)).length := hlawful.long _ _ hopen
  rw [length_take_of_le hle] at hlong
  exact Nat.zero_lt_of_lt hlong

theorem Takes.prefix_of_last (h : c.Takes n stream taken rest)
    (hlast : c.firstMessage (c.nextHandle taken) (n + taken.length) rest = none)
    (h' : c.Takes n stream taken' rest') : taken' <+: taken := by
  induction h' with
  | nil => exact nil_prefix
  | @snoc taken₁ rest₁ m rest₂ h₁ hm ih =>
    rcases h.prefix_or (h₁.snoc hm) with hpre | hpre
    · have hle := hpre.length_le
      have hge := ih.length_le
      rw [length_append, length_singleton] at hle
      by_cases heq : taken₁.length = taken.length
      · obtain ⟨rfl, rfl⟩ := h₁.unique h heq
        rw [hlast] at hm
        cases hm
      · have hlen : taken.length = (taken₁ ++ [m]).length := by
          rw [length_append, length_singleton]
          omega
        rw [hpre.eq_of_length hlen]
    · exact hpre

end ReadSetup

end Osns
