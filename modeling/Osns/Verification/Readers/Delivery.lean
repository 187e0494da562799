import Osns.Verification.Readers.Stream

/-! The payloads are those of the messages that have been taken, in their order, as long as no thread
processes one before those in front of it. -/

namespace Osns

open List Option Threads

section Delivery

variable {ι σ : Type}

namespace ReaderPc

def packet : ReaderPc σ → Option (ℕ × Packet)
  | opened ticket p | delivering ticket p => some (ticket, p)
  | _ => none

theorem ticket_cases {pc : ReaderPc σ} {t : ℕ} (h : pc.ticket = some t) :
    (∃ m, pc.unopened = some m ∧ m.ticket = t) ∨ ∃ p, pc.packet = some (t, p) := by
  cases pc with
  | opened ticket p | delivering ticket p =>
    cases h
    exact .inr ⟨p, rfl⟩
  | taken m | enabled m | left m | unset m | opening m =>
    cases h
    exact .inl ⟨m, rfl, rfl⟩
  | _ => cases h

end ReaderPc

/-- Every message that has been taken is with the one thread that has its ticket, until it is processed. -/
structure Processed (c : ReadSetup σ) (n : ℕ) (s : ReadState ι σ) : Prop where
  unopened : All s.reader fun _ pc => ∀ m, pc.unopened = some m → m ∈ s.taken
  opened : All s.reader fun _ pc => ∀ t p, pc.packet = some (t, p) →
    ∃ m ∈ s.taken, m.ticket = t ∧ ∃ h, c.openPending m = some (h, p)
  alone : ∀ t, AtMostOne s.reader fun pc => pc.ticket = some t
  late : All s.reader fun _ pc => ∀ t, pc.ticket = some t → n + s.delivered.length ≤ t
  held : ∀ k, s.delivered.length ≤ k → k < s.taken.length →
    Any s.reader fun _ pc => pc.ticket = some (n + k)
  delivered : (s.taken.take s.delivered.length).map c.outcome = s.delivered.map some

/-- A payload is processed by the thread with the lowest ticket. -/
def KeepsOrder (s : ReadState ι σ) : ReadAction ι → Prop
  | .advance i => ∀ ticket p, s.reader i = some (.delivering ticket p) →
      All s.reader fun _ pc => ∀ t, pc.ticket = some t → ticket ≤ t
  | _ => True

variable {c : ReadSetup σ} {n : ℕ} {stream : Bytes} {s s' : ReadState ι σ} {i : ι}
  {new : Option (ReaderPc σ)} {a : ReadAction ι}

theorem Processed.length_le (h : Processed c n s) : s.delivered.length ≤ s.taken.length := by
  have hlen := congrArg length h.delivered
  rw [length_map, length_map, length_take] at hlen
  omega

variable {m : PendingMessage σ}

theorem ReadSetup.Takes.ticket_of_mem {taken : List (PendingMessage σ)} {rest : Bytes}
    (h : c.Takes n stream taken rest) (hm : m ∈ taken) :
    ∃ k < taken.length, taken[k]? = some m ∧ m.ticket = n + k := by
  obtain ⟨k, hk⟩ := mem_iff_getElem?.mp hm
  exact ⟨k, (List.getElem?_eq_some_iff.mp hk).1, hk, h.getElem_ticket hk⟩

theorem Processed.ticket_lt (h : Processed c n s) (hs : Streamed c n stream s) :
    All s.reader fun _ pc => ∀ t, pc.ticket = some t → t < n + s.taken.length := by
  intro i pc hi t ht
  rcases ReaderPc.ticket_cases ht with ⟨m, hm, rfl⟩ | ⟨p, hp⟩
  · obtain ⟨k, hk, -, hticket⟩ := hs.taken.ticket_of_mem (h.unopened i pc hi m hm)
    omega
  · obtain ⟨m, hmem, rfl, -⟩ := h.opened i pc hi t p hp
    obtain ⟨k, hk, -, hticket⟩ := hs.taken.ticket_of_mem hmem
    omega

variable [DecidableEq ι]

section

variable (h : Processed c n s) (hreader : s'.reader = Function.update s.reader i new)
  (htaken : s'.taken = s.taken) (hdelivered : s'.delivered = s.delivered)

include h hreader htaken hdelivered

theorem Processed.keep (hticket : new.bind ReaderPc.ticket = (s.reader i).bind ReaderPc.ticket)
    (hunopened : ∀ m, new.bind ReaderPc.unopened = some m → m ∈ s.taken)
    (hopened : ∀ t p, new.bind ReaderPc.packet = some (t, p) →
      ∃ m ∈ s.taken, m.ticket = t ∧ ∃ h, c.openPending m = some (h, p)) : Processed c n s' := by
  have hold : ∀ {pc t}, new = some pc → pc.ticket = some t →
      ∃ b, s.reader i = some b ∧ b.ticket = some t := by
    intro pc t hnew ht
    rw [hnew, bind_some, ht] at hticket
    exact bind_eq_some_iff.mp hticket.symm
  refine ⟨?_, ?_, ?_, ?_, ?_, ?_⟩
  · rw [hreader, htaken]
    exact h.unopened.update fun pc hnew m hm => hunopened m (by rw [hnew]; exact hm)
  · rw [hreader, htaken]
    exact h.opened.update fun pc hnew t p hp => hopened t p (by rw [hnew]; exact hp)
  · intro t
    rw [hreader]
    exact (h.alone t).update fun pc hnew ht => .inl (hold hnew ht)
  · rw [hreader, hdelivered]
    refine h.late.update fun pc hnew t ht => ?_
    obtain ⟨b, hb, hbt⟩ := hold hnew ht
    exact h.late i b hb t hbt
  · intro k hle hlt
    rw [hdelivered] at hle
    rw [htaken] at hlt
    rw [hreader]
    refine (h.held k hle hlt).update fun pc hi ht => ?_
    rw [hi, bind_some, ht] at hticket
    obtain ⟨b, rfl, hbt⟩ := bind_eq_some_iff.mp hticket
    exact any_update_self hbt
  · rw [htaken, hdelivered]
    exact h.delivered

theorem Processed.quiet (hticket : new.bind ReaderPc.ticket = (s.reader i).bind ReaderPc.ticket)
    (hunopened : ∀ m, new.bind ReaderPc.unopened = some m → (s.reader i).bind ReaderPc.unopened = some m)
    (hopened : ∀ t p, new.bind ReaderPc.packet = some (t, p) →
      (s.reader i).bind ReaderPc.packet = some (t, p)) : Processed c n s' := by
  refine h.keep hreader htaken hdelivered hticket ?_ ?_
  · intro m hm
    obtain ⟨b, hb, hbm⟩ := bind_eq_some_iff.mp (hunopened m hm)
    exact h.unopened i b hb m hbm
  · intro t p hp
    obtain ⟨b, hb, hbp⟩ := bind_eq_some_iff.mp (hopened t p hp)
    exact h.opened i b hb t p hbp

end

theorem Processed.takeMessage (h : Processed c n s) (hs : Streamed c n stream s)
    (hi : s.reader i = some (.announced m)) : Processed c n (s.takeMessage c i m) := by
  obtain ⟨-, hticket, -⟩ := hs.header i _ hi m rfl
  have hlt := h.ticket_lt hs
  have hlen : (s.taken ++ [m.fill (s.buffer.take (c.size m))]).length = s.taken.length + 1 :=
    length_append
  refine ⟨?_, ?_, ?_, ?_, ?_, ?_⟩
  · refine all_update ?_ fun j pc _ hj m' hm' => mem_append_left _ (h.unopened j pc hj m' hm')
    rintro _ hnew m' hm'
    cases hnew
    cases hm'
    exact mem_append_right _ (mem_singleton_self _)
  · refine all_update ?_ fun j pc _ hj t p hp => ?_
    · rintro _ hnew t p hp
      cases hnew
      cases hp
    · obtain ⟨m', hm', hrest⟩ := h.opened j pc hj t p hp
      exact ⟨m', mem_append_left _ hm', hrest⟩
  · refine fun t => (h.alone t).update fun pc hnew ht => .inr fun j b _ hj hb => ?_
    cases hnew
    cases ht
    have := hlt j b hj _ hb
    rw [← hticket] at this
    exact Nat.lt_irrefl _ this
  · refine h.late.update ?_
    rintro _ hnew t ht
    cases hnew
    cases ht
    change n + s.delivered.length ≤ m.ticket
    rw [hticket]
    exact Nat.add_le_add_left h.length_le n
  · intro k hle hk
    change k < (s.taken ++ [_]).length at hk
    rw [hlen] at hk
    by_cases hlast : k = s.taken.length
    · rw [hlast, ← hticket]
      exact any_update_self rfl
    · refine (h.held k hle (by omega)).update fun b hb ht => ?_
      rw [hi] at hb
      cases hb
      cases ht
  · change ((s.taken ++ [_]).take s.delivered.length).map c.outcome = s.delivered.map some
    rw [take_append_of_le_length h.length_le]
    exact h.delivered

section

variable (h : Processed c n s) (hs : Streamed c n stream s)

include h hs

omit [DecidableEq ι] in
theorem Processed.next {ticket : ℕ} {p : Packet} (hi : s.reader i = some (.delivering ticket p))
    (hkeeps : All s.reader fun _ pc => ∀ t, pc.ticket = some t → ticket ≤ t) :
    ticket = n + s.delivered.length ∧ ∃ m, s.taken[s.delivered.length]? = some m ∧
      ∃ h, c.openPending m = some (h, p) := by
  have hlate := h.late i _ hi ticket rfl
  obtain ⟨m, hmem, hticket, hopen⟩ := h.opened i _ hi ticket p rfl
  obtain ⟨k, hk, hm, hk'⟩ := hs.taken.ticket_of_mem hmem
  obtain ⟨j, pc, hj, hjt⟩ := h.held s.delivered.length (Nat.le_refl _) (by omega)
  have hle := hkeeps j pc hj _ hjt
  have heq : k = s.delivered.length := by omega
  subst heq
  exact ⟨by omega, m, hm, hopen⟩

theorem Processed.deliver {ticket : ℕ} {p : Packet} {msg : Message}
    (hi : s.reader i = some (.delivering ticket p)) (hmsg : c.payloadOf p = some msg)
    (hkeeps : All s.reader fun _ pc => ∀ t, pc.ticket = some t → ticket ≤ t) :
    Processed c n (s.deliver c i msg) := by
  obtain ⟨hticket, m, hm, x, hopen⟩ := h.next hs hi hkeeps
  have hlen : (s.delivered ++ [msg]).length = s.delivered.length + 1 := length_append
  have hnew : ∀ {pc : ReaderPc σ}, some (if c.behaviour = Behaviour.kex ∧ msg.payload.type = msgNewkeys
      then ReaderPc.changing else .asking) = some pc →
      pc.ticket = none ∧ pc.unopened = none ∧ pc.packet = none := by
    intro pc hpc
    cases hpc
    split <;> exact ⟨rfl, rfl, rfl⟩
  refine ⟨?_, ?_, ?_, ?_, ?_, ?_⟩
  · refine h.unopened.update fun pc hpc m' hm' => ?_
    rw [(hnew hpc).2.1] at hm'
    cases hm'
  · refine h.opened.update fun pc hpc t p' hp' => ?_
    rw [(hnew hpc).2.2] at hp'
    cases hp'
  · refine fun t => (h.alone t).update fun pc hpc ht => ?_
    rw [(hnew hpc).1] at ht
    cases ht
  · refine all_update ?_ ?_
    · intro pc hpc t ht
      rw [(hnew hpc).1] at ht
      cases ht
    · intro j pc hji hj t ht
      change n + (s.delivered ++ [msg]).length ≤ t
      have hle := h.late j pc hj t ht
      have hne : t ≠ ticket := by
        rintro rfl
        exact hji (h.alone t j i pc _ hj hi ht rfl)
      omega
  · intro k hle hk
    change (s.delivered ++ [msg]).length ≤ k at hle
    refine (h.held k (by omega) hk).update fun b hb ht => ?_
    rw [hi] at hb
    cases hb
    cases ht
    omega
  · change (s.taken.take (s.delivered ++ [msg]).length).map c.outcome = (s.delivered ++ [msg]).map some
    have hout : c.outcome m = some msg := by
      rw [ReadSetup.outcome, hopen, bind_some, hmsg]
    rw [hlen, take_add_one, hm, map_append, h.delivered, map_append, toList_some,
      map_singleton, map_singleton, hout]

/-- A message is handed on by its thread alone. -/
theorem Processed.step (hkeeps : KeepsOrder s a) (hstep : ReadStep c s a s') : Processed c n s' := by
  cases hstep with
  | recv _ _ _ _ | copy _ | ignore _ _ _ => exact { h with }
  | start hi _ _ | get hi _ | create hi _ | lock hi _ | refuse hi _ | pass hi _ _ | count hi | disable hi
  | unlock hi | unlockRefused hi | depart hi | header hi _ _ | enable hi | uncount hi | unset hi
  | preProcess hi | postProcess01 hi =>
    exact h.quiet rfl rfl rfl (by rw [hi]; rfl) (by rw [hi]; exact fun m hm => hm)
      (by rw [hi]; exact fun t p hp => hp)
  | openMessage hi hopen =>
    refine h.keep rfl rfl rfl (by rw [hi]; rfl) nofun ?_
    intro t p hp
    cases hp
    exact ⟨_, h.unopened _ _ hi _ rfl, rfl, _, hopen⟩
  | take hi hsize => exact h.takeMessage hs hi
  | deliver hi hm => exact h.deliver hs hi hm (hkeeps _ _ hi)

end

end Delivery

end Osns
