import Osns.Verification.Readers.Exclusion
import Osns.Verification.Readers.Handles

/-! The bytes of the peer stay in order, from the socket through the read buffer to the messages, as long as
no message is taken between the receiving of bytes and their counting. -/

namespace Osns

open List Option Threads ReadState

variable {ι σ : Type} {c : ReadSetup σ} {s : ReadState ι σ} {i : ι} {n : ℕ} {m : PendingMessage σ}

section Bytes

namespace ReadState

/-- The bytes behind those of the buffer that have been received and not been counted. -/
def arrived (s : ReadState ι σ) : Bytes := (s.buffer.drop s.pos).take (s.arriving.getD 0)

def unread (s : ReadState ι σ) : Bytes := s.buffer.take s.pos ++ s.arrived ++ s.incoming

end ReadState

variable {buffer : Bytes}

theorem unread_recv (harriving : s.arriving = none) (hlen : n ≤ s.incoming.length)
    (hstore : Buffer.store s.buffer s.pos (s.incoming.take n) = some buffer) :
    ({ s with buffer, arriving := some n, incoming := s.incoming.drop n } : ReadState ι σ).unread =
      s.unread := by
  obtain ⟨hle, rfl⟩ := Buffer.store_eq_some_iff.mp hstore
  rw [length_take_of_le hlen] at hle ⊢
  have hpos : (s.buffer.take s.pos).length = s.pos := length_take_of_le (by omega)
  have hchunk : (s.incoming.take n).length = n := length_take_of_le hlen
  simp only [unread, arrived, harriving, getD_some, getD_none,
    take_zero, append_nil]
  rw [append_assoc (s.buffer.take s.pos), take_left' hpos, drop_left' hpos,
    take_left' hchunk, append_assoc, take_append_drop]

theorem unread_copy (harriving : s.arriving = some n) :
    ({ s with pos := s.pos + n, arriving := none, calls := s.calls + 1 } : ReadState ι σ).unread =
      s.unread := by
  simp [unread, arrived, harriving, take_add]

variable [DecidableEq ι]

theorem unread_takeMessage (harriving : s.arriving = none) (hbound : s.pos ≤ s.buffer.length)
    (hsize : c.size m ≤ s.pos) :
    s.buffer.take (c.size m) = s.unread.take (c.size m) ∧
      (s.takeMessage c i m).unread = s.unread.drop (c.size m) := by
  have hrd : (s.buffer.take s.pos).length = s.pos := length_take_of_le hbound
  have hunread : s.unread = s.buffer.take s.pos ++ s.incoming := by
    simp [ReadState.unread, ReadState.arrived, harriving]
  constructor
  · rw [hunread, take_append_of_le_length (by omega), take_take, Nat.min_eq_left hsize]
  · rw [hunread, drop_append_of_le_length (by omega)]
    by_cases heq : s.pos = c.size m
    · simp only [ReadState.takeMessage, ReadState.move, ReadState.unread, ReadState.arrived, harriving,
        if_pos heq, getD_none, take_zero, append_nil, nil_append]
      rw [drop_of_length_le (by omega), nil_append]
    · have hrest : ((s.buffer.take s.pos).drop (c.size m)).length = s.pos - c.size m := by
        rw [length_drop, hrd]
      simp only [ReadState.takeMessage, ReadState.move, ReadState.unread, ReadState.arrived, harriving,
        if_neg heq, getD_none, take_zero, append_nil]
      rw [take_left' hrest]

theorem takeMessage_bound (harriving : s.arriving = none) (hbound : s.pos ≤ s.buffer.length) :
    (s.takeMessage c i m).pos + (s.takeMessage c i m).arriving.getD 0 ≤
      (s.takeMessage c i m).buffer.length := by
  by_cases heq : s.pos = c.size m
  · simp only [ReadState.takeMessage, ReadState.move, harriving, if_pos heq, getD_none]
    exact Nat.zero_le _
  · simp only [ReadState.takeMessage, ReadState.move, harriving, if_neg heq, getD_none,
      length_append, length_drop, length_take_of_le hbound]
    omega

end Bytes

/-! ## Messages of the stream -/

section Stream

/-- The messages that have been taken are those at the front of the stream, and a header that has been read
is the one of what is left. -/
structure Streamed (c : ReadSetup σ) (n : ℕ) (stream : Bytes) (s : ReadState ι σ) : Prop where
  bound : s.pos + s.arriving.getD 0 ≤ s.buffer.length
  taken : c.Takes n stream s.taken s.unread
  number : ¬ Any s.reader (fun _ pc => ∃ m, pc = .announced m) → s.sequenceNumber = n + s.taken.length
  header : All s.reader fun _ pc => ∀ m, pc = .announced m →
    s.sequenceNumber = n + s.taken.length + 1 ∧ m.ticket = n + s.taken.length ∧
      ∃ rd more, s.unread = rd ++ more ∧ c.decryptor.cipherHeadersize ≤ rd.length ∧
        c.readHeader (c.nextHandle s.taken) m.ticket rd = some m

/-- No message is taken while received bytes have not been counted. -/
def KeepsBytes (s : ReadState ι σ) : ReadAction ι → Prop
  | .advance i => (∃ m, s.reader i = some (.announced m)) → s.arriving = none
  | _ => True

variable {stream : Bytes} {s' : ReadState ι σ} {new : Option (ReaderPc σ)} {a : ReadAction ι}

theorem Streamed.of_unread (h : Streamed c n stream s) (hreader : s'.reader = s.reader)
    (hbound : s'.pos + s'.arriving.getD 0 ≤ s'.buffer.length) (hunread : s'.unread = s.unread)
    (htaken : s'.taken = s.taken) (hnumber : s'.sequenceNumber = s.sequenceNumber) :
    Streamed c n stream s' := by
  refine ⟨hbound, ?_, ?_, ?_⟩
  · rw [htaken, hunread]
    exact h.taken
  · rw [hreader, htaken, hnumber]
    exact h.number
  · rw [hreader, htaken, hnumber, hunread]
    exact h.header

theorem Excluded.not_announced (h : Excluded s) {pc : ReaderPc σ} (hi : s.reader i = some pc)
    (hpc : pc.exclusive) {j : ι} (hji : j ≠ i) :
    s.reader j ≠ some (.announced m) := by
  intro hj
  exact h.not_inside_of_exclusive hi hpc hji hj rfl

variable [DecidableEq ι]

theorem Streamed.quiet (h : Streamed c n stream s)
    (hreader : s'.reader = Function.update s.reader i new)
    (hbuffer : s'.buffer = s.buffer) (hpos : s'.pos = s.pos) (harriving : s'.arriving = s.arriving)
    (hincoming : s'.incoming = s.incoming) (htaken : s'.taken = s.taken)
    (hnumber : s'.sequenceNumber = s.sequenceNumber) (hold : ∀ m, s.reader i ≠ some (.announced m))
    (hnew : ∀ m, new ≠ some (.announced m)) : Streamed c n stream s' := by
  have hunread : s'.unread = s.unread := by
    simp [unread, arrived, hbuffer, hpos, harriving, hincoming]
  refine ⟨?_, ?_, ?_, ?_⟩
  · rw [hpos, harriving, hbuffer]
    exact h.bound
  · rw [htaken, hunread]
    exact h.taken
  · intro hnone
    rw [hnumber, htaken]
    refine h.number fun hany => hnone ?_
    rw [hreader]
    refine hany.update ?_
    rintro pc hi ⟨m, rfl⟩
    exact absurd hi (hold m)
  · rw [hreader, htaken, hnumber, hunread]
    refine h.header.update ?_
    rintro pc hpc m rfl
    exact absurd hpc (hnew m)

section

variable (h : Streamed c n stream s) (hexcluded : Excluded s)

include h hexcluded

omit [DecidableEq ι] in
theorem Streamed.number_of_waiting {x : σ} (hi : s.reader i = some (.waiting x)) :
    s.sequenceNumber = n + s.taken.length := by
  refine h.number ?_
  rintro ⟨j, _, hj, m', rfl⟩
  by_cases hji : j = i
  · subst hji
    rw [hi] at hj
    cases hj
  · exact hexcluded.not_announced hi rfl hji hj

theorem Streamed.readHeader (hhandled : Handled c s) {x : σ} (hi : s.reader i = some (.waiting x))
    (hsize : c.decryptor.cipherHeadersize ≤ s.pos) (hm : c.readHeader x s.sequenceNumber s.rd = some m) :
    Streamed c n stream
      ({ s with sequenceNumber := s.sequenceNumber + 1 }.move i (.announced m)) := by
  have hnumber := h.number_of_waiting hexcluded hi
  refine ⟨h.bound, h.taken, ?_, ?_⟩
  · intro hnone
    exact absurd (any_update_self ⟨m, rfl⟩) hnone
  · refine all_update ?_ ?_
    · rintro _ hnew m' rfl
      cases hnew
      have hticket := ReadSetup.readHeader_ticket hm
      refine ⟨congrArg (· + 1) hnumber, hticket.trans hnumber, s.rd, s.arrived ++ s.incoming, ?_, ?_, ?_⟩
      · exact append_assoc ..
      · have hbound := h.bound
        rw [rd, length_take_of_le (by omega)]
        exact hsize
      · rw [hticket]
        exact (hhandled.alike hi _ _).symm.trans hm
    · rintro j _ hji hj m' rfl
      exact absurd hj (hexcluded.not_announced hi rfl hji)

theorem Streamed.takeMessage (hlawful : c.Lawful) (hi : s.reader i = some (.announced m))
    (harriving : s.arriving = none) (hsize : c.size m ≤ s.pos) :
    Streamed c n stream (s.takeMessage c i m) := by
  have hbound : s.pos ≤ s.buffer.length := (Nat.le_add_right _ _).trans h.bound
  obtain ⟨htake, hunread⟩ := unread_takeMessage (i := i) harriving hbound hsize
  obtain ⟨hnumber, hticket, rd, more, hrd, hheader, hm⟩ := h.header i _ hi m rfl
  have hlen : s.pos ≤ s.unread.length := by
    rw [unread, append_assoc, length_append, length_take_of_le hbound]
    exact Nat.le_add_right _ _
  -- the header is also the one of all that is unread
  have hfirst : c.firstMessage (c.nextHandle s.taken) (n + s.taken.length) s.unread =
      some (m.fill (s.buffer.take (c.size m)), s.unread.drop (c.size m)) := by
    have hall := hlawful.header (c.nextHandle s.taken) m.ticket rd more hheader
    rw [hm, map_some, ← hrd] at hall
    rw [ReadSetup.firstMessage, if_pos, ← hticket, hall, bind_some, if_pos, htake]
    · rfl
    · exact hsize.trans hlen
    · rw [hrd, length_append]
      exact hheader.trans (Nat.le_add_right _ _)
  have hnone : ∀ j m', (s.takeMessage c i m).reader j ≠ some (.announced m') := by
    intro j m' hj
    by_cases hji : j = i
    · subst hji
      cases (Function.update_self ..).symm.trans hj
    · exact hexcluded.not_announced hi rfl hji ((Function.update_of_ne hji ..).symm.trans hj)
  refine ⟨takeMessage_bound harriving hbound, ?_, ?_, ?_⟩
  · rw [hunread]
    exact h.taken.snoc hfirst
  · intro _
    change s.sequenceNumber = n + (s.taken ++ [_]).length
    rw [hnumber, length_append, length_singleton, Nat.add_assoc]
  · rintro j _ hj m' rfl
    exact absurd hj (hnone j m')

/-- Bytes go from the stream to the buffer, and messages off its front. -/
theorem Streamed.step (hhandled : Handled c s) (hlawful : c.Lawful) (hkeeps : KeepsBytes s a)
    (hstep : ReadStep c s a s') :
    Streamed c n stream s' := by
  cases hstep with
  | recv harriving hpos hlen hstore =>
    refine h.of_unread rfl ?_ (unread_recv harriving hlen hstore) rfl rfl
    obtain ⟨hle, -⟩ := Buffer.store_eq_some_iff.mp hstore
    have hlength := Buffer.length_of_store hstore
    rw [length_take_of_le hlen] at hle
    exact hlength ▸ hle
  | copy harriving =>
    refine h.of_unread rfl ?_ (unread_copy harriving) rfl rfl
    have hbound := h.bound
    rw [harriving] at hbound
    exact hbound
  | ignore hi hcalls hreading => exact h.of_unread rfl h.bound rfl rfl rfl
  | start hi _ _ | get hi _ | create hi _ | lock hi _ | refuse hi _ | pass hi _ _ | count hi | disable hi
  | unlock hi | unlockRefused hi | depart hi | enable hi | uncount hi | unset hi | preProcess hi
  | openMessage hi _ | postProcess01 hi =>
    exact h.quiet rfl rfl rfl rfl rfl rfl rfl (by rw [hi]; simp) (by simp)
  | deliver hi hm =>
    refine h.quiet rfl rfl rfl rfl rfl rfl rfl (by rw [hi]; simp) ?_
    intro m hm
    split at hm <;> cases hm
  | header hi hsize hm => exact h.readHeader hexcluded hhandled hi hsize hm
  | take hi hsize => exact h.takeMessage hexcluded hlawful hi (hkeeps ⟨_, hi⟩) hsize

end

end Stream

end Osns
