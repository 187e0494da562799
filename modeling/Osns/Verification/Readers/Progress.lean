import Mathlib.Data.Fintype.Basic
import Osns.Verification.Readers.Delivery

/-! Runs in which the threads do not get in each other's way keep all invariants, and they do not stop before
everything is delivered that has arrived as a whole. -/

namespace Osns

open List Option Threads ReadState

variable {ι σ : Type} {c : ReadSetup σ} {n size : ℕ} {stream : Bytes} {s : ReadState ι σ} {i : ι}

section Orderly

/-- When a thread may take its next step: a message is not taken while received bytes have not been counted,
the flag is not unset while another thread has it, and payloads are processed in the order of the
messages. -/
def ReaderPc.Steady (s : ReadState ι σ) : ReaderPc σ → Prop
  | .announced _ => s.arriving = none
  | .left _ => s.flag = none
  | .delivering ticket _ => ∀ j, ∀ t ∈ (s.reader j).bind ReaderPc.ticket, ticket ≤ t
  | _ => True

def Orderly (s : ReadState ι σ) : ReadAction ι → Prop
  | .advance i => ∀ pc ∈ s.reader i, pc.Steady s
  | _ => True

instance ReaderPc.decidableSteady [Fintype ι] [DecidableEq ι] (s : ReadState ι σ) :
    DecidablePred (ReaderPc.Steady s)
  | .announced _ => inferInstanceAs (Decidable (s.arriving = none))
  | .left _ => inferInstanceAs (Decidable (s.flag = none))
  | .delivering ticket _ =>
    inferInstanceAs (Decidable (∀ j, ∀ t ∈ (s.reader j).bind ReaderPc.ticket, ticket ≤ t))
  | .asking | .locking _ | .checking _ | .passed _ | .counted _ | .entered _ | .refused _ | .leaving _
  | .waiting _ | .taken _ | .enabled _ | .unset _ | .opening _ | .opened _ _ | .changing =>
    inferInstanceAs (Decidable True)

instance decidableOrderly [Fintype ι] [DecidableEq ι] (s : ReadState ι σ) : DecidablePred (Orderly s)
  | .advance i => inferInstanceAs (Decidable (∀ pc ∈ s.reader i, pc.Steady s))
  | .recv _ | .copy | .call _ | .get _ _ => inferInstanceAs (Decidable True)

variable {s' : ReadState ι σ} {a : ReadAction ι}

theorem Orderly.keepsFlag (h : Orderly s a) : KeepsFlag s a := by
  cases a with
  | advance i =>
    rintro ⟨m, hi⟩
    exact h _ hi
  | _ => exact True.intro

theorem Orderly.keepsBytes (h : Orderly s a) : KeepsBytes s a := by
  cases a with
  | advance i =>
    rintro ⟨m, hi⟩
    exact h _ hi
  | _ => exact True.intro

theorem Orderly.keepsOrder (h : Orderly s a) : KeepsOrder s a := by
  cases a with
  | advance i =>
    intro ticket p hi j pc hj t ht
    have hlow : ∀ j, ∀ t ∈ (s.reader j).bind ReaderPc.ticket, ticket ≤ t := h _ hi
    exact hlow j t (by rw [hj]; exact ht)
  | _ => exact True.intro

/-! ## All invariants -/

structure Intact (c : ReadSetup σ) (n : ℕ) (stream : Bytes) (size : ℕ) (s : ReadState ι σ) : Prop where
  excluded : Excluded s
  attended : Attended s
  handled : Handled c s
  streamed : Streamed c n stream s
  processed : Processed c n s
  buffer : s.buffer.length = size

variable [DecidableEq ι]

theorem length_takeMessage {m : PendingMessage σ} (hbound : s.pos ≤ s.buffer.length)
    (hsize : c.size m ≤ s.pos) : (s.takeMessage c i m).buffer.length = s.buffer.length := by
  simp only [ReadState.takeMessage, ReadState.move]
  split
  · rfl
  · rw [length_append, length_drop, length_drop, length_take_of_le hbound]
    omega

theorem buffer_length_step (h : Streamed c n stream s) (hstep : ReadStep c s a s') :
    s'.buffer.length = s.buffer.length := by
  cases hstep with
  | recv _ _ _ hstore => exact Buffer.length_of_store hstore
  | take _ hsize => exact length_takeMessage (Nat.le_trans (Nat.le_add_right _ _) h.bound) hsize
  | _ => rfl

/-- Each invariant is kept with the help of those in front of it. -/
theorem Intact.step (h : Intact c n stream size s) (hlawful : c.Lawful) (horderly : Orderly s a)
    (hstep : readStep c s a = some s') : Intact c n stream size s' := by
  have hstep := readStep_sound hstep
  exact
    { excluded := h.excluded.step horderly.keepsFlag hstep
      attended := h.attended.step h.excluded hstep
      handled := h.handled.step hstep
      streamed := h.streamed.step h.excluded h.handled hlawful horderly.keepsBytes hstep
      processed := h.processed.step h.streamed horderly.keepsOrder hstep
      buffer := (buffer_length_step h.streamed hstep).trans h.buffer }

end Orderly

/-! ## When nothing more can be done -/

section Idle

variable [DecidableEq ι]

def Idle (c : ReadSetup σ) (s : ReadState ι σ) : Prop := ∀ a, Orderly s a → readStep c s a = none

def ReaderPc.ready : ReaderPc σ → Bool
  | checking _ | passed _ | counted _ | entered _ | refused _ | leaving _ | taken _ | enabled _ | unset _
  | opened _ _ => true
  | _ => false

variable {pc : ReaderPc σ}

theorem advance_isSome_of_ready (hi : s.reader i = some pc) (hready : pc.ready) :
    (s.advance c i).isSome := by
  cases pc with
  | checking h =>
    simp only [advance, hi]
    split <;> rfl
  | passed _ | counted _ | entered _ | refused _ | leaving _ | taken _ | enabled _ | unset _ | opened _ _ =>
    simp [advance, hi]
  | _ => cases hready

omit [DecidableEq ι] in
theorem ReaderPc.steady_of_ready (hready : pc.ready) : pc.Steady s := by
  cases pc with
  | announced _ | left _ | delivering _ _ => cases hready
  | _ => exact True.intro

theorem ReaderPc.ready_of_flagged (h : pc.flagged) : pc.ready := by
  cases pc with
  | checking _ | passed _ | counted _ | entered _ | refused _ => rfl
  | _ => cases h

namespace Idle

theorem advance (h : Idle c s) (hi : s.reader i = some pc) (hsteady : pc.Steady s) :
    s.advance c i = none := by
  refine h (.advance i) fun pc' hpc' => ?_
  rw [hi] at hpc'
  cases hpc'
  exact hsteady

theorem not_ready (h : Idle c s) (hi : s.reader i = some pc) : ¬ pc.ready := by
  intro hready
  have hsome := advance_isSome_of_ready (c := c) hi hready
  rw [h.advance hi (ReaderPc.steady_of_ready hready)] at hsome
  cases hsome

theorem flag_eq_none (h : Idle c s) (hk : Excluded s) : s.flag = none := by
  cases hflag : s.flag with
  | none => rfl
  | some j =>
    obtain ⟨pc, hj, hflagged⟩ := (any_eq_true _ _).mp ((hk.flag j).mp hflag)
    exact absurd (ReaderPc.ready_of_flagged hflagged) (h.not_ready hj)

theorem arriving_eq_none (h : Idle c s) : s.arriving = none :=
  map_eq_none_iff.mp (h .copy True.intro)

section

variable (h : Idle c s) (hk : Streamed c n stream s)

include h hk

theorem incoming :
    s.incoming = [] ∨ s.pos = s.buffer.length := by
  by_contra hmore
  obtain ⟨hne, hpos⟩ := not_or.mp hmore
  have hlen : 1 ≤ s.incoming.length := length_pos_iff.mpr hne
  have hbound := Nat.le_trans (Nat.le_add_right _ _) hk.bound
  have hnone : s.recv 1 = none := h (.recv 1) True.intro
  rw [recv, if_pos ⟨h.arriving_eq_none, Nat.one_pos, hlen⟩, map_eq_none_iff] at hnone
  have hsome : (Buffer.store s.buffer s.pos (s.incoming.take 1)).isSome := by
    refine Buffer.store_isSome ?_
    rw [length_take_of_le hlen]
    omega
  rw [hnone] at hsome
  cases hsome

theorem unread_eq (hroom : s.pos < s.buffer.length) :
    s.unread = s.rd := by
  have hincoming : s.incoming = [] := by
    rcases h.incoming hk with hnil | hfull
    · exact hnil
    · omega
  rw [unread, arrived, h.arriving_eq_none, hincoming, getD_none,
    take_zero, append_nil, append_nil, rd]

theorem length_unread (hroom : s.pos < s.buffer.length) :
    s.unread.length = s.pos := by
  rw [h.unread_eq hk hroom, rd, length_take_of_le (Nat.le_of_lt hroom)]

end

theorem waiting (h : Idle c s) (hk : Intact c n stream size s) (hlawful : c.Lawful)
    (hsucceeds : c.Succeeds n stream) {x : σ} (hi : s.reader i = some (.waiting x)) :
    s.pos < c.decryptor.cipherHeadersize := by
  by_contra hle
  have hle := Nat.le_of_not_lt hle
  have hbound := Nat.le_trans (Nat.le_add_right _ _) hk.streamed.bound
  have hnumber : s.sequenceNumber = n + s.taken.length := hk.streamed.number_of_waiting hk.excluded hi
  have hrd : c.decryptor.cipherHeadersize ≤ s.rd.length := by
    rw [ReadState.rd, length_take_of_le hbound]
    exact hle
  have hunread : s.unread = s.rd ++ (s.arrived ++ s.incoming) := append_assoc ..
  have hlen : c.decryptor.cipherHeadersize ≤ s.unread.length := by
    rw [hunread, length_append]
    exact Nat.le_add_right_of_le hrd
  -- the header of all that is unread is the one in the buffer
  have hsome := hsucceeds.header _ _ hk.streamed.taken hlen
  rw [hunread, hlawful.header _ _ _ _ hrd, isSome_map, ← hnumber, ← hk.handled.alike hi] at hsome
  have hnone := h.advance hi True.intro
  simp only [ReadState.advance, hi, if_pos hle, map_eq_none_iff] at hnone
  rw [hnone] at hsome
  cases hsome

variable {m : PendingMessage σ}

theorem announced (h : Idle c s) (hi : s.reader i = some (.announced m)) : s.pos < c.size m := by
  by_contra hle
  have hnone := h.advance hi h.arriving_eq_none
  simp only [ReadState.advance, hi, if_pos (Nat.le_of_not_lt hle)] at hnone
  cases hnone

section

variable (h : Idle c s) (hk : Intact c n stream size s) (hsucceeds : c.Succeeds n stream)

include h hk hsucceeds

theorem not_opening (hi : s.reader i = some (.opening m)) : False := by
  obtain ⟨x, p, -, hopen, -⟩ := ReadSetup.outcome_isSome
    (hsucceeds.outcome _ _ hk.streamed.taken m (hk.processed.unopened i _ hi m rfl))
  have hnone := h.advance hi True.intro
  simp only [ReadState.advance, hi, hopen, map_some] at hnone
  cases hnone

theorem not_delivering {p : Packet}
    (hi : s.reader i = some (.delivering (n + s.delivered.length) p)) : False := by
  obtain ⟨m, hm, -, x, hopen⟩ := hk.processed.opened i _ hi _ p rfl
  obtain ⟨x', p', msg, hopen', hmsg⟩ := ReadSetup.outcome_isSome
    (hsucceeds.outcome _ _ hk.streamed.taken m hm)
  rw [hopen] at hopen'
  cases hopen'
  have hlow : (ReaderPc.delivering (n + s.delivered.length) p).Steady s := by
    intro j t ht
    obtain ⟨pc, hj, hpc⟩ := bind_eq_some_iff.mp ht
    exact hk.processed.late j pc hj t hpc
  have hnone := h.advance hi hlow
  simp only [ReadState.advance, hi, hmsg, map_some] at hnone
  cases hnone

theorem delivered :
    s.delivered.length = s.taken.length := by
  by_contra hne
  have hlt := Nat.lt_of_le_of_ne hk.processed.length_le hne
  obtain ⟨i, pc, hi, hticket⟩ := hk.processed.held s.delivered.length (Nat.le_refl _) hlt
  cases pc with
  | taken _ | enabled _ | unset _ | opened _ _ => exact h.not_ready hi rfl
  | left m =>
    have hnone := h.advance hi (h.flag_eq_none hk.excluded)
    simp only [ReadState.advance, hi] at hnone
    cases hnone
  | opening m => exact h.not_opening hk hsucceeds hi
  | delivering t p =>
    cases hticket
    exact h.not_delivering hk hsucceeds hi
  | _ => cases hticket

theorem cases (hi : s.reader i = some pc) : pc = .asking ∨ (∃ x, pc = .waiting x) ∨ (∃ m, pc = .announced m) ∨
      pc = .changing := by
  cases pc with
  | asking => exact .inl rfl
  | waiting x => exact .inr (.inl ⟨x, rfl⟩)
  | announced m => exact .inr (.inr (.inl ⟨m, rfl⟩))
  | changing => exact .inr (.inr (.inr rfl))
  | locking x =>
    have hnone := h.advance hi True.intro
    simp only [ReadState.advance, hi, if_pos (h.flag_eq_none hk.excluded)] at hnone
    cases hnone
  | left m =>
    have hnone := h.advance hi (h.flag_eq_none hk.excluded)
    simp only [ReadState.advance, hi] at hnone
    cases hnone
  | opening m => exact (h.not_opening hk hsucceeds hi).elim
  | delivering t p =>
    have hlate := hk.processed.late i _ hi t rfl
    have hlt := hk.processed.ticket_lt hk.streamed i _ hi t rfl
    rw [h.delivered hk hsucceeds] at hlate
    omega
  | _ => exact absurd rfl (h.not_ready hi)

end

theorem asking (h : Idle c s) (hk : Handled c s) (hmax : c.maxCount ≤ 1)
    (hi : s.reader i = some .asking) : Any s.reader fun _ pc => pc.holds := by
  have hcreate : s.getDecryptor c i none = none := h (.get i none) True.intro
  simp only [getDecryptor, hi, assumedCryptoactor, map_eq_none_iff, ite_eq_right_iff] at hcreate
  have hroom : ¬ (c.maxCount = 0 ∨ s.count < c.maxCount) := fun hroom => by cases hcreate hroom
  rcases hk with ⟨-, hsingle⟩ | ⟨hmany, -⟩
  · rcases hsingle.count.mp (by omega) with hany | hne
    · exact hany
    · have hget : s.getDecryptor c i (some 0) = none := h (.get i (some 0)) True.intro
      simp only [getDecryptor, hi, assumedCryptoactor, map_eq_none_iff,
        getElem?_eq_none_iff] at hget
      exact absurd (eq_nil_of_length_eq_zero (Nat.le_zero.mp hget)) hne
  · omega

theorem pos_eq_zero [Nonempty ι] (h : Idle c s) (hk : Attended s) (hnone : ∀ i, s.reader i = none) :
    s.pos = 0 := by
  by_contra hpos
  rcases hk (Nat.pos_of_ne_zero hpos) with hcalls | hany
  · obtain ⟨i⟩ := ‹Nonempty ι›
    have hcall : s.call i = none := h (.call i) True.intro
    rw [call, if_pos ⟨by rw [hnone]; rfl, hcalls⟩] at hcall
    cases hcall
  · exact not_any_of_none hnone hany

theorem firstMessage_eq_none [Nonempty ι] (h : Idle c s) (hk : Intact c n stream size s)
    (hlawful : c.Lawful) (hsucceeds : c.Succeeds n stream) (hmax : c.maxCount ≤ 1)
    (hheader : c.decryptor.cipherHeadersize ≤ size) (hlarge : c.env.maxPacketSize ≤ size)
    (hchanging : ∀ i, s.reader i ≠ some .changing) :
    c.firstMessage (c.nextHandle s.taken) (n + s.taken.length) s.unread = none := by
  cases hfirst : c.firstMessage (c.nextHandle s.taken) (n + s.taken.length) s.unread with
  | none => rfl
  | some r =>
    exfalso
    obtain ⟨m, rest⟩ := r
    have hsize := hsucceeds.size_pos hlawful hk.streamed.taken hfirst
    have hheaderlen := (ite_none_right_eq_some.mp hfirst).1
    obtain ⟨m₀, hm₀, hle, rfl, -⟩ := ReadSetup.firstMessage_eq_some hfirst
    change 0 < c.size m₀ at hsize
    have hsmall := ReadSetup.size_of_readHeader hm₀
    have hbuffer := hk.buffer
    -- a thread that waits for bytes does so in vain
    have hwaiting : ∀ i x, s.reader i ≠ some (.waiting x) := by
      intro i x hi
      have hpos := h.waiting hk hlawful hsucceeds hi
      rw [h.length_unread hk.streamed (by omega)] at hheaderlen
      omega
    have hannounced : ∀ i m, s.reader i ≠ some (.announced m) := by
      intro i m hi
      have hpos := h.announced hi
      obtain ⟨-, hticket, rd, more, hrd, hrdlen, hm⟩ := hk.streamed.header i _ hi m rfl
      have hsmall' := ReadSetup.size_of_readHeader hm
      rw [h.length_unread hk.streamed (by omega)] at hle
      have hall := hlawful.header (c.nextHandle s.taken) m.ticket rd more hrdlen
      rw [← hrd, hm, hticket, hm₀, map_some, some.injEq] at hall
      rw [hall] at hle
      change c.size m ≤ s.pos at hle
      omega
    have hasking : All s.reader fun _ pc => pc = .asking := by
      intro i pc hi
      rcases h.cases hk hsucceeds hi with rfl | ⟨x, rfl⟩ | ⟨m, rfl⟩ | rfl
      · rfl
      · exact absurd hi (hwaiting i x)
      · exact absurd hi (hannounced i m)
      · exact absurd hi (hchanging i)
    have hnone : ∀ i, s.reader i = none := by
      intro i
      cases hi : s.reader i with
      | none => rfl
      | some pc =>
        rw [hasking i pc hi] at hi
        obtain ⟨j, pc', hj, hholds⟩ := h.asking hk.handled hmax hi
        rw [hasking j pc' hj] at hholds
        cases hholds
    have hpos := h.pos_eq_zero hk.attended hnone
    rw [h.length_unread hk.streamed (by omega)] at hle
    omega

end Idle

end Idle

end Osns
