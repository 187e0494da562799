import Osns.Library.Threads
import Osns.Library.Transition
import Osns.Model.Senders

/-! The list of senders and the two locks, over any steps of any number of threads. -/

namespace Osns

open Function List Threads

/-! ## What a step can do -/

section Steps

variable {ι σ : Type} [DecidableEq ι]

def SenderPc.held : SenderPc σ → Option (SendEncryptor σ)
  | .encrypting e | .encrypted e _ => some e
  | _ => none

theorem SenderPc.held_cases {pc : SenderPc σ} {e : SendEncryptor σ} (h : pc.held = some e) :
    pc = .encrypting e ∨ ∃ bytes, pc = .encrypted e bytes := by
  cases pc with
  | encrypting _ =>
    cases h
    exact .inl rfl
  | encrypted _ bytes =>
    cases h
    exact .inr ⟨bytes, rfl⟩
  | _ => cases h

/-- One rule for every step that `sendStep` can take. -/
inductive SendStep (cipher : SendCipher σ) (limit : ℕ → ℕ) :
    SendState ι σ → SendAction ι → SendState ι σ → Prop
  | submit {s i} (payload kexinit) (hsender : s.sender i = none) (hlist : s.listLock = none) :
      SendStep cipher limit s (.submit i payload kexinit) (s.enqueue i payload kexinit)
  | ask {s i t} (ht : s.sender i = some t) (hpc : t.pc = .queued)
      (hfirst : t.behaviour = .serial → s.senders.head? = some i) :
      SendStep cipher limit s (.advance i) (s.move i t (.asking s.kexctr))
  | take {s i t kexctr n e} (ht : s.sender i = some t) (hpc : t.pc = .asking kexctr)
      (hidle : s.idle[n]? = some e) :
      SendStep cipher limit s (.get i (some n))
        ({ s with idle := s.idle.eraseIdx n }.move i t (.encrypting e))
  | create {s i t kexctr} (ht : s.sender i = some t) (hpc : t.pc = .asking kexctr)
      (hroom : s.maxCount = 0 ∨ s.count < s.maxCount) :
      SendStep cipher limit s (.get i none)
        ({ s with count := s.count + 1 }.move i t
          (.encrypting ⟨kexctr, s.keys, cipher.init s.keys⟩))
  | encrypt {s i t e} (ht : s.sender i = some t) (hpc : t.pc = .encrypting e) :
      SendStep cipher limit s (.advance i) (s.encryptPacket cipher i t e)
  | release {s i t e bytes} (ht : s.sender i = some t) (hpc : t.pc = .encrypted e bytes) :
      SendStep cipher limit s (.advance i) ((s.queueSshEncryptor e).move i t (.released bytes))
  | first {s i t bytes} (ht : s.sender i = some t) (hpc : t.pc = .released bytes)
      (hbehaviour : t.behaviour = .default) (hfirst : s.senders.head? = some i) :
      SendStep cipher limit s (.advance i) (s.move i t (.first bytes))
  | lockSerial {s i t bytes} (ht : s.sender i = some t) (hpc : t.pc = .released bytes)
      (hbehaviour : t.behaviour = .serial) (hflag : s.flagLock = none) :
      SendStep cipher limit s (.advance i) ({ s with flagLock := some i }.move i t (.ready bytes))
  | lock {s i t bytes} (ht : s.sender i = some t) (hpc : t.pc = .first bytes)
      (hflag : s.flagLock = none) :
      SendStep cipher limit s (.advance i) ({ s with flagLock := some i }.move i t (.locked bytes))
  | unlist {s i t bytes} (ht : s.sender i = some t) (hpc : t.pc = .locked bytes)
      (hlist : s.listLock = none) :
      SendStep cipher limit s (.advance i) ((s.removeListElement i).move i t (.ready bytes))
  | start {s i t bytes} (ht : s.sender i = some t) (hpc : t.pc = .ready bytes) :
      SendStep cipher limit s (.advance i)
        ((s.atSocket (.start ⟨t.ticket, bytes⟩)).move i t (.writing bytes))
  | finish {s i t bytes} (ht : s.sender i = some t) (hpc : t.pc = .writing bytes) :
      SendStep cipher limit s (.advance i)
        ((s.atSocket (.finish ⟨t.ticket, bytes⟩)).move i t .written)
  | unlock {s i t} (ht : s.sender i = some t) (hpc : t.pc = .written)
      (hbehaviour : t.behaviour = .default) :
      SendStep cipher limit s (.advance i) ({ s with flagLock := none }.leave i)
  | unlockSerial {s i t} (ht : s.sender i = some t) (hpc : t.pc = .written)
      (hbehaviour : t.behaviour = .serial) :
      SendStep cipher limit s (.advance i) ({ s with flagLock := none }.move i t .unlocked)
  | depart {s i t} (ht : s.sender i = some t) (hpc : t.pc = .unlocked) (hlist : s.listLock = none)
      (htype : t.payload.type ≠ msgNewkeys) :
      SendStep cipher limit s (.advance i) ((s.removeListElement i).leave i)
  | departNewkeys {s i t} (ht : s.sender i = some t) (hpc : t.pc = .unlocked)
      (hlist : s.listLock = none) (htype : t.payload.type = msgNewkeys) :
      SendStep cipher limit s (.advance i)
        ({ s.removeListElement i with listLock := some i }.move i t .removed)
  | empty {s i t} (ht : s.sender i = some t) (hpc : t.pc = .removed) :
      SendStep cipher limit s (.advance i)
        ({ s with idle := [], count := s.count - s.idle.length }.move i t .emptied)
  | clear {s i t} (ht : s.sender i = some t) (hpc : t.pc = .emptied) :
      SendStep cipher limit s (.advance i) ({ s with keys := none }.move i t .cleared)
  | install {s i t} (ht : s.sender i = some t) (hpc : t.pc = .cleared) :
      SendStep cipher limit s (.advance i)
        ({ s with keys := some (s.kexctr + 1), maxCount := limit (s.kexctr + 1) }.move i t
          .installed)
  | switch {s i t} (ht : s.sender i = some t) (hpc : t.pc = .installed) :
      SendStep cipher limit s (.advance i) ({ s with kexctr := s.kexctr + 1 }.move i t .switched)
  | departSwitched {s i t} (ht : s.sender i = some t) (hpc : t.pc = .switched) :
      SendStep cipher limit s (.advance i)
        ({ s with behaviour := if s.kexPhase then .default else s.behaviour,
                  listLock := none }.leave i)
  | departFailed {s i t} (ht : s.sender i = some t) (hpc : t.pc = .failed)
      (hlist : s.listLock = none) :
      SendStep cipher limit s (.advance i) ((s.removeListElement i).leave i)
  | failAsking {s i t kexctr} (ht : s.sender i = some t) (hpc : t.pc = .asking kexctr) :
      SendStep cipher limit s (.fail i) (s.move i t .failed)
  | failHeld {s i t e} (ht : s.sender i = some t) (hheld : t.pc.held = some e) :
      SendStep cipher limit s (.fail i) ((s.queueSshEncryptor e).move i t .failed)
  | failWriting {s i t bytes} (ht : s.sender i = some t) (hpc : t.pc = .writing bytes) :
      SendStep cipher limit s (.fail i) (s.move i t .written)
  | setup {s} (kexPhase) : SendStep cipher limit s (.setup kexPhase) { s with kexPhase }

variable {cipher : SendCipher σ} {limit : ℕ → ℕ} {s s' : SendState ι σ} {i : ι}

theorem advance_sound (h : s.advance cipher limit i = some s') :
    SendStep cipher limit s (.advance i) s' := by
  unfold SendState.advance at h
  cases ht : s.sender i with
  | none => simp [ht] at h
  | some t =>
    simp only [ht] at h
    split at h
    · next hpc hbehaviour =>
      cases h
      exact .ask ht hpc fun hserial => by simp [hbehaviour] at hserial
    · next hpc hbehaviour =>
      split at h
      · next hfirst =>
        cases h
        exact .ask ht hpc fun _ => hfirst
      · cases h
    · cases h
    · next hpc =>
      cases h
      exact .encrypt ht hpc
    · next hpc =>
      cases h
      exact .release ht hpc
    · next hpc hbehaviour =>
      split at h
      · next hfirst =>
        cases h
        exact .first ht hpc hbehaviour hfirst
      · cases h
    · next hpc hbehaviour =>
      split at h
      · next hflag =>
        cases h
        exact .lockSerial ht hpc hbehaviour hflag
      · cases h
    · next hpc =>
      split at h
      · next hflag =>
        cases h
        exact .lock ht hpc hflag
      · cases h
    · next hpc =>
      split at h
      · next hlist =>
        cases h
        exact .unlist ht hpc hlist
      · cases h
    · next hpc =>
      cases h
      exact .start ht hpc
    · next hpc =>
      cases h
      exact .finish ht hpc
    · next hpc hbehaviour =>
      cases h
      exact .unlock ht hpc hbehaviour
    · next hpc hbehaviour =>
      cases h
      exact .unlockSerial ht hpc hbehaviour
    · next hpc =>
      split at h
      · next hlist =>
        split at h
        · next htype =>
          cases h
          exact .departNewkeys ht hpc hlist htype
        · next htype =>
          cases h
          exact .depart ht hpc hlist htype
      · cases h
    · next hpc =>
      cases h
      exact .empty ht hpc
    · next hpc =>
      cases h
      exact .clear ht hpc
    · next hpc =>
      cases h
      exact .install ht hpc
    · next hpc =>
      cases h
      exact .switch ht hpc
    · next hpc =>
      cases h
      exact .departSwitched ht hpc
    · next hpc =>
      split at h
      · next hlist =>
        cases h
        exact .departFailed ht hpc hlist
      · cases h

theorem getEncryptor_sound {choice : Option ℕ} (h : s.getEncryptor cipher i choice = some s') :
    SendStep cipher limit s (.get i choice) s' := by
  unfold SendState.getEncryptor at h
  cases ht : s.sender i with
  | none => simp [ht] at h
  | some t =>
    simp only [ht] at h
    split at h
    · next hpc =>
      obtain ⟨⟨e, idle, count⟩, hactor, rfl⟩ := Option.map_eq_some_iff.mp h
      cases choice with
      | some n =>
        obtain ⟨e, hidle, ⟨⟩⟩ := Option.map_eq_some_iff.mp hactor
        exact .take ht hpc hidle
      | none =>
        obtain ⟨hroom, ⟨⟩⟩ := Option.ite_none_right_eq_some.mp hactor
        exact .create ht hpc hroom
    · cases h

theorem fail_sound (h : s.fail i = some s') : SendStep cipher limit s (.fail i) s' := by
  unfold SendState.fail at h
  cases ht : s.sender i with
  | none => simp [ht] at h
  | some t =>
    simp only [ht] at h
    split at h
    · next hpc =>
      cases h
      exact .failAsking ht hpc
    case h_2 hpc | h_3 hpc =>
      cases h
      exact .failHeld ht (by rw [hpc]; rfl)
    · next hpc =>
      cases h
      exact .failWriting ht hpc
    · cases h

theorem sendStep_sound {a : SendAction ι} (h : sendStep cipher limit s a = some s') :
    SendStep cipher limit s a s' := by
  cases a with
  | submit i payload kexinit =>
    obtain ⟨⟨hsender, hlist⟩, h⟩ := Option.ite_none_right_eq_some.mp h
    cases h
    exact .submit payload kexinit (Option.isNone_iff_eq_none.mp hsender) hlist
  | advance i => exact advance_sound h
  | get i choice => exact getEncryptor_sound h
  | fail i => exact fail_sound h
  | setup kexPhase =>
    cases h
    exact .setup kexPhase

end Steps

/-! ## The list and the locks -/

section Senders

variable {ι σ : Type}

/-- The parts of `_write_ssh_packet` that the list and the locks tell apart. -/
inductive Spot
  | queued
  | sealing
  | first
  | locked
  | sending
  | unlocked
  | resetting
  | failed

variable (t : Sender σ)

@[simp] def SenderPc.spot : SenderPc σ → Spot
  | .queued => .queued
  | .asking _ | .encrypting _ | .encrypted .. | .released _ => .sealing
  | .first _ => .first
  | .locked _ => .locked
  | .ready _ | .writing _ | .written => .sending
  | .unlocked => .unlocked
  | .removed | .emptied | .cleared | .installed | .switched => .resetting
  | .failed => .failed

@[simp] def SenderPc.busy : SenderPc σ → Bool
  | .writing _ => true
  | _ => false

/-- The sender is on the list. With the default callbacks it leaves the list in front of the write,
with the serial ones behind it. -/
def Sender.listed : Bool :=
  match t.pc.spot with
  | .sending => t.behaviour = .serial
  | .resetting => false
  | _ => true

/-- The sender has found itself first on the list, and is still there. -/
def Sender.atFront : Bool :=
  match t.pc.spot with
  | .first | .locked | .unlocked => true
  | .sealing | .sending => t.behaviour = .serial
  | _ => false

def Sender.flagged : Bool :=
  match t.pc.spot with
  | .locked | .sending => true
  | _ => false

def Sender.resetting : Bool :=
  match t.pc.spot with
  | .resetting => true
  | _ => false

def Sender.proper : Bool :=
  match t.pc.spot with
  | .first | .locked => t.behaviour = .default
  | .unlocked | .resetting => t.behaviour = .serial
  | _ => true

/-- The list holds the senders that are to be on it, in the order of their tickets, and the locks
name those who have them. -/
structure Queued (s : SendState ι σ) : Prop where
  nodup : s.senders.Nodup
  mem_iff : ∀ i, i ∈ s.senders ↔ ∃ t, s.sender i = some t ∧ t.listed
  front : ∀ i t, s.sender i = some t → t.atFront → s.senders.head? = some i
  flag : ∀ i t, s.sender i = some t → t.flagged → s.flagLock = some i
  lock : ∀ i t, s.sender i = some t → t.resetting → s.listLock = some i
  sorted : s.senders.Pairwise fun i j =>
    ∀ t u, s.sender i = some t → s.sender j = some u → t.ticket < u.ticket
  ticket_lt : ∀ i t, s.sender i = some t → t.ticket < s.sequenceNumber
  proper : ∀ i t, s.sender i = some t → t.proper

/-- Nobody sends, and nothing has been sent yet. -/
structure Quiet (s : SendState ι σ) : Prop where
  sender : ∀ i, s.sender i = none
  senders : s.senders = []
  flagLock : s.flagLock = none
  listLock : s.listLock = none
  encrypted : s.encrypted = []
  socket : s.socket = []

/-- A connection right behind a key exchange, with keys that are used by so many encryptors. -/
def quietSend (ι σ : Type) (behaviour : SendBehaviour) (keys maxCount : ℕ) : SendState ι σ where
  sender _ := none
  senders := []
  listLock := none
  flagLock := none
  behaviour := behaviour
  sequenceNumber := 0
  kexctr := keys
  keys := some keys
  count := 0
  maxCount := maxCount
  idle := []
  kexPhase := true
  encrypted := []
  socket := []

theorem quiet_quietSend (behaviour : SendBehaviour) (keys maxCount : ℕ) :
    Quiet (quietSend ι σ behaviour keys maxCount) :=
  ⟨fun _ => rfl, rfl, rfl, rfl, rfl, rfl⟩

def countingCipher : SendCipher ℕ where
  init _ := 0
  encrypt n payload := (n + 1, UInt8.ofNat n :: payload.type :: payload.buffer)

theorem Quiet.queued {s : SendState ι σ} (h : Quiet s) : Queued s := by
  have hnone : ∀ {i t}, s.sender i ≠ some t := by
    intro i t
    simp [h.sender i]
  refine ⟨?_, ?_, fun i t ht => absurd ht hnone, fun i t ht => absurd ht hnone,
    fun i t ht => absurd ht hnone, ?_, fun i t ht => absurd ht hnone, fun i t ht => absurd ht hnone⟩
  · rw [h.senders]
    exact nodup_nil
  · intro i
    simp [h.senders, h.sender]
  · rw [h.senders]
    exact List.Pairwise.nil

end Senders

section Invariant

variable {ι σ : Type} {cipher : SendCipher σ} {limit : ℕ → ℕ} {s s' : SendState ι σ} {i : ι}
  {t : Sender σ}

theorem Queued.ticket_lt_of_head (h : Queued s) {j : ι} {u : Sender σ}
    (hhead : s.senders.head? = some i) (ht : s.sender i = some t) (hu : s.sender j = some u)
    (hlisted : u.listed) (hne : j ≠ i) : t.ticket < u.ticket := by
  have hmem := (h.mem_iff j).mpr ⟨u, hu, hlisted⟩
  have hsorted := h.sorted
  cases hl : s.senders with
  | nil => simp [hl] at hhead
  | cons a rest =>
    rw [hl] at hhead hmem hsorted
    cases hhead
    rcases mem_cons.mp hmem with rfl | hmem
    · exact absurd rfl hne
    · exact (pairwise_cons.mp hsorted).1 j hmem t u ht hu

theorem Queued.lockFlag (h : Queued s) (hflag : s.flagLock = none) :
    Queued { s with flagLock := some i } :=
  { h with flag := fun j u hu hu' => by simp [h.flag j u hu hu'] at hflag }

theorem not_locked_of_ne {lock : Option ι} (h : lock = some i) (lock' : Option ι) :
    ∀ j, j ≠ i → lock = some j → lock' = some j := by
  intro j hj hj'
  exact absurd (Option.some.inj (hj'.symm.trans h)) hj

variable [DecidableEq ι]

theorem head?_erase_of_ne {l : List ι} {j : ι} (h : l.head? = some j) (hne : i ≠ j) :
    (l.erase i).head? = some j := by
  cases l with
  | nil => cases h
  | cons a l =>
    cases h
    rw [erase_cons_tail (by simpa using hne.symm)]
    rfl

variable {j : ι} {u : Sender σ} {new : Option (Sender σ)} {payload : Payload} {kexinit : Bool}

theorem sender_self (hsender : s'.sender = update s.sender i new) : s'.sender i = new := by
  rw [hsender, update_self]

theorem sender_cases (hsender : s'.sender = update s.sender i new) (hu : s'.sender j = some u) :
    j = i ∧ new = some u ∨ j ≠ i ∧ s.sender j = some u := by
  rw [hsender] at hu
  by_cases hj : j = i
  · subst hj
    rw [update_self] at hu
    exact .inl ⟨rfl, hu⟩
  · rw [update_of_ne hj] at hu
    exact .inr ⟨hj, hu⟩

theorem enqueue_cases (hu : (s.enqueue i payload kexinit).sender j = some u) :
    j = i ∧ u = ⟨.queued, s.sequenceNumber, payload, (s.enqueue i payload kexinit).behaviour⟩ ∨
      j ≠ i ∧ s.sender j = some u :=
  (sender_cases rfl hu).imp_left fun h => ⟨h.1, (Option.some.inj h.2).symm⟩

section

variable (h : Queued s) (ht : s.sender i = some t) (hsender : s'.sender = update s.sender i new)
  (hnumber : s'.sequenceNumber = s.sequenceNumber)
  (hflag : (∀ j, j ≠ i → s.flagLock = some j → s'.flagLock = some j) ∧
    ∀ u, new = some u → u.flagged → s'.flagLock = some i)
  (hlock : (∀ j, j ≠ i → s.listLock = some j → s'.listLock = some j) ∧
    ∀ u, new = some u → u.resetting → s'.listLock = some i)

include h ht hsender hnumber hflag hlock

/-- A step of one thread: it may leave the list, but does not enter it, and does not touch a lock
that another thread has. -/
theorem Queued.thread
    (hsenders : (s'.senders = s.senders ∧ new.any Sender.listed = t.listed) ∨
      (s'.senders = s.senders.erase i ∧ new.any Sender.listed = false))
    (hnew : ∀ u, new = some u → u.ticket = t.ticket ∧ u.proper)
    (hfront : ∀ u, new = some u → u.atFront → s'.senders.head? = some i) : Queued s' := by
  have hother : ∀ {j}, j ≠ i → s'.sender j = s.sender j := by
    intro j hj
    rw [hsender, update_of_ne hj]
  have hsublist : s'.senders.Sublist s.senders := by
    rcases hsenders with ⟨heq, -⟩ | ⟨heq, -⟩
    · exact heq ▸ Sublist.refl _
    · exact heq ▸ erase_sublist
  -- the tickets of the threads stay as they are
  have hold : ∀ {j u}, s'.sender j = some u → ∃ v, s.sender j = some v ∧ v.ticket = u.ticket := by
    intro j u hu
    rcases sender_cases hsender hu with ⟨rfl, hu⟩ | ⟨-, hu⟩
    · exact ⟨t, ht, (hnew u hu).1.symm⟩
    · exact ⟨u, hu, rfl⟩
  refine ⟨h.nodup.sublist hsublist, ?_, ?_, ?_, ?_, ?_, ?_, ?_⟩
  · intro j
    by_cases hj : j = i
    · subst hj
      rw [sender_self hsender]
      have hnew : (∃ u, new = some u ∧ u.listed = true) ↔ new.any Sender.listed = true := by
        rw [Option.any_eq_true]
      rw [hnew]
      rcases hsenders with ⟨heq, hlisted⟩ | ⟨heq, hlisted⟩
      · rw [heq, h.mem_iff, hlisted]
        simp [ht]
      · rw [heq, hlisted, h.nodup.mem_erase_iff]
        simp
    · rw [hother hj, ← h.mem_iff]
      rcases hsenders with ⟨heq, -⟩ | ⟨heq, -⟩
      · rw [heq]
      · rw [heq, mem_erase_of_ne hj]
  · rw [hsender]
    refine all_update hfront ?_
    intro j u hj hu hu'
    have hhead := h.front j u hu hu'
    rcases hsenders with ⟨heq, -⟩ | ⟨heq, -⟩
    · rw [heq, hhead]
    · rw [heq, head?_erase_of_ne hhead (Ne.symm hj)]
  · rw [hsender]
    exact all_update hflag.2 fun j u hj hu hu' => hflag.1 j hj (h.flag j u hu hu')
  · rw [hsender]
    exact all_update hlock.2 fun j u hj hu hu' => hlock.1 j hj (h.lock j u hu hu')
  · apply (h.sorted.sublist hsublist).imp
    intro j k hlt u v hu hv
    obtain ⟨u', hu', hticket'⟩ := hold hu
    obtain ⟨v', hv', hticket''⟩ := hold hv
    rw [← hticket', ← hticket'']
    exact hlt u' v' hu' hv'
  · intro j u hu
    obtain ⟨u', hu', hticket'⟩ := hold hu
    rw [← hticket', hnumber]
    exact h.ticket_lt j u' hu'
  · rw [hsender]
    exact All.update h.proper fun u hu => (hnew u hu).2

theorem Queued.remove (hsenders : s'.senders = s.senders.erase i)
    (hnew : ∀ u, new = some u → u.ticket = t.ticket ∧ u.proper ∧ u.listed = false ∧
      u.atFront = false) : Queued s' := by
  refine h.thread ht hsender hnumber hflag hlock (.inr ⟨hsenders, ?_⟩) ?_ ?_
  · rw [Option.any_eq_false]
    intro u hu
    simp [(hnew u hu).2.2.1]
  · intro u hu
    exact ⟨(hnew u hu).1, (hnew u hu).2.1⟩
  · intro u hu hfront
    simp [(hnew u hu).2.2.2] at hfront

end

theorem Queued.enqueue (h : Queued s) (hsender : s.sender i = none) (payload : Payload)
    (kexinit : Bool) : Queued (s.enqueue i payload kexinit) := by
  have hnot : i ∉ s.senders := by
    intro hmem
    obtain ⟨t, ht, -⟩ := (h.mem_iff i).mp hmem
    simp [hsender] at ht
  have hother : ∀ {j}, j ≠ i → (s.enqueue i payload kexinit).sender j = s.sender j := by
    intro j hj
    exact update_of_ne hj _ _
  refine ⟨?_, ?_, ?_, ?_, ?_, ?_, ?_, ?_⟩
  · exact (perm_append_singleton _ _).nodup_iff.mpr (nodup_cons.mpr ⟨hnot, h.nodup⟩)
  · intro j
    by_cases hj : j = i
    · subst hj
      exact iff_of_true (mem_append_right _ (mem_singleton_self j)) ⟨_, update_self .., rfl⟩
    · rw [hother hj, ← h.mem_iff]
      simp [SendState.enqueue, hj]
  · refine all_set nofun ?_
    intro j u _ hu hfront
    have hhead := h.front j u hu hfront
    have hne' : s.senders ≠ [] := by
      intro hnil
      simp [hnil] at hhead
    exact (head?_append_of_ne_nil _ hne').trans hhead
  · exact All.set h.flag nofun
  · exact All.set h.lock nofun
  · refine pairwise_append.mpr ⟨?_, pairwise_singleton _ _, ?_⟩
    · apply h.sorted.imp_of_mem
      intro j k hj hk hlt u v hu hv
      have hj' : j ≠ i := fun heq => hnot (heq ▸ hj)
      have hk' : k ≠ i := fun heq => hnot (heq ▸ hk)
      exact hlt u v (hother hj' ▸ hu) (hother hk' ▸ hv)
    · intro j hj k hk u v hu hv
      have hj' : j ≠ i := fun heq => hnot (heq ▸ hj)
      rcases enqueue_cases hv with ⟨-, rfl⟩ | ⟨hk', -⟩
      · exact h.ticket_lt j u (hother hj' ▸ hu)
      · exact absurd (mem_singleton.mp hk) hk'
  · exact all_set (Nat.lt_succ_self _) fun j u _ hu => Nat.lt_succ_of_lt (h.ticket_lt j u hu)
  · exact All.set h.proper rfl

variable {pc : SenderPc σ}

section

variable (h : Queued s) (ht : s.sender i = some t)
  (hsender : s'.sender = update s.sender i (some { t with pc }))
  (hkept : s'.senders = s.senders ∧ s'.sequenceNumber = s.sequenceNumber ∧
    s'.flagLock = s.flagLock ∧ s'.listLock = s.listLock)

include h ht hsender hkept

theorem Queued.onward (hlisted : Sender.listed { t with pc } = t.listed)
    (hproper : Sender.proper { t with pc })
    (hfront : Sender.atFront { t with pc } → s.senders.head? = some i)
    (hflag : Sender.flagged { t with pc } → s.flagLock = some i)
    (hlock : Sender.resetting { t with pc } → s.listLock = some i) :
    Queued s' := by
  obtain ⟨hsenders, hnumber, hflagLock, hlistLock⟩ := hkept
  refine h.thread ht hsender hnumber ?_ ?_ (.inl ⟨hsenders, hlisted⟩) ?_ ?_
  · rw [hflagLock]
    refine ⟨fun _ _ hj => hj, ?_⟩
    rintro u ⟨⟩ hu
    exact hflag hu
  · rw [hlistLock]
    refine ⟨fun _ _ hj => hj, ?_⟩
    rintro u ⟨⟩ hu
    exact hlock hu
  · rintro u ⟨⟩
    exact ⟨rfl, hproper⟩
  · rintro u ⟨⟩ hu
    rw [hsenders]
    exact hfront hu

theorem Queued.sameSpot (hspot : pc.spot = t.pc.spot) : Queued s' := by
  have hproper := h.proper i t ht
  have hfront := h.front i t ht
  have hflag := h.flag i t ht
  have hlock := h.lock i t ht
  unfold Sender.proper at hproper
  unfold Sender.atFront at hfront
  unfold Sender.flagged at hflag
  unfold Sender.resetting at hlock
  rw [← hspot] at hproper hfront hflag hlock
  refine h.onward ht hsender hkept ?_ hproper hfront hflag hlock
  rw [Sender.listed, Sender.listed, hspot]

end

theorem Queued.erase_of_unlisted (h : Queued s) (ht : s.sender i = some t)
    (hlisted : t.listed = false) : s.senders.erase i = s.senders := by
  apply erase_of_not_mem
  intro hmem
  obtain ⟨u, hu, hlisted'⟩ := (h.mem_iff i).mp hmem
  cases ht.symm.trans hu
  simp [hlisted] at hlisted'

attribute [simp] Sender.listed Sender.atFront Sender.flagged Sender.resetting Sender.proper

/-- Senders come at the end of the list and keep their order. -/
theorem Queued.step {a : SendAction ι} (h : Queued s) (hstep : SendStep cipher limit s a s') :
    Queued s' := by
  cases hstep with
  | submit payload kexinit hsender hlist => exact h.enqueue hsender payload kexinit
  | ask ht hpc hfirst =>
    refine h.onward ht rfl ⟨rfl, rfl, rfl, rfl⟩ ?_ rfl (fun hfront => hfirst ?_) nofun nofun
    · simp [hpc]
    · simpa using hfront
  | take ht hpc hidle | create ht hpc hroom | encrypt ht hpc | release ht hpc | start ht hpc
  | finish ht hpc | empty ht hpc | clear ht hpc | install ht hpc | switch ht hpc
  | failWriting ht hpc =>
    exact h.sameSpot ht rfl ⟨rfl, rfl, rfl, rfl⟩ (by rw [hpc]; rfl)
  | first ht hpc hbehaviour hfirst =>
    refine h.onward ht rfl ⟨rfl, rfl, rfl, rfl⟩ ?_ ?_ (fun _ => hfirst) nofun nofun
    · simp [hpc]
    · simp [hbehaviour]
  | lockSerial ht hpc hbehaviour hflag =>
    refine (h.lockFlag hflag).onward ht rfl ⟨rfl, rfl, rfl, rfl⟩ ?_ rfl ?_ (fun _ => rfl) nofun
    · simp [hpc, hbehaviour]
    · exact fun _ => h.front _ _ ht (by simp [hpc, hbehaviour])
  | lock ht hpc hflag =>
    have hproper := h.proper _ _ ht
    refine (h.lockFlag hflag).onward ht rfl ⟨rfl, rfl, rfl, rfl⟩ ?_ ?_ ?_ (fun _ => rfl) nofun
    · simp [hpc]
    · simpa [hpc] using hproper
    · exact fun _ => h.front _ _ ht (by simp [hpc])
  | @unlist i t _ ht hpc hlist =>
    have hflagged := h.flag _ _ ht (by simp [hpc])
    have hproper : t.behaviour = .default := by
      simpa [hpc] using h.proper _ _ ht
    refine h.remove ht rfl rfl ⟨fun _ _ hj => hj, fun _ _ _ => hflagged⟩ ⟨fun _ _ hj => hj, ?_⟩ rfl ?_
    · rintro u ⟨⟩ ⟨⟩
    · rintro u ⟨⟩
      simp [hproper]
  | unlock ht hpc hbehaviour =>
    have hflagged := h.flag _ _ ht (by simp [hpc])
    have herase := h.erase_of_unlisted ht (by simp [hpc, hbehaviour])
    exact h.remove ht rfl rfl ⟨not_locked_of_ne hflagged _, nofun⟩ ⟨fun _ _ hj => hj, nofun⟩
      herase.symm nofun
  | unlockSerial ht hpc hbehaviour =>
    have hflagged := h.flag _ _ ht (by simp [hpc])
    have hfront := h.front _ _ ht (by simp [hpc, hbehaviour])
    refine h.thread ht rfl rfl ⟨not_locked_of_ne hflagged _, ?_⟩ ⟨fun _ _ hj => hj, ?_⟩
      (.inl ⟨rfl, ?_⟩) ?_ fun _ _ _ => hfront
    · rintro u ⟨⟩ ⟨⟩
    · rintro u ⟨⟩ ⟨⟩
    · simp [hpc, hbehaviour]
    · rintro u ⟨⟩
      simp [hbehaviour]
  | depart ht hpc hlist htype | departFailed ht hpc hlist =>
    exact h.remove ht rfl rfl ⟨fun _ _ hj => hj, nofun⟩ ⟨fun _ _ hj => hj, nofun⟩ rfl nofun
  | @departNewkeys i t ht hpc hlist htype =>
    have hproper : t.behaviour = .serial := by
      simpa [hpc] using h.proper _ _ ht
    refine h.remove ht rfl rfl ⟨fun _ _ hj => hj, ?_⟩ ⟨?_, fun _ _ _ => rfl⟩ rfl ?_
    · rintro u ⟨⟩ ⟨⟩
    · intro j _ hj
      simp [hlist] at hj
    · rintro u ⟨⟩
      simp [hproper]
  | departSwitched ht hpc =>
    have hlocked := h.lock _ _ ht (by simp [hpc])
    have herase := h.erase_of_unlisted ht (by simp [hpc])
    exact h.remove ht rfl rfl ⟨fun _ _ hj => hj, nofun⟩ ⟨not_locked_of_ne hlocked _, nofun⟩
      herase.symm nofun
  | failAsking ht hpc =>
    exact h.onward ht rfl ⟨rfl, rfl, rfl, rfl⟩ (by simp [hpc]) rfl nofun nofun nofun
  | failHeld ht hheld =>
    refine h.onward ht rfl ⟨rfl, rfl, rfl, rfl⟩ ?_ rfl nofun nofun nofun
    rcases SenderPc.held_cases hheld with hpc | ⟨bytes, hpc⟩ <;> simp [hpc]
  | setup kexPhase => exact { h with }

/-- Wherever threads fail, one at a time has the flag, as it does while it writes, and one at a time
replaces the keys. -/
theorem flag_and_reset_exclusive (behaviour : SendBehaviour) (keys maxCount : ℕ)
    (as : List (SendAction ι)) :
    Transition.Along (sendStep cipher limit)
      (fun s _ => ∀ i j t u, s.sender i = some t → s.sender j = some u →
        (t.flagged ∧ u.flagged ∨ t.resetting ∧ u.resetting) → i = j)
      (quietSend ι σ behaviour keys maxCount) as := by
  apply Transition.along_of_preserves (I := Queued) _ _ (quiet_quietSend ..).queued
  · exact fun s a s' h hstep => h.step (sendStep_sound hstep)
  · intro s a h i j t u ht hu hboth
    apply Option.some.inj
    rcases hboth with ⟨hi, hj⟩ | ⟨hi, hj⟩
    · exact (h.flag i t ht hi).symm.trans (h.flag j u hu hj)
    · exact (h.lock i t ht hi).symm.trans (h.lock j u hu hj)

end Invariant

/-! ## The list of senders behind calls, however they end -/

variable {ι σ : Type} [DecidableEq ι] {cipher : SendCipher σ} {limit : ℕ → ℕ}

/-- No call is made with the callback for a disconnected connection. -/
def Connected (c : SendConnection ι σ) : ConnectionAction ι → Prop
  | .send (.submit _ _ kexinit) => kexinit = true ∨ c.disconnected = false
  | _ => True

instance (c : SendConnection ι σ) : DecidablePred (Connected c)
  | .send (.submit _ _ kexinit) => inferInstanceAs (Decidable (kexinit = true ∨ c.disconnected = false))
  | .send (.advance _) | .send (.get _ _) | .send (.fail _) | .send (.setup _) | .disconnect | .refuse _ =>
    inferInstanceAs (Decidable True)

theorem Queued.connectionStep {c c' : SendConnection ι σ} {a : ConnectionAction ι} (h : Queued c.state)
    (hconnected : Connected c a) (hstep : connectionStep cipher limit c a = some c') : Queued c'.state := by
  cases a with
  | disconnect =>
    cases hstep
    exact h
  | refuse i =>
    obtain ⟨-, hstep⟩ := Option.ite_none_right_eq_some.mp hstep
    cases hstep
    exact h
  | send a =>
    rw [Osns.connectionStep.eq_def] at hstep
    dsimp only at hstep
    split at hstep
    · next hdisconnected =>
      rcases hconnected with hfalse | hfalse
      · cases hfalse
      · cases hfalse.symm.trans hdisconnected
    · obtain ⟨state, hsend, rfl⟩ := Option.map_eq_some_iff.mp hstep
      exact h.step (sendStep_sound hsend)

/-- A sender that has returned is not in the list, and one whose predecessors have returned is the first. -/
theorem senders_running (cipher : SendCipher σ) (limit : ℕ → ℕ) {s : SendState ι σ} (hquiet : Quiet s)
    (as : List (ConnectionAction ι)) (c : SendConnection ι σ)
    (hconnected : Transition.Along (connectionStep cipher limit) Connected ⟨s, false⟩ as)
    (hrun : Transition.run (connectionStep cipher limit) ⟨s, false⟩ as = some c) :
    (∀ i, c.state.sender i = none → i ∉ c.state.senders) ∧
      ∀ front j rest, c.state.senders = front ++ j :: rest → (∀ i ∈ front, c.state.sender i = none) →
        c.state.senders.head? = some j := by
  have h : Queued c.state :=
    Transition.run_invariant (I := fun c => Queued c.state) (fun _ _ _ h => h.connectionStep)
      hquiet.queued hconnected hrun
  have hlisted : ∀ i ∈ c.state.senders, c.state.sender i ≠ none := by
    intro i hi hnone
    obtain ⟨t, ht, -⟩ := (h.mem_iff i).mp hi
    cases hnone.symm.trans ht
  refine ⟨fun i hnone hi => hlisted i hi hnone, ?_⟩
  intro front j rest hsenders hfront
  cases front with
  | nil =>
    rw [hsenders]
    rfl
  | cons i front =>
    have hi : i ∈ c.state.senders := by
      rw [hsenders]
      exact List.mem_cons_self
    exact absurd (hfront i List.mem_cons_self) (hlisted i hi)

/-- A call that cannot compress its payload, and one that cannot encrypt its packet. -/
theorem senders_running_failed :
    ∃ c, Transition.run (connectionStep countingCipher id) ⟨quietSend ℕ ℕ .default 1 0, false⟩
        [.refuse 0, .send (.submit 0 ⟨5, 0, []⟩ false), .send (.advance 0), .send (.get 0 none),
          .send (.fail 0), .send (.advance 0)] = some c ∧ 0 ∉ c.state.senders := by
  obtain ⟨c, hrun, hnone⟩ := Option.map_eq_some_iff.mp
    (show (Transition.run (connectionStep countingCipher id) ⟨quietSend ℕ ℕ .default 1 0, false⟩
      [.refuse 0, .send (.submit 0 ⟨5, 0, []⟩ false), .send (.advance 0), .send (.get 0 none),
        .send (.fail 0), .send (.advance 0)]).map (fun c => (c.state.sender 0).isNone) =
          some true by decide +kernel)
  refine ⟨c, hrun, ?_⟩
  exact (senders_running countingCipher id (quiet_quietSend _ _ _) _ c (by decide +kernel) hrun).1 0
    (Option.isNone_iff_eq_none.mp hnone)

/-- On a disconnected connection the sender stays in the list, and the next one never becomes the first. -/
theorem disconnected_sender_listed :
    (Transition.run (connectionStep countingCipher id) ⟨quietSend ℕ ℕ .default 1 0, false⟩
        [.disconnect, .send (.submit 0 ⟨5, 0, []⟩ false), .send (.submit 1 ⟨20, 0, []⟩ true)]).map
      (fun c => ((c.state.sender 0).isNone, c.state.senders,
        (connectionStep countingCipher id c (.send (.advance 1))).isNone)) = some (true, [0, 1], true) := by
  decide +kernel

end Osns
