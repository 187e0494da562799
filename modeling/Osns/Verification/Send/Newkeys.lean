import Mathlib.Data.Fintype.Basic
import Osns.Verification.Send.Queue

/-! The keys that packets are encrypted with around `SSH_MSG_NEWKEYS`. -/

namespace Osns

open Function List Threads SenderPc Transition

variable {ι σ : Type} {cipher : SendCipher σ} {limit : ℕ → ℕ} {s s' : SendState ι σ} {i j : ι}
  {t u : Sender σ} {new : Option (Sender σ)} {e : SendEncryptor σ}

/-! ## Statement -/

section Statement

def Sender.newkeys (t : Sender σ) : Prop := t.payload.type = msgNewkeys

def EncryptedPacket.newkeys (p : EncryptedPacket) : Prop := p.payload.type = msgNewkeys

instance : DecidablePred EncryptedPacket.newkeys :=
  fun p => inferInstanceAs (Decidable (p.payload.type = msgNewkeys))

def newkeysBefore (packets : List EncryptedPacket) (ticket : ℕ) : ℕ :=
  packets.countP fun p => p.newkeys ∧ p.ticket < ticket

/-- Every packet is encrypted with the keys of the key exchanges that come before it; those of the
first packets have the number `first`. -/
def KeysFollow (first : ℕ) (s : SendState ι σ) : Prop :=
  ∀ p ∈ s.encrypted, p.keys = some (first + newkeysBefore s.encrypted p.ticket)

/-- The sender has left the list and has not installed the new keys. -/
def SenderPc.replacing : SenderPc σ → Bool
  | .removed | .emptied | .cleared => true
  | _ => false

/-- A key exchange is sent while the senders are serial and no other is on its way, its packet is
not given up before it is written, and nobody asks for an encryptor while the keys are replaced. -/
def OrderlySwitch (s : SendState ι σ) : SendAction ι → Prop
  | .submit _ payload kexinit => payload.type = msgNewkeys →
      (kexinit ∨ s.behaviour = .serial) ∧ ∀ j u, s.sender j = some u → ¬ u.newkeys
  | .advance i => ∀ t, s.sender i = some t → t.pc = .queued →
      ∀ j u, s.sender j = some u → u.pc.replacing = false
  | .fail i => ∀ t, s.sender i = some t → t.newkeys → t.pc.busy
  | .get .. | .setup _ => True

instance : DecidablePred (Sender.newkeys (σ := σ)) :=
  fun t => inferInstanceAs (Decidable (t.payload.type = msgNewkeys))

instance (s : SendState ι σ) (first : ℕ) : Decidable (KeysFollow first s) :=
  inferInstanceAs (Decidable (∀ p ∈ s.encrypted, _ = _))

instance [Fintype ι] [DecidableEq σ] (s : SendState ι σ) : DecidablePred (OrderlySwitch s)
  | .submit _ payload kexinit => inferInstanceAs (Decidable (payload.type = msgNewkeys →
      (kexinit ∨ s.behaviour = .serial) ∧ ∀ j, ∀ u ∈ s.sender j, ¬ u.newkeys))
  | .advance i => inferInstanceAs (Decidable (∀ t ∈ s.sender i, t.pc = .queued →
      ∀ j, ∀ u ∈ s.sender j, u.pc.replacing = false))
  | .fail i => inferInstanceAs (Decidable (∀ t ∈ s.sender i, t.newkeys → t.pc.busy))
  | .get .. | .setup _ => inferInstanceAs (Decidable True)

end Statement

/-! ## The sender of the new keys -/

section OneSwitch

variable [DecidableEq ι]

/-- One thread goes on with its call or returns. -/
structure Moves (s s' : SendState ι σ) (i : ι) (t : Sender σ) (new : Option (Sender σ)) : Prop where
  before : s.sender i = some t
  after : s'.sender = update s.sender i new
  same : ∀ u, new = some u → u.ticket = t.ticket ∧ u.payload = t.payload ∧ u.behaviour = t.behaviour

theorem Moves.onward (ht : s.sender i = some t) {pc : SenderPc σ}
    (hsender : s'.sender = update s.sender i (some { t with pc })) :
    Moves s s' i t (some { t with pc }) :=
  ⟨ht, hsender, by rintro u ⟨⟩; exact ⟨rfl, rfl, rfl⟩⟩

theorem Moves.leave (ht : s.sender i = some t)
    (hsender : s'.sender = update s.sender i none) : Moves s s' i t none :=
  ⟨ht, hsender, nofun⟩

variable {payload : Payload} {kexinit : Bool}

theorem Moves.cases (h : Moves s s' i t new) (hu : s'.sender j = some u) :
    j = i ∧ new = some u ∨ j ≠ i ∧ s.sender j = some u :=
  sender_cases h.after hu

theorem Moves.newkeys_iff (h : Moves s s' i t new) (hnew : new = some u) :
    u.newkeys ↔ t.newkeys := by
  rw [Sender.newkeys, (h.same u hnew).2.1, Sender.newkeys]

theorem Moves.origin (h : Moves s s' i t new) (hu : s'.sender j = some u) :
    ∃ v, s.sender j = some v ∧ u.ticket = v.ticket ∧ (u.newkeys → v.newkeys) ∧
      u.behaviour = v.behaviour := by
  rcases h.cases hu with ⟨rfl, hnew⟩ | ⟨-, hu⟩
  · obtain ⟨hticket, -, hbehaviour⟩ := h.same u hnew
    exact ⟨t, h.before, hticket, (h.newkeys_iff hnew).mp, hbehaviour⟩
  · exact ⟨u, hu, rfl, id, rfl⟩

theorem sender_enqueue_of_some (hnone : s.sender i = none) (hu : s.sender j = some u) :
    (s.enqueue i payload kexinit).sender j = some u := by
  have hne : j ≠ i := by
    rintro rfl
    cases hnone.symm.trans hu
  exact (update_of_ne hne _ _).trans hu

/-- At most one key exchange is on its way, and the senders behind it are serial. -/
structure OneSwitch (s : SendState ι σ) : Prop where
  one : ∀ i j t u, s.sender i = some t → s.sender j = some u → t.newkeys → u.newkeys → i = j
  serial : ∀ i t, s.sender i = some t → t.newkeys → t.behaviour = .serial ∧ s.behaviour = .serial
  behind : ∀ i j t u, s.sender i = some t → s.sender j = some u → t.newkeys → j ≠ i →
    t.ticket ≤ u.ticket → u.behaviour = .serial
  reset : ∀ i t, s.sender i = some t → t.resetting → t.newkeys

theorem OneSwitch.moves (h : OneSwitch s) (hmoves : Moves s s' i t new)
    (hbehaviour : s'.behaviour = s.behaviour ∨ t.newkeys ∧ new = none)
    (hreset : ∀ u, new = some u → u.resetting → t.newkeys) : OneSwitch s' := by
  refine ⟨?_, ?_, ?_, ?_⟩
  · rw [hmoves.after]
    exact AtMostOne.update h.one fun u hnew hu' =>
      .inl ⟨t, hmoves.before, (hmoves.newkeys_iff hnew).mp hu'⟩
  · intro j u hu hu'
    obtain ⟨u₀, hu₀, -, hukeys, hsame⟩ := hmoves.origin hu
    obtain ⟨hserial, hall⟩ := h.serial j u₀ hu₀ (hukeys hu')
    refine ⟨hsame.trans hserial, ?_⟩
    rcases hbehaviour with hbehaviour | ⟨ht', hnone⟩
    · exact hbehaviour.trans hall
    · -- the thread that returns was the only one
      obtain rfl := h.one j i u₀ t hu₀ hmoves.before (hukeys hu') ht'
      rcases hmoves.cases hu with ⟨-, hnew⟩ | ⟨hne, -⟩
      · simp [hnone] at hnew
      · exact absurd rfl hne
  · intro j k u v hu hv hu' hne hle
    obtain ⟨u₀, hu₀, huticket, hukeys, -⟩ := hmoves.origin hu
    obtain ⟨v₀, hv₀, hvticket, -, hvbehaviour⟩ := hmoves.origin hv
    rw [huticket, hvticket] at hle
    exact hvbehaviour.trans (h.behind j k u₀ v₀ hu₀ hv₀ (hukeys hu') hne hle)
  · rw [hmoves.after]
    exact All.update h.reset fun u hnew hu' => (hmoves.newkeys_iff hnew).mpr (hreset u hnew hu')

theorem OneSwitch.enqueue (h : OneSwitch s) (hqueued : Queued s) (hnone : s.sender i = none)
    (horderly : OrderlySwitch s (.submit i payload kexinit)) :
    OneSwitch (s.enqueue i payload kexinit) := by
  have hserial : s.behaviour = .serial → (s.enqueue i payload kexinit).behaviour = .serial := by
    intro hserial
    simp [SendState.enqueue, hserial]
  refine ⟨?_, ?_, ?_, ?_⟩
  · refine AtMostOne.update h.one ?_
    rintro u ⟨⟩ hu'
    exact .inr fun k v _ => (horderly hu').2 k v
  · intro j u hu hu'
    rcases enqueue_cases hu with ⟨rfl, rfl⟩ | ⟨-, hu₀⟩
    · have hall : (s.enqueue j payload kexinit).behaviour = .serial := by
        rcases (horderly hu').1 with hkexinit | hall
        · simp [SendState.enqueue, hkexinit]
        · exact hserial hall
      exact ⟨hall, hall⟩
    · obtain ⟨hu', hall⟩ := h.serial j u hu₀ hu'
      exact ⟨hu', hserial hall⟩
  · intro j k u v hu hv hu' hne hle
    rcases enqueue_cases hv with ⟨rfl, rfl⟩ | ⟨hk, hv₀⟩
    · rcases enqueue_cases hu with ⟨rfl, -⟩ | ⟨-, hu₀⟩
      · exact absurd rfl hne
      · exact hserial (h.serial j u hu₀ hu').2
    · rcases enqueue_cases hu with ⟨rfl, rfl⟩ | ⟨-, hu₀⟩
      · exact absurd (hqueued.ticket_lt k v hv₀) (Nat.not_lt.mpr hle)
      · exact h.behind j k u v hu₀ hv₀ hu' hne hle
  · exact All.set h.reset (by rintro ⟨⟩)

/-- No second key exchange is begun before the first one ends. -/
theorem OneSwitch.step {a : SendAction ι} (h : OneSwitch s) (hqueued : Queued s)
    (horderly : OrderlySwitch s a) (hstep : SendStep cipher limit s a s') : OneSwitch s' := by
  cases hstep with
  | submit payload kexinit hsender hlist => exact h.enqueue hqueued hsender horderly
  | ask ht hpc hfirst | take ht hpc hidle | create ht hpc hroom | encrypt ht hpc
  | release ht hpc | first ht hpc hbehaviour hfirst | lockSerial ht hpc hbehaviour hflag
  | lock ht hpc hflag | unlist ht hpc hlist | start ht hpc | finish ht hpc
  | unlockSerial ht hpc hbehaviour | failAsking ht hpc | failHeld ht hheld | failWriting ht hpc =>
    exact h.moves (.onward ht rfl) (.inl rfl) (by rintro u ⟨⟩ ⟨⟩)
  | unlock ht hpc hbehaviour | depart ht hpc hlist htype | departFailed ht hpc hlist =>
    exact h.moves (.leave ht rfl) (.inl rfl) nofun
  | departNewkeys ht hpc hlist htype =>
    exact h.moves (.onward ht rfl) (.inl rfl) fun _ _ _ => htype
  | empty ht hpc | clear ht hpc | install ht hpc | switch ht hpc =>
    have htype := h.reset _ _ ht (by simp [hpc])
    exact h.moves (.onward ht rfl) (.inl rfl) fun _ _ _ => htype
  | departSwitched ht hpc =>
    have htype := h.reset _ _ ht (by simp [hpc])
    exact h.moves (.leave ht rfl) (.inr ⟨htype, rfl⟩) nofun
  | setup kexPhase => exact { h with }

end OneSwitch

/-! ## What a step does to the keys -/

section Effects

@[simp] def SenderPc.unsealed : SenderPc σ → Bool
  | .queued | .asking _ | .encrypting _ => true
  | _ => false

@[simp] def SenderPc.uses : SenderPc σ → Bool
  | .asking _ | .encrypting _ | .encrypted .. => true
  | _ => false

/-- The packet has been encrypted. For a key exchange: the keys are to be replaced. -/
@[simp] def SenderPc.stale : SenderPc σ → Bool
  | .encrypted .. | .released _ | .first _ | .locked _ | .ready _ | .writing _ | .written
  | .unlocked | .removed | .emptied | .cleared => true
  | _ => false

@[simp] def SenderPc.uncounted : SenderPc σ → Bool
  | .installed => true
  | pc => pc.stale

@[simp] def SenderPc.vacated : SenderPc σ → Bool
  | .emptied | .cleared => true
  | _ => false

attribute [simp] held

variable {pc : SenderPc σ}

theorem SenderPc.not_unsealed_of_stale (h : pc.stale) : pc.unsealed = false := by
  cases pc <;> simp_all

theorem SenderPc.uncounted_of_stale (h : pc.stale) : pc.uncounted := by
  cases pc <;> simp_all

theorem SenderPc.stale_of_vacated (h : pc.vacated) : pc.stale ∧ pc.uses = false := by
  cases pc <;> simp_all

theorem SenderPc.uses_of_held (h : pc.held = some e) : pc.uses := by
  rcases held_cases h with rfl | ⟨bytes, rfl⟩ <;> rfl

theorem Sender.listed_of_uses (h : t.pc.uses) : t.listed := by
  cases hpc : t.pc <;> simp_all

theorem Sender.atFront_of_uses (h : t.pc.uses) (hserial : t.behaviour = .serial) : t.atFront := by
  cases hpc : t.pc <;> simp_all

theorem SenderPc.held_of_not_uses (h : pc.uses = false) : pc.held = none := by
  cases pc <;> simp_all

/-- While the keys are to be replaced no other thread comes to an encryptor: it is not the first of
the list, and with the default callbacks it would stand in front of the key exchange. -/
theorem not_stale_of_ask (hqueued : Queued s) (hone : OneSwitch s) (ht : s.sender i = some t)
    (hpc : t.pc = .queued) (hfirst : t.behaviour = .serial → s.senders.head? = some i)
    (horderly : OrderlySwitch s (.advance i)) {j : ι} {u : Sender σ} (hu : s.sender j = some u)
    (hnewkeys : u.newkeys) : u.pc.stale = false := by
  by_contra hstale
  rw [Bool.not_eq_false] at hstale
  have hne : i ≠ j := by
    rintro rfl
    cases ht.symm.trans hu
    simp [hpc] at hstale
  have hlisted : t.listed := by simp [hpc]
  have hreplacing := horderly t ht hpc j u hu
  have hserial := (hone.serial j u hu hnewkeys).1
  have hfront : u.atFront := by
    cases hupc : u.pc <;> simp_all [replacing]
  have hhead := hqueued.front j u hu hfront
  have hlt := hqueued.ticket_lt_of_head hhead hu ht hlisted hne
  have ht' := hfirst (hone.behind j i u t hu ht hnewkeys hne (Nat.le_of_lt hlt))
  exact hne (Option.some.inj (ht'.symm.trans hhead))

theorem queueSshEncryptor_idle {f : SendEncryptor σ}
    (h : f ∈ (s.queueSshEncryptor e).idle) : f ∈ s.idle ∨ some e = some f := by
  unfold SendState.queueSshEncryptor at h
  simp only at h
  split at h
  · exact (mem_append.mp h).imp_right fun h => congrArg some (mem_singleton.mp h).symm
  · exact .inl h

variable [DecidableEq ι]

/-- A step of a thread that does not encrypt. Encryptors go from hand to hand, or are made from the
keys that are installed. -/
structure PlainMove (s s' : SendState ι σ) (i : ι) (t : Sender σ) (new : Option (Sender σ)) : Prop
    extends Moves s s' i t new where
  log : s'.encrypted = s.encrypted
  number : s'.sequenceNumber = s.sequenceNumber
  kexctr : s'.kexctr = s.kexctr
  unsealed : ∀ u, new = some u → u.pc.unsealed → t.pc.unsealed
  switcher : t.newkeys → (new = none → t.pc.uncounted = false) ∧
    ∀ u, new = some u → u.pc.stale = t.pc.stale ∧ u.pc.uncounted = t.pc.uncounted
  keys : s'.keys = s.keys ∨ t.newkeys ∧ t.pc.stale
  idle : ∀ e ∈ s'.idle, e ∈ s.idle ∨ t.pc.held = some e
  held : ∀ u e, new = some u → u.pc.held = some e →
    t.pc.held = some e ∨ t.pc.uses ∧ (e ∈ s.idle ∨ e.keys = s.keys)
  uses : ∀ u, new = some u → u.pc.uses → t.pc.uses ∨
    ∀ j v, s.sender j = some v → v.newkeys → v.pc.stale = false
  vacated : ∀ u, new = some u → u.pc.vacated → t.pc.vacated ∨ s'.idle = []

structure SendState.SameLog (s s' : SendState ι σ) : Prop where
  log : s'.encrypted = s.encrypted
  number : s'.sequenceNumber = s.sequenceNumber
  kexctr : s'.kexctr = s.kexctr

section

variable (ht : s.sender i = some t)

include ht

theorem PlainMove.onward (hsender : s'.sender = update s.sender i (some { t with pc }))
    (hkept : s.SameLog s')
    (hunsealed : pc.unsealed → t.pc.unsealed)
    (hswitcher : t.newkeys → pc.stale = t.pc.stale ∧ pc.uncounted = t.pc.uncounted)
    (hkeys : s'.keys = s.keys ∨ t.newkeys ∧ t.pc.stale)
    (hidle : ∀ e ∈ s'.idle, e ∈ s.idle ∨ t.pc.held = some e)
    (hheld : ∀ e, pc.held = some e → t.pc.held = some e ∨ t.pc.uses ∧ (e ∈ s.idle ∨ e.keys = s.keys))
    (huses : pc.uses → t.pc.uses ∨ ∀ j v, s.sender j = some v → v.newkeys → v.pc.stale = false)
    (hvacated : pc.vacated → t.pc.vacated ∨ s'.idle = []) :
    PlainMove s s' i t (some { t with pc }) := by
  refine ⟨.onward ht hsender, hkept.log, hkept.number, hkept.kexctr, ?_, fun hnewkeys => ⟨nofun, ?_⟩, hkeys,
    hidle, ?_, ?_, ?_⟩
  · rintro u ⟨⟩
    exact hunsealed
  · rintro u ⟨⟩
    exact hswitcher hnewkeys
  · rintro u e ⟨⟩
    exact hheld e
  · rintro u ⟨⟩
    exact huses
  · rintro u ⟨⟩
    exact hvacated

theorem PlainMove.sealed (hsender : s'.sender = update s.sender i (some { t with pc }))
    (hkept : s.SameLog s' ∧ s'.keys = s.keys ∧ s'.idle = s.idle)
    (hbefore : t.pc.stale) (hafter : pc.stale ∧ pc.uses = false ∧ pc.vacated = false) :
    PlainMove s s' i t (some { t with pc }) := by
  obtain ⟨⟨hlog, hnumber, hkexctr⟩, hkeys, hidle⟩ := hkept
  obtain ⟨hstale, huses, hvacated⟩ := hafter
  refine .onward ht hsender ⟨hlog, hnumber, hkexctr⟩ ?_ (fun _ => ?_) (.inl hkeys) ?_ ?_ ?_ ?_
  · rw [not_unsealed_of_stale hstale]
    nofun
  · rw [uncounted_of_stale hstale, uncounted_of_stale hbefore]
    exact ⟨hstale.trans hbefore.symm, rfl⟩
  · rw [hidle]
    exact fun _ => .inl
  · rw [held_of_not_uses huses]
    nofun
  · rw [huses]
    nofun
  · rw [hvacated]
    nofun

theorem PlainMove.failed (hsender : s'.sender = update s.sender i (some { t with pc := .failed }))
    (hkept : s.SameLog s')
    (hkeys : s'.keys = s.keys) (hidle : ∀ e ∈ s'.idle, e ∈ s.idle ∨ t.pc.held = some e)
    (htype : ¬ t.newkeys) :
    PlainMove s s' i t (some { t with pc := .failed }) :=
  .onward ht hsender hkept nofun (fun hnewkeys => absurd hnewkeys htype) (.inl hkeys) hidle nofun nofun
    nofun

theorem PlainMove.leave (hsender : s'.sender = update s.sender i none)
    (hkept : s.SameLog s' ∧ s'.keys = s.keys ∧ s'.idle = s.idle)
    (hswitcher : t.newkeys → t.pc.uncounted = false) : PlainMove s s' i t none := by
  obtain ⟨⟨hlog, hnumber, hkexctr⟩, hkeys, hidle⟩ := hkept
  refine ⟨.leave ht hsender, hlog, hnumber, hkexctr, nofun, ?_, .inl hkeys, ?_, nofun, nofun, nofun⟩
  · exact fun hnewkeys => ⟨fun _ => hswitcher hnewkeys, nofun⟩
  · rw [hidle]
    exact fun _ => .inl

end

theorem PlainMove.ask (hqueued : Queued s) (hone : OneSwitch s) (ht : s.sender i = some t)
    (hpc : t.pc = .queued) (hfirst : t.behaviour = .serial → s.senders.head? = some i)
    (horderly : OrderlySwitch s (.advance i)) :
    PlainMove s (s.move i t (.asking s.kexctr)) i t (some { t with pc := .asking s.kexctr }) :=
  .onward ht rfl ⟨rfl, rfl, rfl⟩ (by simp [hpc]) (by simp [hpc]) (.inl rfl) (fun _ => .inl) nofun
    (fun _ => .inr fun j v hv => not_stale_of_ask hqueued hone ht hpc hfirst horderly hv) nofun

section

variable (ht : s.sender i = some t)

include ht

theorem PlainMove.get {kexctr : ℕ} (hpc : t.pc = .asking kexctr)
    (hsender : s'.sender = update s.sender i (some { t with pc := .encrypting e }))
    (hkept : s.SameLog s')
    (hkeys : s'.keys = s.keys) (hidle : ∀ f ∈ s'.idle, f ∈ s.idle) (he : e ∈ s.idle ∨ e.keys = s.keys) :
    PlainMove s s' i t (some { t with pc := .encrypting e }) := by
  refine .onward ht hsender hkept (by simp [hpc]) (by simp [hpc]) (.inl hkeys)
    (fun f hf => .inl (hidle f hf)) ?_ (by simp [hpc]) nofun
  rintro f ⟨⟩
  exact .inr ⟨by simp [hpc], he⟩

theorem PlainMove.release {bytes : Bytes} (hpc : t.pc = .encrypted e bytes) :
    PlainMove s ((s.queueSshEncryptor e).move i t (.released bytes)) i t
      (some { t with pc := .released bytes }) := by
  refine .onward ht rfl ⟨rfl, rfl, rfl⟩ nofun (by simp [hpc]) (.inl rfl) ?_ nofun nofun nofun
  rw [hpc]
  exact fun f hf => queueSshEncryptor_idle hf

theorem PlainMove.empty (hpc : t.pc = .removed) (count : ℕ) :
    PlainMove s ({ s with idle := [], count }.move i t .emptied) i t
      (some { t with pc := .emptied }) :=
  .onward ht rfl ⟨rfl, rfl, rfl⟩ nofun (by simp [hpc]) (.inl rfl) nofun nofun nofun fun _ => .inr rfl

theorem PlainMove.clear (hpc : t.pc = .emptied) (hnewkeys : t.newkeys) :
    PlainMove s ({ s with keys := none }.move i t .cleared) i t (some { t with pc := .cleared }) :=
  .onward ht rfl ⟨rfl, rfl, rfl⟩ nofun (by simp [hpc]) (.inr ⟨hnewkeys, by simp [hpc]⟩) (fun _ => .inl)
    nofun nofun (by simp [hpc])

end

/-- What a step does to the log, the keys and the encryptors. -/
inductive KeyEffect (cipher : SendCipher σ) (s : SendState ι σ) : SendState ι σ → Prop
  | submit {i : ι} (payload : Payload) (kexinit : Bool) (hsender : s.sender i = none) :
      KeyEffect cipher s (s.enqueue i payload kexinit)
  | encrypt {i : ι} {t : Sender σ} {e : SendEncryptor σ} (ht : s.sender i = some t)
      (hpc : t.pc = .encrypting e) : KeyEffect cipher s (s.encryptPacket cipher i t e)
  | install {i : ι} {t : Sender σ} (n : ℕ) (ht : s.sender i = some t) (hpc : t.pc = .cleared) :
      KeyEffect cipher s ({ s with keys := some (s.kexctr + 1), maxCount := n }.move i t .installed)
  | switch {i : ι} {t : Sender σ} (ht : s.sender i = some t) (hpc : t.pc = .installed) :
      KeyEffect cipher s ({ s with kexctr := s.kexctr + 1 }.move i t .switched)
  | plain {i : ι} {t : Sender σ} {new : Option (Sender σ)} {s' : SendState ι σ}
      (h : PlainMove s s' i t new) : KeyEffect cipher s s'
  | setup (kexPhase : Bool) : KeyEffect cipher s { s with kexPhase }

theorem SendStep.keyEffect {a : SendAction ι} (hqueued : Queued s) (hone : OneSwitch s)
    (horderly : OrderlySwitch s a) (hstep : SendStep cipher limit s a s') :
    KeyEffect cipher s s' := by
  cases hstep with
  | submit payload kexinit hsender hlist => exact .submit payload kexinit hsender
  | encrypt ht hpc => exact .encrypt ht hpc
  | install ht hpc => exact .install _ ht hpc
  | switch ht hpc => exact .switch ht hpc
  | setup kexPhase => exact .setup kexPhase
  | ask ht hpc hfirst => exact .plain (.ask hqueued hone ht hpc hfirst horderly)
  | take ht hpc hidle =>
    exact .plain (.get ht hpc rfl ⟨rfl, rfl, rfl⟩ rfl (fun _ => mem_of_mem_eraseIdx)
      (.inl (mem_of_getElem? hidle)))
  | create ht hpc hroom =>
    exact .plain (.get ht hpc rfl ⟨rfl, rfl, rfl⟩ rfl (fun _ => id) (.inr rfl))
  | release ht hpc => exact .plain (.release ht hpc)
  | first ht hpc hbehaviour hfirst | lockSerial ht hpc hbehaviour hflag | lock ht hpc hflag
  | unlist ht hpc hlist | start ht hpc | finish ht hpc | unlockSerial ht hpc hbehaviour
  | departNewkeys ht hpc hlist htype | failWriting ht hpc =>
    exact .plain (.sealed ht rfl ⟨⟨rfl, rfl, rfl⟩, rfl, rfl⟩ (by simp [hpc]) ⟨rfl, rfl, rfl⟩)
  | unlock ht hpc hbehaviour =>
    refine .plain (.leave ht rfl ⟨⟨rfl, rfl, rfl⟩, rfl, rfl⟩ fun hnewkeys => ?_)
    simp [(hone.serial _ _ ht hnewkeys).1] at hbehaviour
  | depart ht hpc hlist htype =>
    exact .plain (.leave ht rfl ⟨⟨rfl, rfl, rfl⟩, rfl, rfl⟩ fun hnewkeys => absurd hnewkeys htype)
  | empty ht hpc => exact .plain (.empty ht hpc _)
  | clear ht hpc =>
    exact .plain (.clear ht hpc (hone.reset _ _ ht (by simp [hpc])))
  | departSwitched ht hpc | departFailed ht hpc hlist =>
    exact .plain (.leave ht rfl ⟨⟨rfl, rfl, rfl⟩, rfl, rfl⟩ fun _ => by simp [hpc])
  | failAsking ht hpc =>
    refine .plain (.failed ht rfl ⟨rfl, rfl, rfl⟩ rfl (fun _ => .inl) fun hnewkeys => ?_)
    simpa [hpc] using horderly _ ht hnewkeys
  | failHeld ht hheld =>
    refine .plain (.failed ht rfl ⟨rfl, rfl, rfl⟩ rfl ?_ fun hnewkeys => ?_)
    · rw [hheld]
      exact fun f hf => queueSshEncryptor_idle hf
    · have hbusy := horderly _ ht hnewkeys
      rcases held_cases hheld with hpc | ⟨bytes, hpc⟩ <;> simp [hpc] at hbusy

end Effects

/-! ## Invariants -/

section Invariants

variable {first : ℕ}

/-- A key exchange is encrypted behind all packets with a lower ticket and in front of all with a
higher one. -/
structure LogOrder (s : SendState ι σ) : Prop where
  lt : ∀ p ∈ s.encrypted, p.ticket < s.sequenceNumber
  later : ∀ i t, s.sender i = some t → t.pc.unsealed → ∀ p ∈ s.encrypted,
    t.newkeys ∨ p.newkeys → p.ticket < t.ticket

def SendState.switches (s : SendState ι σ) : ℕ := s.encrypted.countP fun p => p.newkeys

/-- No key exchange has been encrypted whose keys are still to be installed. -/
def SendState.Settled (s : SendState ι σ) : Prop :=
  ∀ i t, s.sender i = some t → t.newkeys → t.pc.stale = false

/-- The encryptors have the keys of the key exchanges that have been encrypted. From there to the
new keys the thread of the key exchange is alone, and then no old encryptor is left. -/
structure KeysCurrent (first : ℕ) (s : SendState ι σ) : Prop where
  settled : s.Settled →
    s.keys = some (first + s.switches) ∧ (∀ e ∈ s.idle, e.keys = some (first + s.switches)) ∧
      ∀ i t e, s.sender i = some t → t.pc.held = some e → e.keys = some (first + s.switches)
  alone : ∀ i t, s.sender i = some t → t.newkeys → t.pc.stale →
    ∀ j u, s.sender j = some u → j ≠ i → u.pc.uses = false
  vacated : ∀ i t, s.sender i = some t → t.newkeys → t.pc.vacated → s.idle = []
  uncounted : ∀ i t, s.sender i = some t → t.newkeys → t.pc.uncounted →
    s.kexctr + 1 = first + s.switches
  counted : (∀ i t, s.sender i = some t → t.newkeys → t.pc.uncounted = false) →
    s.kexctr = first + s.switches

theorem KeysCurrent.settled_of_uses (h : KeysCurrent first s) (ht : s.sender i = some t)
    (huses : t.pc.uses) (hstale : t.newkeys → t.pc.stale = false) : s.Settled := by
  intro j u hu hnewkeys
  by_cases hj : j = i
  · subst hj
    cases ht.symm.trans hu
    exact hstale hnewkeys
  · by_contra hu'
    rw [Bool.not_eq_false] at hu'
    cases (h.alone j u hu hnewkeys hu' i t ht (Ne.symm hj)).symm.trans huses

theorem OneSwitch.settled (hone : OneSwitch s) (ht : s.sender i = some t) (hnewkeys : t.newkeys)
    (hstale : t.pc.stale = false) : s.Settled := by
  intro j u hu hunewkeys
  obtain rfl := hone.one j i u t hu ht hunewkeys hnewkeys
  cases ht.symm.trans hu
  exact hstale

variable [DecidableEq ι]

theorem LogOrder.moves (h : LogOrder s) (hmoves : Moves s s' i t new)
    (hlog : s'.encrypted = s.encrypted) (hnumber : s'.sequenceNumber = s.sequenceNumber)
    (hsealed : ∀ u, new = some u → u.pc.unsealed → t.pc.unsealed) : LogOrder s' := by
  refine ⟨?_, ?_⟩
  · rw [hlog, hnumber]
    exact h.lt
  · rw [hlog, hmoves.after]
    refine All.update h.later ?_
    intro u hnew hunsealed p hp hnewkeys
    rw [(hmoves.same u hnew).1]
    rw [hmoves.newkeys_iff hnew] at hnewkeys
    exact h.later _ _ hmoves.before (hsealed u hnew hunsealed) p hp hnewkeys

/-- Serial senders encrypt in the order of the list. -/
theorem LogOrder.step (h : LogOrder s) (hqueued : Queued s) (hone : OneSwitch s)
    (heffect : KeyEffect cipher s s') : LogOrder s' := by
  cases heffect with
  | submit payload kexinit hsender =>
    refine ⟨fun p hp => Nat.lt_succ_of_lt (h.lt p hp), ?_⟩
    exact All.set h.later fun _ p hp _ => h.lt p hp
  | @encrypt i t e ht hpc =>
    have hlater : ∀ {j u}, s.sender j = some u → j ≠ i → u.pc.unsealed →
        u.newkeys ∨ t.newkeys → t.ticket < u.ticket := by
      intro j u hu hne hunsealed hnewkeys
      have hlisted : u.listed := by cases hupc : u.pc <;> simp_all
      cases hbehaviour : t.behaviour with
      | serial =>
        have hhead := hqueued.front i t ht (by simp [hpc, hbehaviour])
        exact hqueued.ticket_lt_of_head hhead ht hu hlisted hne
      | default =>
        -- then the other is the key exchange, and has only serial senders behind it
        have hu' : u.newkeys := by
          refine hnewkeys.resolve_right fun ht' => ?_
          simp [(hone.serial i t ht ht').1] at hbehaviour
        by_contra hle
        simp [hone.behind j i u t hu ht hu' (Ne.symm hne) (Nat.not_lt.mp hle)] at hbehaviour
    refine ⟨?_, ?_⟩
    · exact forall_mem_append.mpr ⟨h.lt, forall_mem_singleton.mpr (hqueued.ticket_lt i t ht)⟩
    · refine all_set (by rintro ⟨⟩) ?_
      intro j u hne hu hunsealed p hp hnewkeys
      rcases mem_append.mp hp with hp | hp
      · exact h.later j u hu hunsealed p hp hnewkeys
      · rw [mem_singleton.mp hp] at hnewkeys ⊢
        exact hlater hu hne hunsealed hnewkeys
  | install _ ht | switch ht =>
    exact h.moves (.onward ht rfl) rfl rfl (by rintro u ⟨⟩ ⟨⟩)
  | plain hplain => exact h.moves hplain.toMoves hplain.log hplain.number hplain.unsealed
  | setup kexPhase => exact ⟨h.lt, h.later⟩

theorem PlainMove.old (h : PlainMove s s' i t new) (hu : s'.sender j = some u) (hnewkeys : u.newkeys) :
    ∃ v, s.sender j = some v ∧ v.newkeys ∧ u.pc.stale = v.pc.stale ∧
      u.pc.uncounted = v.pc.uncounted := by
  rcases h.cases hu with ⟨rfl, hnew⟩ | ⟨-, hu⟩
  · rw [h.newkeys_iff hnew] at hnewkeys
    exact ⟨t, h.before, hnewkeys, (h.switcher hnewkeys).2 u hnew⟩
  · exact ⟨u, hu, hnewkeys, rfl, rfl⟩

theorem PlainMove.still (h : PlainMove s s' i t new)
    (hu : s.sender j = some u) (hnewkeys : u.newkeys) (huncounted : u.pc.uncounted) :
    ∃ v, s'.sender j = some v ∧ v.newkeys ∧ v.pc.stale = u.pc.stale ∧
      v.pc.uncounted = u.pc.uncounted := by
  by_cases hj : j = i
  · subst hj
    cases h.before.symm.trans hu
    cases hnew : new with
    | none => cases ((h.switcher hnewkeys).1 hnew).symm.trans huncounted
    | some v =>
      refine ⟨v, ?_, (h.newkeys_iff hnew).mpr hnewkeys, (h.switcher hnewkeys).2 v hnew⟩
      rw [h.after, update_self, hnew]
  · refine ⟨u, ?_, hnewkeys, rfl, rfl⟩
    rw [h.after, update_of_ne hj]
    exact hu

theorem PlainMove.settled (h : PlainMove s s' i t new) (hsettled : s'.Settled) : s.Settled := by
  intro j u hu hnewkeys
  by_contra hstale
  rw [Bool.not_eq_false] at hstale
  obtain ⟨v, hv, hvnewkeys, hsame, -⟩ := h.still hu hnewkeys (uncounted_of_stale hstale)
  cases (hsettled j v hv hvnewkeys).symm.trans (hsame.trans hstale)

theorem KeysCurrent.plain (h : KeysCurrent first s)
    (hplain : PlainMove s s' i t new) : KeysCurrent first s' := by
  have hswitches : s'.switches = s.switches := by
    rw [SendState.switches, SendState.switches, hplain.log]
  refine ⟨?_, ?_, ?_, ?_, ?_⟩
  · intro hsettled'
    have hsettled := hplain.settled hsettled'
    obtain ⟨hkeys, hidle, hheld⟩ := h.settled hsettled
    rw [hswitches]
    refine ⟨?_, ?_, ?_⟩
    · rcases hplain.keys with hsame | ⟨hnewkeys, hstale⟩
      · exact hsame.trans hkeys
      · cases (hsettled i t hplain.before hnewkeys).symm.trans hstale
    · intro e he
      rcases hplain.idle e he with he | he
      · exact hidle e he
      · exact hheld i t e hplain.before he
    · intro j u e hu he
      rcases hplain.cases hu with ⟨-, hnew⟩ | ⟨-, hu⟩
      · rcases hplain.held u e hnew he with he | ⟨-, he | he⟩
        · exact hheld i t e hplain.before he
        · exact hidle e he
        · exact he.trans hkeys
      · exact hheld j u e hu he
  · intro j u hu hnewkeys hstale k w hw hne
    obtain ⟨v, hv, hvnewkeys, hsame, -⟩ := hplain.old hu hnewkeys
    have hvstale := hsame.symm.trans hstale
    rcases hplain.cases hw with ⟨rfl, hnew⟩ | ⟨-, hw⟩
    · by_contra huses
      rw [Bool.not_eq_false] at huses
      rcases hplain.uses w hnew huses with huses | hnone
      · cases (h.alone j v hv hvnewkeys hvstale k t hplain.before hne).symm.trans huses
      · cases (hnone j v hv hvnewkeys).symm.trans hvstale
    · exact h.alone j v hv hvnewkeys hvstale k w hw hne
  · intro j u hu hnewkeys hvacated
    rw [eq_nil_iff_forall_not_mem]
    intro e he
    rcases hplain.cases hu with ⟨rfl, hnew⟩ | ⟨hne, hu⟩
    · rw [hplain.newkeys_iff hnew] at hnewkeys
      rcases hplain.vacated u hnew hvacated with hvacated | hempty
      · rcases hplain.idle e he with he | he
        · rw [h.vacated j t hplain.before hnewkeys hvacated] at he
          exact not_mem_nil he
        · cases (stale_of_vacated hvacated).2.symm.trans (uses_of_held he)
      · rw [hempty] at he
        exact not_mem_nil he
    · rcases hplain.idle e he with he | he
      · rw [h.vacated j u hu hnewkeys hvacated] at he
        exact not_mem_nil he
      · have hunused := h.alone j u hu hnewkeys (stale_of_vacated hvacated).1 i t
          hplain.before (Ne.symm hne)
        cases hunused.symm.trans (uses_of_held he)
  · intro j u hu hnewkeys huncounted
    obtain ⟨v, hv, hvnewkeys, -, hsame⟩ := hplain.old hu hnewkeys
    rw [hplain.kexctr, hswitches]
    exact h.uncounted j v hv hvnewkeys (hsame ▸ huncounted)
  · intro hnone
    rw [hplain.kexctr, hswitches]
    apply h.counted
    intro j u hu hnewkeys
    by_contra huncounted
    rw [Bool.not_eq_false] at huncounted
    obtain ⟨v, hv, hvnewkeys, -, hsame⟩ := hplain.still hu hnewkeys huncounted
    cases (hnone j v hv hvnewkeys).symm.trans (hsame.trans huncounted)

theorem KeysCurrent.enqueue (h : KeysCurrent first s) (hnone : s.sender i = none)
    (payload : Payload) (kexinit : Bool) : KeysCurrent first (s.enqueue i payload kexinit) := by
  refine ⟨?_, ?_, ?_, ?_, ?_⟩
  · intro hsettled
    obtain ⟨hkeys, hidle, hheld⟩ := h.settled fun j u hu =>
      hsettled j u (sender_enqueue_of_some hnone hu)
    refine ⟨hkeys, hidle, ?_⟩
    exact fun j u e hu => All.set (fun j u => hheld j u e) (by rintro ⟨⟩) j u hu
  · refine all_set nofun ?_
    intro j u _ hu hnewkeys hstale
    exact All.set (h.alone j u hu hnewkeys hstale) fun _ => rfl
  · exact All.set h.vacated nofun
  · exact All.set h.uncounted nofun
  · intro hcounted
    exact h.counted fun j u hu => hcounted j u (sender_enqueue_of_some hnone hu)

theorem encrypted_encryptPacket (cipher : SendCipher σ) (s : SendState ι σ) (i : ι) (t : Sender σ)
    (e : SendEncryptor σ) :
    (s.encryptPacket cipher i t e).encrypted = s.encrypted ++ [t.encryptedBy cipher e] := rfl

theorem switches_encryptPacket (cipher : SendCipher σ) (s : SendState ι σ) (i : ι) (t : Sender σ)
    (e : SendEncryptor σ) :
    (s.encryptPacket cipher i t e).switches = s.switches + if t.newkeys then 1 else 0 := by
  rw [SendState.switches, encrypted_encryptPacket, countP_append, countP_singleton]
  simp only [decide_eq_true_eq]
  rfl

/-- Behind a step of the thread of the key exchange, there is no other. -/
theorem OneSwitch.only {P : ι → Sender σ → Prop} (hone : OneSwitch s)
    (hmoves : Moves s s' i t (some w)) (hnewkeys : t.newkeys) (hnew : P i w) :
    ∀ j u, s'.sender j = some u → u.newkeys → P j u := by
  intro j u hu hunewkeys
  obtain ⟨v, hv, -, hkeys, -⟩ := hmoves.origin hu
  obtain rfl := hone.one j i v t hv hmoves.before (hkeys hunewkeys) hnewkeys
  cases (sender_self hmoves.after).symm.trans hu
  exact hnew

theorem KeysCurrent.encryptNewkeys (h : KeysCurrent first s) (hqueued : Queued s)
    (hone : OneSwitch s) (ht : s.sender i = some t)
    (hpc : t.pc = .encrypting e) (hnewkeys : t.newkeys) :
    KeysCurrent first (s.encryptPacket cipher i t e) := by
  have hmoves : Moves s (s.encryptPacket cipher i t e) i t _ := .onward ht rfl
  have hswitches := switches_encryptPacket cipher s i t e
  rw [if_pos hnewkeys] at hswitches
  have hself : (s.encryptPacket cipher i t e).sender i = some _ := update_self ..
  have hserial := (hone.serial i t ht hnewkeys).1
  have hhead := hqueued.front i t ht (by simp [hpc, hserial])
  refine ⟨?_, ?_, ?_, ?_, ?_⟩
  · intro hsettled
    cases hsettled i _ hself hnewkeys
  · refine hone.only hmoves hnewkeys fun _ => all_set (absurd rfl) ?_
    intro k w hne hw _
    by_contra huses
    rw [Bool.not_eq_false] at huses
    have hlisted := Sender.listed_of_uses huses
    have hlt := hqueued.ticket_lt_of_head hhead ht hw hlisted hne
    have hwserial := hone.behind i k t w ht hw hnewkeys hne (Nat.le_of_lt hlt)
    have hfront := Sender.atFront_of_uses huses hwserial
    exact hne (Option.some.inj ((hqueued.front k w hw hfront).symm.trans hhead))
  · exact hone.only hmoves hnewkeys (by rintro ⟨⟩)
  · intro j u hu hunewkeys _
    have hcounted := h.counted fun k v hv hv' => by
      obtain rfl := hone.one k i v t hv ht hv' hnewkeys
      cases ht.symm.trans hv
      simp [hpc]
    rw [hswitches, ← Nat.add_assoc, ← hcounted]
    rfl
  · intro hcounted
    cases hcounted i _ hself hnewkeys

/-- But for the log, which gets no key exchange, this is a step that does not encrypt. -/
theorem KeysCurrent.encryptOther (h : KeysCurrent first s)
    (ht : s.sender i = some t) (hpc : t.pc = .encrypting e) (hnewkeys : ¬ t.newkeys) :
    KeysCurrent first (s.encryptPacket cipher i t e) := by
  have hswitches := switches_encryptPacket cipher s i t e
  rw [if_neg hnewkeys, Nat.add_zero] at hswitches
  have hsettled := h.settled_of_uses ht (by simp [hpc]) (by simp [hpc])
  obtain ⟨hkeys, -, hheld⟩ := h.settled hsettled
  have he : e.keys = s.keys := (hheld i t e ht (by simp [hpc])).trans hkeys.symm
  have h' : KeysCurrent first { s.encryptPacket cipher i t e with encrypted := s.encrypted } := by
    refine h.plain (.onward ht rfl ⟨rfl, rfl, rfl⟩ nofun (fun h => absurd h hnewkeys) (.inl rfl)
      (fun _ => .inl) ?_ (by simp [hpc]) nofun)
    rintro f ⟨⟩
    exact .inr ⟨by simp [hpc], .inr he⟩
  refine ⟨?_, h'.alone, h'.vacated, ?_, ?_⟩
  · rw [hswitches]
    exact h'.settled
  · rw [hswitches]
    exact h'.uncounted
  · rw [hswitches]
    exact h'.counted

theorem KeysCurrent.install (h : KeysCurrent first s) (hone : OneSwitch s)
    (ht : s.sender i = some t) (hpc : t.pc = .cleared) (n : ℕ) :
    KeysCurrent first
      ({ s with keys := some (s.kexctr + 1), maxCount := n }.move i t .installed) := by
  have hnewkeys := hone.reset i t ht (by simp [hpc])
  have hmoves : Moves s ({ s with keys := some (s.kexctr + 1), maxCount := n }.move i t .installed)
      i t (some { t with pc := .installed }) := .onward ht rfl
  have hcounter := h.uncounted i t ht hnewkeys (by simp [hpc])
  refine ⟨?_, ?_, ?_, ?_, ?_⟩
  · intro _
    refine ⟨congrArg some hcounter, ?_, ?_⟩
    · intro e he
      rw [show _ = s.idle from rfl, h.vacated i t ht hnewkeys (by simp [hpc])] at he
      exact absurd he not_mem_nil
    · intro j u e hu he
      rcases hmoves.cases hu with ⟨rfl, hnew⟩ | ⟨hne, hu⟩
      · cases hnew
        cases he
      · have hunused := h.alone i t ht hnewkeys (by simp [hpc]) j u hu hne
        cases hunused.symm.trans (uses_of_held he)
  · exact hone.only hmoves hnewkeys (by rintro ⟨⟩)
  · exact hone.only hmoves hnewkeys (by rintro ⟨⟩)
  · exact fun _ _ _ _ _ => hcounter
  · intro hcounted
    cases hcounted i _ (update_self ..) hnewkeys

theorem KeysCurrent.switch (h : KeysCurrent first s) (hone : OneSwitch s)
    (ht : s.sender i = some t) (hpc : t.pc = .installed) :
    KeysCurrent first ({ s with kexctr := s.kexctr + 1 }.move i t .switched) := by
  have hnewkeys := hone.reset i t ht (by simp [hpc])
  have hmoves : Moves s ({ s with kexctr := s.kexctr + 1 }.move i t .switched) i t
      (some { t with pc := .switched }) := .onward ht rfl
  have hcounter := h.uncounted i t ht hnewkeys (by simp [hpc])
  refine ⟨?_, ?_, ?_, ?_, ?_⟩
  · intro _
    obtain ⟨hkeys, hidle, hheld⟩ := h.settled (hone.settled ht hnewkeys (by simp [hpc]))
    refine ⟨hkeys, hidle, ?_⟩
    exact fun j u e hu => All.set (fun j u => hheld j u e) (by rintro ⟨⟩) j u hu
  · exact hone.only hmoves hnewkeys (by rintro ⟨⟩)
  · exact hone.only hmoves hnewkeys (by rintro ⟨⟩)
  · exact hone.only hmoves hnewkeys (by rintro ⟨⟩)
  · exact fun _ => hcounter

/-- The keys change while no other thread has an encryptor. -/
theorem KeysCurrent.step (h : KeysCurrent first s) (hqueued : Queued s) (hone : OneSwitch s)
    (heffect : KeyEffect cipher s s') : KeysCurrent first s' := by
  cases heffect with
  | submit payload kexinit hsender => exact h.enqueue hsender payload kexinit
  | @encrypt i t e ht hpc =>
    by_cases hnewkeys : t.newkeys
    · exact h.encryptNewkeys hqueued hone ht hpc hnewkeys
    · exact h.encryptOther ht hpc hnewkeys
  | install n ht hpc => exact h.install hone ht hpc n
  | switch ht hpc => exact h.switch hone ht hpc
  | plain hplain => exact h.plain hplain
  | setup kexPhase => exact { h with }

theorem KeysFollow.encrypt (h : KeysFollow first s) (hlog : LogOrder s)
    (hkeys : KeysCurrent first s) (ht : s.sender i = some t)
    (hpc : t.pc = .encrypting e) : KeysFollow first (s.encryptPacket cipher i t e) := by
  have hsettled := hkeys.settled_of_uses ht (by simp [hpc]) (by simp [hpc])
  have hunsealed : t.pc.unsealed := by simp [hpc]
  intro p hp
  rw [encrypted_encryptPacket] at hp ⊢
  rw [newkeysBefore, countP_append, countP_singleton]
  rcases mem_append.mp hp with hp | hp
  · have hlater : ¬ ((t.encryptedBy cipher e).newkeys ∧
        (t.encryptedBy cipher e).ticket < p.ticket) := by
      rintro ⟨hnewkeys, hlt⟩
      exact Nat.lt_asymm hlt (hlog.later i t ht hunsealed p hp (.inl hnewkeys))
    rw [if_neg (by simpa using hlater)]
    exact h p hp
  · rw [mem_singleton.mp hp, if_neg (by simp [Sender.encryptedBy])]
    have hcount : (s.encrypted.countP fun q => q.newkeys ∧ q.ticket < t.ticket) = s.switches := by
      apply countP_congr
      intro q hq
      simp only [decide_eq_true_eq, and_iff_left_iff_imp]
      intro hnewkeys
      exact hlog.later i t ht hunsealed q hq (.inr hnewkeys)
    rw [show (t.encryptedBy cipher e).ticket = t.ticket from rfl, hcount]
    exact (hkeys.settled hsettled).2.2 i t e ht (by simp [hpc])

theorem KeysFollow.step (h : KeysFollow first s) (hlog : LogOrder s) (hkeys : KeysCurrent first s)
    (heffect : KeyEffect cipher s s') : KeysFollow first s' := by
  cases heffect with
  | submit payload kexinit hsender => exact h
  | encrypt ht hpc => exact h.encrypt hlog hkeys ht hpc
  | install n ht hpc => exact h
  | switch ht hpc => exact h
  | plain hplain =>
    rw [KeysFollow, hplain.log]
    exact h
  | setup kexPhase => exact h

end Invariants

/-! ## Runs -/

section Runs

variable {ι σ : Type} [DecidableEq ι] {cipher : SendCipher σ} {limit : ℕ → ℕ} {s s' : SendState ι σ}

/-- What holds in every state that is reached by orderly steps. -/
structure OrderlyKeys (first : ℕ) (s : SendState ι σ) : Prop where
  queued : Queued s
  one : OneSwitch s
  log : LogOrder s
  keys : KeysCurrent first s
  follow : KeysFollow first s

omit [DecidableEq ι] in
theorem OrderlyKeys.start (hquiet : Quiet s) (hkeys : s.keys = some s.kexctr)
    (hidle : ∀ e ∈ s.idle, e.keys = s.keys) : OrderlyKeys s.kexctr s := by
  have hnone : ∀ {i t}, s.sender i ≠ some t := by
    intro i t
    simp [hquiet.sender i]
  have hswitches : s.switches = 0 := by
    rw [SendState.switches, hquiet.encrypted]
    rfl
  refine ⟨hquiet.queued, ?_, ?_, ?_, ?_⟩
  · exact ⟨fun i j t u ht => absurd ht hnone, fun i t ht => absurd ht hnone,
      fun i j t u ht => absurd ht hnone, fun i t ht => absurd ht hnone⟩
  · refine ⟨?_, fun i t ht => absurd ht hnone⟩
    rw [hquiet.encrypted]
    nofun
  · refine ⟨fun _ => ⟨?_, ?_, fun i t e ht => absurd ht hnone⟩, fun i t ht => absurd ht hnone,
      fun i t ht => absurd ht hnone, fun i t ht => absurd ht hnone, fun _ => ?_⟩
    · rw [hswitches]
      exact hkeys
    · rw [hswitches]
      exact fun e he => (hidle e he).trans hkeys
    · rw [hswitches]
      rfl
  · rw [KeysFollow, hquiet.encrypted]
    nofun

theorem OrderlyKeys.step {first : ℕ} {a : SendAction ι} (h : OrderlyKeys first s)
    (horderly : OrderlySwitch s a) (hstep : SendStep cipher limit s a s') :
    OrderlyKeys first s' :=
  have heffect := hstep.keyEffect h.queued h.one horderly
  ⟨h.queued.step hstep, h.one.step h.queued horderly hstep,
    h.log.step h.queued h.one heffect, h.keys.step h.queued h.one heffect,
    h.follow.step h.log h.keys heffect⟩

/-- Over any orderly run, packets up to a key exchange have the old keys and packets behind it the
new ones. -/
theorem keys_follow_newkeys {as : List (SendAction ι)} (hquiet : Quiet s)
    (hkeys : s.keys = some s.kexctr) (hidle : ∀ e ∈ s.idle, e.keys = s.keys)
    (halong : Transition.Along (sendStep cipher limit) OrderlySwitch s as)
    (hrun : run (sendStep cipher limit) s as = some s') :
    KeysFollow s.kexctr s' := by
  refine (run_invariant (I := OrderlyKeys s.kexctr) ?_
    (OrderlyKeys.start hquiet hkeys hidle) halong hrun).follow
  intro s₁ a s₂ h horderly hstep
  exact h.step horderly (sendStep_sound hstep)

/-- A key exchange and a packet behind it, which asks for an encryptor once the keys are there. -/
def orderlyRun : List (SendAction Bool) :=
  [.submit false ⟨21, 0, []⟩ false, .submit true ⟨90, 0, [1]⟩ false, .advance false,
    .get false none, .advance false, .advance false, .advance false, .advance false,
    .advance false, .advance false, .advance false, .advance false, .advance false,
    .advance false, .advance true, .get true none, .advance true]

theorem orderlyRun_keys_follow :
    ∃ s', run (sendStep countingCipher fun _ => 1) (quietSend Bool ℕ .serial 0 0)
        orderlyRun = some s' ∧ s'.encrypted.map (fun p => p.keys) = [some 0, some 1] ∧
      KeysFollow 0 s' := by
  have hrun : ((run (sendStep countingCipher fun _ => 1) (quietSend Bool ℕ .serial 0 0)
      orderlyRun).map fun s' => s'.encrypted.map (fun p => p.keys)) = some [some 0, some 1] := by
    decide
  obtain ⟨s', hs', hlog⟩ := Option.map_eq_some_iff.mp hrun
  exact ⟨s', hs', hlog, keys_follow_newkeys (quiet_quietSend ..) rfl nofun (by decide) hs'⟩

def hastyRun : List (SendAction Bool) :=
  [.submit false ⟨21, 0, []⟩ false, .submit true ⟨90, 0, [1]⟩ false, .advance false,
    .get false none, .advance false, .advance false, .advance false, .advance false,
    .advance false, .advance false, .advance false, .advance true, .get true (some 0),
    .advance true]

theorem hastyRun_keys_do_not_follow :
    ∃ s', run (sendStep countingCipher fun _ => 1) (quietSend Bool ℕ .serial 0 0)
        hastyRun = some s' ∧ ¬ KeysFollow 0 s' := by
  have hrun : ((run (sendStep countingCipher fun _ => 1) (quietSend Bool ℕ .serial 0 0)
      hastyRun).map fun s' => decide (KeysFollow 0 s')) = some false := by
    decide
  obtain ⟨s', hs', hfollow⟩ := Option.map_eq_some_iff.mp hrun
  exact ⟨s', hs', of_decide_eq_false hfollow⟩

end Runs

end Osns
