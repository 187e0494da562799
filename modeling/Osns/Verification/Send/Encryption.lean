import Osns.Library.Coding
import Osns.Verification.Send.Newkeys
import Osns.Verification.Send.Order

/-! One encryptor whose cipher goes on from packet to packet: the order in which the threads encrypt,
and the decryptor at the other end. -/

namespace Osns

open Function List Threads EncryptedPacket Fifo Transition

variable {ι σ : Type} {cipher : SendCipher σ} {limit : ℕ → ℕ} {first : ℕ} {s s' : SendState ι σ}
  {i : ι} {t : Sender σ} {new : Option (Sender σ)} {e : SendEncryptor σ}

/-! ## Statement -/

section Statement

/-- The other end of a connection: the next sequence number, the number of its keys and the state of
its cipher. -/
structure Peer (σ : Type) where
  sequence : ℕ
  keys : ℕ
  state : σ

/-- Behind `SSH_MSG_NEWKEYS` the cipher starts from new keys. -/
def Peer.next (peer : Peer σ) (cipher : SendCipher σ) (type : UInt8) (state : σ) : Peer σ :=
  if type = msgNewkeys then
    ⟨peer.sequence + 1, peer.keys + 1, cipher.init (some (peer.keys + 1))⟩
  else ⟨peer.sequence + 1, peer.keys, state⟩

/-- A decryptor that undoes what was encrypted from the same state with the same number. -/
structure PeerCipher (cipher : SendCipher σ) where
  decrypt : σ → ℕ → Bytes → Option (σ × Payload)
  decrypt_encrypt : ∀ state payload,
    decrypt state payload.sequence (cipher.encrypt state payload).2 =
      some ((cipher.encrypt state payload).1, payload)

def PeerCipher.receive {cipher : SendCipher σ} (c : PeerCipher cipher) (peer : Peer σ)
    (bytes : Bytes) : Option (Peer σ × Payload) :=
  (c.decrypt peer.state (u32 peer.sequence) bytes).map fun r => (peer.next cipher r.2.type r.1, r.2)

/-- Packets are encrypted in the order of their tickets, without a gap, the socket gets them in this
order, and the peer decrypts all that the socket gets. -/
def DecryptedInOrder {cipher : SendCipher σ} (c : PeerCipher cipher) (peer : Peer σ)
    (s : SendState ι σ) : Prop :=
  let written := started s.socket
  (∃ n, s.encrypted.map ticket = range' peer.sequence n) ∧
    written <+: s.encrypted.map sealed ∧
    Coding.decodeAll c.receive peer (written.map SealedPacket.bytes) =
      some ((s.encrypted.take written.length).map payload)

/-- No call fails. With the default callbacks a packet is sent only when all threads have encrypted
theirs, and between the key exchange and its new counter nobody asks for an encryptor. -/
def OrderlyEncryption (s : SendState ι σ) (a : SendAction ι) : Prop :=
  OrderlySwitch s a ∧
    match a with
    | .submit _ _ kexinit => kexinit = false → s.behaviour = .default →
        ∀ j u, s.sender j = some u → u.pc.unsealed = false
    | .advance i => ∀ t, s.sender i = some t → t.pc = .queued →
        ∀ j u, s.sender j = some u → u.pc ≠ .installed
    | .fail _ => False
    | .get .. | .setup _ => True

instance [Fintype ι] [DecidableEq σ] (s : SendState ι σ) : DecidablePred (OrderlyEncryption s) :=
  fun a => @instDecidableAnd _ _ inferInstance <|
    match a with
    | .submit _ _ kexinit => inferInstanceAs (Decidable (kexinit = false →
        s.behaviour = .default → ∀ j, ∀ u ∈ s.sender j, u.pc.unsealed = false))
    | .advance i => inferInstanceAs (Decidable (∀ t ∈ s.sender i, t.pc = .queued →
        ∀ j, ∀ u ∈ s.sender j, u.pc ≠ .installed))
    | .fail _ => inferInstanceAs (Decidable False)
    | .get .. | .setup _ => inferInstanceAs (Decidable True)

end Statement

/-! ## The order of encryption -/

section InOrder

variable [DecidableEq ι]

@[simp] def SenderPc.bytes : SenderPc σ → Option Bytes
  | .encrypted _ bytes | .released bytes | .first bytes | .locked bytes | .ready bytes
  | .writing bytes => some bytes
  | _ => none

def Sender.unsealed (t : Sender σ) : Bool := t.pc.unsealed

def SendState.unsealed (s : SendState ι σ) : List ι :=
  s.senders.filter fun i => (s.sender i).any Sender.unsealed

/-- The packets are encrypted in the order of the list, and what a thread holds or has given to the
socket is what was encrypted. -/
structure InOrder (first : ℕ) (s : SendState ι σ) : Prop where
  front : ∀ i j t u, s.sender i = some t → s.sender j = some u → t.pc.unsealed → u.pc.unsealed →
    j ≠ i → t.behaviour = .default → t.ticket < u.ticket
  log : s.encrypted.map EncryptedPacket.ticket ++ s.unsealed.map s.ticket = given first s
  sealed : ∀ i t bytes, s.sender i = some t → t.pc.bytes = some bytes →
    ⟨t.ticket, bytes⟩ ∈ s.encrypted.map EncryptedPacket.sealed
  socket : ∀ p ∈ started s.socket, p ∈ s.encrypted.map EncryptedPacket.sealed

theorem map_ticket_unsealed (ht : s.sender i = some t)
    (hsender : s'.sender = update s.sender i new)
    (hticket : ∀ u, new = some u → u.ticket = t.ticket) :
    s'.unsealed.map s'.ticket = s'.unsealed.map s.ticket := by
  apply map_congr_left
  intro j hj
  obtain ⟨u, hu, -⟩ := (Option.any_eq_true _ _).mp (mem_filter.mp hj).2
  exact ticket_same ht hsender hticket hu

theorem InOrder.moves (h : InOrder first s) (hqueued : Queued s) (hmoves : Moves s s' i t new)
    (hlog : s'.encrypted = s.encrypted) (hnumber : s'.sequenceNumber = s.sequenceNumber)
    (hsenders : s'.senders = s.senders ∨ s'.senders = s.senders.erase i ∧ t.pc.unsealed = false)
    (hunsealed : new.any Sender.unsealed = t.pc.unsealed)
    (hbytes : ∀ u bytes, new = some u → u.pc.bytes = some bytes → t.pc.bytes = some bytes)
    (hsocket : ∀ p ∈ started s'.socket, p ∈ started s.socket ∨
      ∃ bytes, t.pc.bytes = some bytes ∧ p = ⟨t.ticket, bytes⟩) : InOrder first s' := by
  have hold : ∀ {j u}, s'.sender j = some u → u.pc.unsealed →
      ∃ v, s.sender j = some v ∧ v.pc.unsealed ∧ u.ticket = v.ticket ∧
        u.behaviour = v.behaviour := by
    intro j u hu hu'
    rcases hmoves.cases hu with ⟨rfl, hnew⟩ | ⟨-, hu⟩
    · obtain ⟨hticket, -, hbehaviour⟩ := hmoves.same u hnew
      refine ⟨t, hmoves.before, ?_, hticket, hbehaviour⟩
      rw [← hunsealed, hnew]
      exact hu'
    · exact ⟨u, hu, hu', rfl, rfl⟩
  refine ⟨?_, ?_, ?_, ?_⟩
  · intro j k u v hu hv hu' hv' hne hdefault
    obtain ⟨u₀, hu₀, hu₀', huticket, hbehaviour⟩ := hold hu hu'
    obtain ⟨v₀, hv₀, hv₀', hvticket, -⟩ := hold hv hv'
    rw [huticket, hvticket]
    exact h.front j k u₀ v₀ hu₀ hv₀ hu₀' hv₀' hne (hbehaviour.symm.trans hdefault)
  · have hsame : s'.unsealed = s.unsealed := by
      unfold SendState.unsealed
      rw [filter_same hmoves.after (by rw [hunsealed, hmoves.before]; rfl)]
      rcases hsenders with heq | ⟨heq, hfalse⟩
      · rw [heq]
      · rw [heq, filter_erase_of_not hqueued.nodup (by rw [hmoves.before]; exact hfalse)]
    rw [map_ticket_unsealed hmoves.before hmoves.after fun u hu => (hmoves.same u hu).1, hsame,
      hlog, h.log, given, given, hnumber]
  · rw [hlog]
    intro j u bytes hu hu'
    rcases hmoves.cases hu with ⟨rfl, hnew⟩ | ⟨-, hu⟩
    · rw [(hmoves.same u hnew).1]
      exact h.sealed j t bytes hmoves.before (hbytes u bytes hnew hu')
    · exact h.sealed j u bytes hu hu'
  · rw [hlog]
    intro p hp
    rcases hsocket p hp with hp | ⟨bytes, hbytes, rfl⟩
    · exact h.socket p hp
    · exact h.sealed i t bytes hmoves.before hbytes

theorem Sender.listed_of_unsealed (h : t.pc.unsealed) : t.listed := by
  cases hpc : t.pc <;> simp_all

section

variable (h : InOrder first s) (hqueued : Queued s)

include h hqueued

theorem InOrder.first_unsealed (ht : s.sender i = some t) (hpc : t.pc = .encrypting e) :
    s.unsealed.head? = some i := by
  have hunsealed : t.pc.unsealed := by simp [hpc]
  have hlt : ∀ {j u}, s.sender j = some u → u.pc.unsealed → j ≠ i → t.ticket < u.ticket := by
    intro j u hu hu' hne
    cases hbehaviour : t.behaviour with
    | default => exact h.front i j t u ht hu hunsealed hu' hne hbehaviour
    | serial =>
      have hhead := hqueued.front i t ht (by simp [hpc, hbehaviour])
      exact hqueued.ticket_lt_of_head hhead ht hu (Sender.listed_of_unsealed hu') hne
  have hmem : i ∈ s.unsealed := by
    refine mem_filter.mpr ⟨?_, by rw [ht]; exact hunsealed⟩
    exact (hqueued.mem_iff i).mpr ⟨t, ht, Sender.listed_of_unsealed hunsealed⟩
  have hsorted := hqueued.sorted.sublist (filter_sublist (p := fun i =>
    (s.sender i).any Sender.unsealed))
  change s.unsealed.Pairwise _ at hsorted
  cases hl : s.unsealed with
  | nil =>
    rw [hl] at hmem
    exact absurd hmem not_mem_nil
  | cons j rest =>
    -- nobody stands in front of the lowest ticket
    by_cases hj : j = i
    · rw [hj]
      rfl
    · have hj' : j ∈ s.unsealed := by
        rw [hl]
        exact mem_cons_self
      obtain ⟨u, hu, hu'⟩ := (Option.any_eq_true _ _).mp (mem_filter.mp hj').2
      rw [hl] at hmem hsorted
      have hi := (mem_cons.mp hmem).resolve_left (Ne.symm hj)
      have hgt := (pairwise_cons.mp hsorted).1 i hi u t hu ht
      exact absurd (hlt hu hu' hj) (Nat.lt_asymm hgt)

theorem InOrder.ticket_of_encrypting (ht : s.sender i = some t) (hpc : t.pc = .encrypting e) :
    t.ticket = first + s.encrypted.length := by
  obtain ⟨rest, hrest⟩ := head?_eq_some_iff.mp (h.first_unsealed hqueued ht hpc)
  have hnext : s.encrypted.map EncryptedPacket.ticket ++ [t.ticket] <+: given first s := by
    refine ⟨rest.map s.ticket, ?_⟩
    rw [← h.log, hrest, map_cons, ticket_of_sender ht, append_assoc]
    rfl
  rw [eq_add_length_of_starts hnext, length_map]

theorem InOrder.enqueue (hfirst : first ≤ s.sequenceNumber) (hnone : s.sender i = none) {payload : Payload}
    {kexinit : Bool}
    (horderly : kexinit = false → s.behaviour = .default → ∀ j u, s.sender j = some u →
      u.pc.unsealed = false) :
    InOrder first (s.enqueue i payload kexinit) := by
  have hnot : i ∉ s.senders := by
    rw [hqueued.mem_iff]
    simp [hnone]
  have hsender : (s.enqueue i payload kexinit).sender = update s.sender i _ := rfl
  refine ⟨?_, ?_, ?_, h.socket⟩
  · intro j k u v hu hv hu' hv' hne hdefault
    rcases enqueue_cases hu with ⟨rfl, rfl⟩ | ⟨-, hu₀⟩
    · -- a new default sender finds no other
      rcases enqueue_cases hv with ⟨rfl, -⟩ | ⟨-, hv₀⟩
      · exact absurd rfl hne
      · cases kexinit with
        | true => cases hdefault
        | false => cases (horderly rfl hdefault k v hv₀).symm.trans hv'
    · rcases enqueue_cases hv with ⟨rfl, rfl⟩ | ⟨-, hv₀⟩
      · exact hqueued.ticket_lt j u hu₀
      · exact h.front j k u v hu₀ hv₀ hu' hv' hne hdefault
  · have hunsealed : (s.enqueue i payload kexinit).unsealed = s.unsealed ++ [i] := by
      have hsenders : (s.enqueue i payload kexinit).senders = s.senders ++ [i] := rfl
      unfold SendState.unsealed
      rw [hsenders, filter_append, filter_others hsender hnot, filter_cons_of_pos]
      · rfl
      · rw [hsender, update_self]
        rfl
    have hother : ∀ j ∈ s.unsealed, (s.enqueue i payload kexinit).ticket j = s.ticket j := by
      intro j hj
      have hne : j ≠ i := fun heq => hnot (heq ▸ (mem_filter.mp hj).1)
      exact ticket_enqueue_of_ne hne payload kexinit
    rw [hunsealed, map_append, map_congr_left hother, map_singleton,
      ticket_enqueue_self, ← append_assoc, given_enqueue hfirst]
    exact congrArg (· ++ _) h.log
  · exact fun j u bytes hu => All.set (fun j u => h.sealed j u bytes) (by rintro ⟨⟩) j u hu

theorem InOrder.encrypt (ht : s.sender i = some t) (hpc : t.pc = .encrypting e) :
    InOrder first (s.encryptPacket cipher i t e) := by
  have hmoves : Moves s (s.encryptPacket cipher i t e) i t _ := .onward ht rfl
  have hlog := encrypted_encryptPacket cipher s i t e
  refine ⟨?_, ?_, ?_, ?_⟩
  · intro j k u v hu hv hu' hv' hne hdefault
    rcases hmoves.cases hu with ⟨rfl, hnew⟩ | ⟨-, hu⟩
    · cases hnew
      cases hu'
    · rcases hmoves.cases hv with ⟨rfl, hnew⟩ | ⟨-, hv⟩
      · cases hnew
        cases hv'
      · exact h.front j k u v hu hv hu' hv' hne hdefault
  · obtain ⟨rest, hrest⟩ := head?_eq_some_iff.mp (h.first_unsealed hqueued ht hpc)
    have hunsealed : (s.encryptPacket cipher i t e).unsealed = rest := by
      have herase : (s.encryptPacket cipher i t e).unsealed = s.unsealed.erase i := by
        unfold SendState.unsealed
        rw [(hqueued.nodup.filter _).erase_eq_filter, filter_filter]
        apply filter_congr
        intro j _
        rw [hmoves.after]
        by_cases hj : j = i
        · subst hj
          rw [update_self]
          simp [Sender.unsealed]
        · rw [update_of_ne hj]
          simp [hj]
      rw [herase, hrest, erase_cons_head]
    have hgiven : given first (s.encryptPacket cipher i t e) = given first s := rfl
    rw [map_ticket_unsealed ht hmoves.after fun u hu => (hmoves.same u hu).1, hunsealed, hgiven,
      ← h.log, hrest, hlog, map_append, map_singleton, append_assoc, map_cons,
      ticket_of_sender ht]
    rfl
  · intro j u bytes hu hu'
    rw [hlog, map_append]
    rcases hmoves.cases hu with ⟨rfl, hnew⟩ | ⟨-, hu⟩
    · cases hnew
      cases hu'
      exact mem_append_right _ (mem_singleton_self _)
    · exact mem_append_left _ (h.sealed j u bytes hu hu')
  · intro p hp
    rw [hlog, map_append]
    exact mem_append_left _ (h.socket p hp)

theorem InOrder.onward (ht : s.sender i = some t) {pc : SenderPc σ}
    (hsender : s'.sender = update s.sender i (some { t with pc }))
    (hkept : s'.encrypted = s.encrypted ∧ s'.sequenceNumber = s.sequenceNumber ∧
      s'.senders = s.senders ∧ s'.socket = s.socket)
    (hunsealed : pc.unsealed = t.pc.unsealed)
    (hbytes : ∀ bytes, pc.bytes = some bytes → t.pc.bytes = some bytes) : InOrder first s' := by
  obtain ⟨hlog, hnumber, hsenders, hsocket⟩ := hkept
  refine h.moves hqueued (.onward ht hsender) hlog hnumber (.inl hsenders) hunsealed ?_ ?_
  · rintro u bytes ⟨⟩ hu
    exact hbytes bytes hu
  · rw [hsocket]
    exact fun p => .inl

theorem InOrder.leave (ht : s.sender i = some t) (hsender : s'.sender = update s.sender i none)
    (hkept : s'.encrypted = s.encrypted ∧ s'.sequenceNumber = s.sequenceNumber ∧ s'.socket = s.socket)
    (hsenders : s'.senders = s.senders ∨ s'.senders = s.senders.erase i)
    (hunsealed : t.pc.unsealed = false) : InOrder first s' := by
  obtain ⟨hlog, hnumber, hsocket⟩ := hkept
  refine h.moves hqueued (.leave ht hsender) hlog hnumber
    (hsenders.imp_right fun heq => ⟨heq, hunsealed⟩) hunsealed.symm nofun ?_
  rw [hsocket]
  exact fun p => .inl

/-- Encryption goes on in the order of tickets. -/
theorem InOrder.step {a : SendAction ι} (hfirst : first ≤ s.sequenceNumber)
    (horderly : OrderlyEncryption s a) (hstep : SendStep cipher limit s a s') : InOrder first s' := by
  cases hstep with
  | submit payload kexinit hsender hlist => exact h.enqueue hqueued hfirst hsender horderly.2
  | encrypt ht hpc => exact h.encrypt hqueued ht hpc
  | ask ht hpc hserial | take ht hpc hidle | create ht hpc hroom
  | unlockSerial ht hpc hbehaviour | empty ht hpc | clear ht hpc | install ht hpc
  | switch ht hpc =>
    exact h.onward hqueued ht rfl ⟨rfl, rfl, rfl, rfl⟩ (by simp [hpc]) nofun
  | release ht hpc | first ht hpc hbehaviour hserial | lockSerial ht hpc hbehaviour hflag
  | lock ht hpc hflag =>
    exact h.onward hqueued ht rfl ⟨rfl, rfl, rfl, rfl⟩ (by simp [hpc]) (by simp [hpc])
  | unlist ht hpc hlist =>
    refine h.moves hqueued (.onward ht rfl) rfl rfl (.inr ⟨rfl, ?_⟩) ?_ ?_ fun p => .inl
    · simp [hpc]
    · simp [hpc, Sender.unsealed]
    · rintro u bytes ⟨⟩ hu
      rw [hpc]
      exact hu
  | @start i t bytes ht hpc =>
    refine h.moves hqueued (.onward ht rfl) rfl rfl (.inl rfl) ?_ ?_ ?_
    · simp [hpc, Sender.unsealed]
    · rintro u bytes ⟨⟩ hu
      rw [hpc]
      exact hu
    · intro p hp
      rcases mem_append.mp (started_append .. ▸ hp) with hp | hp
      · exact .inl hp
      · exact .inr ⟨bytes, by simp [hpc], mem_singleton.mp hp⟩
  | finish ht hpc =>
    refine h.moves hqueued (.onward ht rfl) rfl rfl (.inl rfl) ?_ (by rintro u bytes ⟨⟩ ⟨⟩) ?_
    · simp [hpc, Sender.unsealed]
    · intro p hp
      rcases mem_append.mp (started_append .. ▸ hp) with hp | hp
      · exact .inl hp
      · exact absurd hp not_mem_nil
  | unlock ht hpc hbehaviour | departSwitched ht hpc =>
    exact h.leave hqueued ht rfl ⟨rfl, rfl, rfl⟩ (.inl rfl) (by simp [hpc])
  | depart ht hpc hlist htype | departFailed ht hpc hlist =>
    exact h.leave hqueued ht rfl ⟨rfl, rfl, rfl⟩ (.inr rfl) (by simp [hpc])
  | departNewkeys ht hpc hlist htype =>
    refine h.moves hqueued (.onward ht rfl) rfl rfl (.inr ⟨rfl, ?_⟩) ?_
      (by rintro u bytes ⟨⟩ ⟨⟩) fun p => .inl
    · simp [hpc]
    · simp [hpc, Sender.unsealed]
  | failAsking ht hpc | failHeld ht hheld | failWriting ht hpc =>
    exact horderly.2.elim
  | setup kexPhase => exact { h with }

end

end InOrder

/-! ## The state of the cipher -/

section Chained

variable {start peer : Peer σ} {o o' : Option (SendEncryptor σ)}

/-- Where the only encryptor is. -/
inductive EncryptorAt (s : SendState ι σ) : Option (SendEncryptor σ) → Prop
  | nowhere (hcount : s.count = 0) (hidle : s.idle = [])
      (hheld : ∀ j u, s.sender j = some u → u.pc.held = none) : EncryptorAt s none
  | idle {e : SendEncryptor σ} (hcount : s.count = 1) (hidle : s.idle = [e])
      (hheld : ∀ j u, s.sender j = some u → u.pc.held = none) : EncryptorAt s (some e)
  | held {e : SendEncryptor σ} {i : ι} {t : Sender σ} (hcount : s.count = 1) (hidle : s.idle = [])
      (ht : s.sender i = some t) (hheld : t.pc.held = some e)
      (honly : ∀ j u, s.sender j = some u → j ≠ i → u.pc.held = none) :
      EncryptorAt s (some e)

def Peer.encode (cipher : SendCipher σ) (peer : Peer σ) (payload : Payload) : Peer σ × Bytes :=
  let r := cipher.encrypt peer.state payload
  (peer.next cipher payload.type r.1, r.2)

def Peer.Expects (peer : Peer σ) (payload : Payload) : Prop := payload.sequence = u32 peer.sequence

def EncryptedPacket.coded (p : EncryptedPacket) : Payload × Bytes := (p.payload, p.bytes)

/-- All packets have gone through one cipher, and the encryptor is where the peer is when it has
received them all. -/
structure Chained (cipher : SendCipher σ) (start peer : Peer σ) (o : Option (SendEncryptor σ))
    (s : SendState ι σ) : Prop where
  single : s.maxCount = 1
  asking : ∀ i t kexctr, s.sender i = some t → t.pc = .asking kexctr → kexctr = s.kexctr
  installed : ∀ i t, s.sender i = some t → t.pc = .installed →
    s.idle = [] ∧ ∀ j u, s.sender j = some u → u.pc.uses = false
  log : Coding.Encodes (Peer.encode cipher) Peer.Expects start
    (s.encrypted.map coded) peer
  sequence : peer.sequence = start.sequence + s.encrypted.length
  keys : peer.keys = start.keys + s.switches
  place : EncryptorAt s o
  kexctr : ∀ e, o = some e → e.kexctr = s.kexctr
  state : s.Settled → o.elim (cipher.init s.keys) SendEncryptor.state = peer.state
  fresh : ∀ i t, s.sender i = some t → t.newkeys → t.pc.stale →
    peer.state = cipher.init (some peer.keys)

theorem KeysCurrent.unused (h : KeysCurrent first s) (ht : s.sender i = some t)
    (hnewkeys : t.newkeys) (hstale : t.pc.stale) (hself : t.pc.uses = false) {j : ι} {u : Sender σ}
    (hu : s.sender j = some u) : u.pc.uses = false := by
  by_cases hj : j = i
  · subst hj
    cases ht.symm.trans hu
    exact hself
  · exact h.alone i t ht hnewkeys hstale j u hu hj

section

variable (h : EncryptorAt s o)

include h

theorem EncryptorAt.eq_none (hidle : s.idle = [])
    (hheld : ∀ j u, s.sender j = some u → u.pc.held = none) : o = none ∧ s.count = 0 := by
  cases h with
  | nowhere hcount _ _ => exact ⟨rfl, hcount⟩
  | idle _ hidle' _ => cases hidle'.symm.trans hidle
  | held _ _ ht hheld' _ => cases hheld'.symm.trans (hheld _ _ ht)

theorem EncryptorAt.of_held (ht : s.sender i = some t) (hheld : t.pc.held = some e) :
    o = some e ∧ s.count = 1 ∧ s.idle = [] ∧
      ∀ j u, s.sender j = some u → j ≠ i → u.pc.held = none := by
  cases h with
  | nowhere _ _ hnone | idle _ _ hnone => cases hheld.symm.trans (hnone i t ht)
  | @held e' j u hcount hidle hu hheld' honly =>
    have hj : i = j := by
      by_contra hne
      cases hheld.symm.trans (honly i t ht hne)
    subst hj
    cases ht.symm.trans hu
    cases hheld.symm.trans hheld'
    exact ⟨rfl, hcount, hidle, honly⟩

theorem EncryptorAt.of_idle {n : ℕ} (hidle : s.idle[n]? = some e) :
    o = some e ∧ s.count = 1 ∧ s.idle.eraseIdx n = [] ∧
      ∀ j u, s.sender j = some u → u.pc.held = none := by
  cases h with
  | nowhere _ hnil | held _ hnil => simp [hnil] at hidle
  | @idle f hcount hone hheld =>
    rw [hone] at hidle
    obtain ⟨rfl, rfl⟩ : n = 0 ∧ f = e := by
      simpa [getElem?_singleton] using hidle
    exact ⟨rfl, hcount, by rw [hone]; rfl, hheld⟩

theorem EncryptorAt.of_count (hcount : s.count = 0) :
    o = none ∧ s.idle = [] ∧ ∀ j u, s.sender j = some u → u.pc.held = none := by
  cases h with
  | nowhere _ hidle hheld => exact ⟨rfl, hidle, hheld⟩
  | idle hone | held hone => cases hone.symm.trans hcount

theorem EncryptorAt.keep (hcount : s'.count = s.count) (hidle : s'.idle = s.idle)
    (hold : ∀ j u, s'.sender j = some u → u.pc.held = none ∨ s.sender j = some u)
    (hstill : ∀ j u e, s.sender j = some u → u.pc.held = some e → s'.sender j = some u) :
    EncryptorAt s' o := by
  have hnone : ∀ {p : ι → Prop}, (∀ j u, s.sender j = some u → p j → u.pc.held = none) →
      ∀ j u, s'.sender j = some u → p j → u.pc.held = none := by
    intro p hheld j u hu hj
    exact (hold j u hu).elim id fun hu => hheld j u hu hj
  have hall : (∀ j u, s.sender j = some u → u.pc.held = none) →
      ∀ j u, s'.sender j = some u → u.pc.held = none := by
    intro hheld j u hu
    exact (hold j u hu).elim id (hheld j u)
  cases h with
  | nowhere hzero hnil hheld => exact .nowhere (hcount.trans hzero) (hidle.trans hnil) (hall hheld)
  | idle hone hsingle hheld => exact .idle (hcount.trans hone) (hidle.trans hsingle) (hall hheld)
  | held hone hnil hu hheld honly =>
    exact .held (hcount.trans hone) (hidle.trans hnil) (hstill _ _ _ hu hheld) hheld (hnone honly)

variable [DecidableEq ι]

theorem EncryptorAt.moves (hmoves : Moves s s' i t new) (hcount : s'.count = s.count)
    (hidle : s'.idle = s.idle) (hbefore : t.pc.held = none)
    (hafter : ∀ u, new = some u → u.pc.held = none) : EncryptorAt s' o := by
  refine h.keep hcount hidle ?_ ?_
  · intro j u hu
    exact (hmoves.cases hu).imp (fun hnew => hafter u hnew.2) fun hu => hu.2
  · intro j u e hu he
    have hne : j ≠ i := by
      rintro rfl
      cases hmoves.before.symm.trans hu
      cases he.symm.trans hbefore
    rw [hmoves.after, update_of_ne hne]
    exact hu

end

variable [DecidableEq ι]

/-- A step that does not encrypt: the peer stays where it is, and so does the state of the
encryptor, wherever that goes. -/
theorem Chained.plain (h : Chained cipher start peer o s) (hplain : PlainMove s s' i t new)
    (hsingle : s'.maxCount = s.maxCount) (hplace : EncryptorAt s' o')
    (hkexctr : ∀ e, o' = some e → e.kexctr = s.kexctr)
    (hstate : s.Settled → o'.elim (cipher.init s'.keys) SendEncryptor.state =
      o.elim (cipher.init s.keys) SendEncryptor.state)
    (hasking : ∀ u kexctr, new = some u → u.pc = .asking kexctr → kexctr = s.kexctr)
    (hinstalled : ∀ u, new = some u → u.pc ≠ .installed)
    (huses : ∀ u, new = some u → u.pc.uses → t.pc.uses ∨
      ∀ j v, s.sender j = some v → v.pc ≠ .installed) : Chained cipher start peer o' s' := by
  refine ⟨hsingle.trans h.single, ?_, ?_, ?_, ?_, ?_, hplace, ?_, ?_, ?_⟩
  · rw [hplain.kexctr]
    intro j u kexctr hu hu'
    rcases hplain.cases hu with ⟨-, hnew⟩ | ⟨-, hu⟩
    · exact hasking u kexctr hnew hu'
    · exact h.asking j u kexctr hu hu'
  · rw [hplain.after]
    refine all_update (fun u hnew hu' => absurd hu' (hinstalled u hnew)) ?_
    intro j u _ hu hu'
    obtain ⟨hidle, hunused⟩ := h.installed j u hu hu'
    refine ⟨?_, All.update hunused ?_⟩
    · rw [eq_nil_iff_forall_not_mem]
      intro e he
      rcases hplain.idle e he with he | he
      · rw [hidle] at he
        exact not_mem_nil he
      · cases (hunused i t hplain.before).symm.trans (SenderPc.uses_of_held he)
    · intro v hnew
      by_contra hv'
      rw [Bool.not_eq_false] at hv'
      rcases huses v hnew hv' with ht | hnone
      · cases (hunused i t hplain.before).symm.trans ht
      · exact hnone j u hu hu'
  · rw [hplain.log]
    exact h.log
  · rw [hplain.log]
    exact h.sequence
  · rw [SendState.switches, hplain.log]
    exact h.keys
  · rw [hplain.kexctr]
    exact hkexctr
  · intro hsettled
    have hsettled := hplain.settled hsettled
    exact (hstate hsettled).trans (h.state hsettled)
  · intro j u hu hnewkeys hstale
    obtain ⟨v, hv, hvnewkeys, hsame, -⟩ := hplain.old hu hnewkeys
    exact h.fresh j v hv hvnewkeys (hsame ▸ hstale)

theorem Chained.behind (h : Chained cipher start peer o s) (hplain : PlainMove s s' i t new)
    (hkept : s'.maxCount = s.maxCount ∧ s'.count = s.count ∧ s'.idle = s.idle ∧ s'.keys = s.keys)
    (hbefore : t.pc.uses = false)
    (hafter : ∀ u, new = some u → u.pc.uses = false ∧ u.pc ≠ .installed) :
    Chained cipher start peer o s' := by
  obtain ⟨hsingle, hcount, hidle, hkeys⟩ := hkept
  have hplace := h.place.moves hplain.toMoves hcount hidle (SenderPc.held_of_not_uses hbefore)
    fun u hu => SenderPc.held_of_not_uses (hafter u hu).1
  refine h.plain hplain hsingle hplace h.kexctr ?_ ?_ (fun u hu => (hafter u hu).2) ?_
  · intro _
    rw [hkeys]
  · intro u kexctr hu hu'
    have huses := (hafter u hu).1
    rw [hu'] at huses
    cases huses
  · intro u hu hu'
    cases (hafter u hu).1.symm.trans hu'

variable {pc : SenderPc σ}

section

variable (h : Chained cipher start peer o s)

include h

theorem Chained.sealed (ht : s.sender i = some t)
    (hsender : s'.sender = update s.sender i (some { t with pc }))
    (hkept : s.SameLog s' ∧ s'.keys = s.keys ∧ s'.idle = s.idle)
    (hcounts : s'.maxCount = s.maxCount ∧ s'.count = s.count) (hbefore : t.pc.stale ∧ t.pc.uses = false)
    (hafter : pc.stale ∧ pc.uses = false ∧ pc.vacated = false) :
    Chained cipher start peer o s' := by
  have hplain := PlainMove.sealed ht hsender hkept hbefore.1 hafter
  obtain ⟨-, hkeys, hidle⟩ := hkept
  refine h.behind hplain ⟨hcounts.1, hcounts.2, hidle, hkeys⟩ hbefore.2 ?_
  rintro u ⟨⟩
  refine ⟨hafter.2.1, ?_⟩
  rintro rfl
  cases hafter.1

theorem Chained.leave (ht : s.sender i = some t) (hsender : s'.sender = update s.sender i none)
    (hkept : s.SameLog s' ∧ s'.keys = s.keys ∧ s'.idle = s.idle)
    (hcounts : s'.maxCount = s.maxCount ∧ s'.count = s.count) (hbefore : t.pc.uses = false)
    (hswitcher : t.newkeys → t.pc.uncounted = false) : Chained cipher start peer o s' := by
  have hplain := PlainMove.leave ht hsender hkept hswitcher
  obtain ⟨-, hkeys, hidle⟩ := hkept
  exact h.behind hplain ⟨hcounts.1, hcounts.2, hidle, hkeys⟩ hbefore (by rintro u ⟨⟩)

theorem Chained.enqueue (hnone : s.sender i = none) (payload : Payload) (kexinit : Bool) :
    Chained cipher start peer o (s.enqueue i payload kexinit) := by
  refine { h with asking := ?_, installed := ?_, place := ?_, state := ?_, fresh := ?_ }
  · exact fun j u kexctr hu => All.set (fun j u => h.asking j u kexctr) (by rintro ⟨⟩) j u hu
  · refine all_set nofun ?_
    intro j u _ hu hu'
    obtain ⟨hidle, hunused⟩ := h.installed j u hu hu'
    exact ⟨hidle, All.set hunused rfl⟩
  · refine h.place.keep rfl rfl ?_ fun j u e hu _ => sender_enqueue_of_some hnone hu
    exact all_set (.inl rfl) fun _ _ _ => .inr
  · intro hsettled
    exact h.state fun j u hu => hsettled j u (sender_enqueue_of_some hnone hu)
  · exact All.set h.fresh nofun

theorem Chained.ask
    (hplain : PlainMove s (s.move i t (.asking s.kexctr)) i t (some { t with pc := .asking s.kexctr }))
    (hpc : t.pc = .queued) (hnone : ∀ j u, s.sender j = some u → u.pc ≠ .installed) :
    Chained cipher start peer o (s.move i t (.asking s.kexctr)) := by
  have hplace := h.place.moves hplain.toMoves rfl rfl (by simp [hpc]) (by rintro u ⟨⟩; rfl)
  refine h.plain hplain rfl hplace h.kexctr (fun _ => rfl) ?_ ?_ fun _ _ _ => .inr hnone
  · rintro u kexctr ⟨⟩ hu
    cases hu
    rfl
  · rintro u ⟨⟩ ⟨⟩

theorem Chained.get {kexctr : ℕ} (hpc : t.pc = .asking kexctr)
    (hplain : PlainMove s s' i t (some { t with pc := .encrypting e })) (hsingle : s'.maxCount = s.maxCount)
    (hcount : s'.count = 1) (hidle : s'.idle = []) (hheld : ∀ j u, s.sender j = some u → u.pc.held = none)
    (hkexctr : e.kexctr = s.kexctr) (hstate : e.state = o.elim (cipher.init s.keys) SendEncryptor.state) :
    Chained cipher start peer (some e) s' := by
  have hplace : EncryptorAt s' (some e) := by
    refine .held (i := i) (t := { t with pc := .encrypting e }) hcount hidle ?_ rfl ?_
    · rw [hplain.after, update_self]
    · rw [hplain.after]
      exact all_set (absurd rfl) fun j u _ hu _ => hheld j u hu
  refine h.plain hplain hsingle hplace ?_ (fun _ => hstate) ?_ ?_ fun _ _ _ => .inl (by simp [hpc])
  · rintro f ⟨⟩
    exact hkexctr
  · rintro u k ⟨⟩ ⟨⟩
  · rintro u ⟨⟩ ⟨⟩

theorem Chained.release (ht : s.sender i = some t) {bytes : Bytes} (hpc : t.pc = .encrypted e bytes) :
    Chained cipher start peer o ((s.queueSshEncryptor e).move i t (.released bytes)) := by
  obtain ⟨rfl, hcount, hidle, honly⟩ := h.place.of_held ht (e := e) (by simp [hpc])
  have hkexctr := congrArg u32 (h.kexctr e rfl)
  have hplain := PlainMove.release ht hpc
  have hplace : EncryptorAt ((s.queueSshEncryptor e).move i t (.released bytes)) (some e) := by
    refine .idle ?_ ?_ ?_
    · exact (if_pos hkexctr).trans hcount
    · refine (if_pos hkexctr).trans ?_
      rw [hidle]
      rfl
    · exact all_set rfl fun j u hne hu => honly j u hu hne
  refine h.plain hplain rfl hplace h.kexctr (fun _ => rfl) ?_ ?_ ?_
  · rintro u kexctr ⟨⟩ ⟨⟩
  · rintro u ⟨⟩ ⟨⟩
  · rintro u ⟨⟩ ⟨⟩

end

theorem Chained.empty (h : Chained cipher start peer o s) (hkeys : KeysCurrent first s)
    (ht : s.sender i = some t) (hpc : t.pc = .removed) (hnewkeys : t.newkeys) :
    Chained cipher start peer none
      ({ s with idle := [], count := s.count - s.idle.length }.move i t .emptied) := by
  have hplain := PlainMove.empty ht hpc (s.count - s.idle.length)
  have hheld : ∀ j u, s.sender j = some u → u.pc.held = none := fun j u hu =>
    SenderPc.held_of_not_uses (hkeys.unused ht hnewkeys (by simp [hpc]) (by simp [hpc]) hu)
  have hcount : s.count - s.idle.length = 0 := by
    cases h.place with
    | nowhere hzero hidle _ => rw [hzero, Nat.zero_sub]
    | idle hone hidle _ =>
      rw [hone, hidle]
      rfl
    | held _ _ hu hheld' _ => cases hheld'.symm.trans (hheld _ _ hu)
  have hplace : EncryptorAt ({ s with idle := [], count := s.count - s.idle.length }.move i t
      .emptied) none := by
    exact .nowhere hcount rfl (All.set hheld rfl)
  refine h.plain hplain rfl hplace nofun ?_ ?_ ?_ ?_
  · intro hsettled
    have hstale := hsettled i t ht hnewkeys
    simp [hpc] at hstale
  · rintro u kexctr ⟨⟩ ⟨⟩
  · rintro u ⟨⟩ ⟨⟩
  · rintro u ⟨⟩ ⟨⟩

theorem Chained.clear (h : Chained cipher start peer o s) (ht : s.sender i = some t)
    (hpc : t.pc = .emptied) (hnewkeys : t.newkeys) :
    Chained cipher start peer o ({ s with keys := none }.move i t .cleared) := by
  have hplain := PlainMove.clear ht hpc hnewkeys
  have hplace := h.place.moves hplain.toMoves rfl rfl (by simp [hpc]) (by rintro u ⟨⟩; rfl)
  refine h.plain hplain rfl hplace h.kexctr ?_ ?_ ?_ ?_
  · intro hsettled
    have hstale := hsettled i t ht hnewkeys
    simp [hpc] at hstale
  · rintro u kexctr ⟨⟩ ⟨⟩
  · rintro u ⟨⟩ ⟨⟩
  · rintro u ⟨⟩ ⟨⟩

theorem Chained.handover (h : Chained cipher start peer none s) (hone : OneSwitch s)
    (ht : s.sender i = some t) (hnewkeys : t.newkeys)
    (hsender : s'.sender = update s.sender i (some { t with pc }))
    (hafter : pc.uses = false ∧ pc.stale = false)
    (hkept : s'.encrypted = s.encrypted ∧ s'.idle = [] ∧ s'.count = 0)
    (hunused : ∀ j u, s.sender j = some u → u.pc.uses = false) (hsingle : s'.maxCount = 1)
    (hstate : cipher.init s'.keys = peer.state) : Chained cipher start peer none s' := by
  have hmoves : Moves s s' i t _ := .onward ht hsender
  obtain ⟨hlog, hidle, hcount⟩ := hkept
  have hunused' : ∀ j u, s'.sender j = some u → u.pc.uses = false := by
    rw [hsender]
    exact All.set hunused hafter.1
  refine ⟨hsingle, ?_, fun _ _ _ _ => ⟨hidle, hunused'⟩, ?_, ?_, ?_, ?_, ?_, fun _ => hstate, ?_⟩
  · intro j u kexctr hu hu'
    have huses := hunused' j u hu
    rw [hu'] at huses
    cases huses
  · rw [hlog]
    exact h.log
  · rw [hlog]
    exact h.sequence
  · rw [SendState.switches, hlog]
    exact h.keys
  · exact .nowhere hcount hidle fun j u hu => SenderPc.held_of_not_uses (hunused' j u hu)
  · rintro e ⟨⟩
  · exact hone.only hmoves hnewkeys fun hstale => by cases hafter.2.symm.trans hstale

theorem Chained.install (h : Chained cipher start peer o s) (hone : OneSwitch s)
    (hkeys : KeysCurrent start.keys s) (ht : s.sender i = some t) (hpc : t.pc = .cleared) :
    Chained cipher start peer none
      ({ s with keys := some (s.kexctr + 1), maxCount := 1 }.move i t .installed) := by
  have hnewkeys := hone.reset i t ht (by simp [hpc])
  have hunused : ∀ j u, s.sender j = some u → u.pc.uses = false := fun j u hu =>
    hkeys.unused ht hnewkeys (by simp [hpc]) (by simp [hpc]) hu
  have hidle := hkeys.vacated i t ht hnewkeys (by simp [hpc])
  obtain ⟨rfl, hcount⟩ := h.place.eq_none hidle fun j u hu =>
    SenderPc.held_of_not_uses (hunused j u hu)
  refine h.handover hone ht hnewkeys rfl ⟨rfl, rfl⟩ ⟨rfl, hidle, hcount⟩ hunused rfl ?_
  rw [h.fresh i t ht hnewkeys (by simp [hpc]), h.keys,
    ← hkeys.uncounted i t ht hnewkeys (by simp [hpc])]
  rfl

theorem Chained.switch (h : Chained cipher start peer o s) (hone : OneSwitch s)
    (ht : s.sender i = some t) (hpc : t.pc = .installed) :
    Chained cipher start peer none ({ s with kexctr := s.kexctr + 1 }.move i t .switched) := by
  have hnewkeys := hone.reset i t ht (by simp [hpc])
  obtain ⟨hidle, hunused⟩ := h.installed i t ht hpc
  obtain ⟨rfl, hcount⟩ := h.place.eq_none hidle fun j u hu =>
    SenderPc.held_of_not_uses (hunused j u hu)
  have hstate := h.state (hone.settled ht hnewkeys (by simp [hpc]))
  exact h.handover hone ht hnewkeys rfl ⟨rfl, rfl⟩ ⟨rfl, hidle, hcount⟩ hunused h.single hstate

theorem Peer.sequence_next (peer : Peer σ) (cipher : SendCipher σ) (type : UInt8) (state : σ) :
    (peer.next cipher type state).sequence = peer.sequence + 1 := by
  unfold Peer.next
  split <;> rfl

theorem Peer.encode_of_newkeys (peer : Peer σ) (h : t.newkeys) :
    (peer.encode cipher t.numbered).1 =
      ⟨peer.sequence + 1, peer.keys + 1, cipher.init (some (peer.keys + 1))⟩ :=
  if_pos h

theorem Peer.encode_of_not_newkeys (peer : Peer σ) (h : ¬ t.newkeys) :
    (peer.encode cipher t.numbered).1 =
      ⟨peer.sequence + 1, peer.keys, (cipher.encrypt peer.state t.numbered).1⟩ :=
  if_neg h

theorem Chained.encrypt (h : Chained cipher start peer o s) (hkeys : KeysCurrent first s)
    (horder : InOrder start.sequence s) (hqueued : Queued s)
    (ht : s.sender i = some t) (hpc : t.pc = .encrypting e) :
    Chained cipher start (peer.encode cipher t.numbered).1 (some (e.after cipher t.numbered))
      (s.encryptPacket cipher i t e) := by
  have hsettled := hkeys.settled_of_uses ht (by simp [hpc]) (by simp [hpc])
  obtain ⟨rfl, hcount, hidle, honly⟩ := h.place.of_held ht (e := e) (by simp [hpc])
  have hstate : e.state = peer.state := h.state hsettled
  have hself : (s.encryptPacket cipher i t e).sender i = some _ := update_self ..
  have hexpects : peer.Expects t.numbered := by
    rw [Peer.Expects, h.sequence, ← horder.ticket_of_encrypting hqueued ht hpc]
    rfl
  have hcoded : (t.encryptedBy cipher e).coded =
      (t.numbered, (peer.encode cipher t.numbered).2) := by
    rw [coded, Sender.encryptedBy, hstate]
    rfl
  have hlog := encrypted_encryptPacket cipher s i t e
  refine ⟨h.single, ?_, ?_, ?_, ?_, ?_, ?_, ?_, ?_, ?_⟩
  · exact fun j u kexctr hu => All.set (fun j u => h.asking j u kexctr) (by rintro ⟨⟩) j u hu
  · refine all_set (by rintro ⟨⟩) ?_
    intro j u _ hu hu'
    have huses := (h.installed j u hu hu').2 i t ht
    simp [hpc] at huses
  · rw [hlog, map_append, map_singleton, hcoded]
    exact h.log.concat hexpects
  · rw [hlog, length_append, length_singleton, Peer.encode, Peer.sequence_next,
      h.sequence, Nat.add_assoc]
  · rw [switches_encryptPacket, ← Nat.add_assoc, ← h.keys]
    by_cases hnewkeys : t.newkeys
    · rw [if_pos hnewkeys, peer.encode_of_newkeys hnewkeys]
    · rw [if_neg hnewkeys, peer.encode_of_not_newkeys hnewkeys]
      rfl
  · refine .held hcount hidle hself rfl ?_
    exact All.set honly (absurd rfl)
  · rintro f ⟨⟩
    exact h.kexctr e rfl
  · intro hsettled'
    have hnewkeys : ¬ t.newkeys := by
      intro hnewkeys
      cases hsettled' i _ hself hnewkeys
    rw [peer.encode_of_not_newkeys hnewkeys, ← hstate]
    rfl
  · refine all_set ?_ ?_
    · intro hnewkeys _
      rw [peer.encode_of_newkeys (t := t) hnewkeys]
    · intro j u _ hu hnewkeys hstale
      cases (hsettled j u hu hnewkeys).symm.trans hstale

/-- The one encryptor goes from thread to thread. -/
theorem Chained.step {a : SendAction ι} (h : Chained cipher start peer o s)
    (hall : OrderlyKeys start.keys s) (horder : InOrder start.sequence s)
    (hlimit : ∀ n, limit n = 1) (horderly : OrderlyEncryption s a)
    (hstep : SendStep cipher limit s a s') : ∃ peer' o', Chained cipher start peer' o' s' := by
  have hone := hall.one
  have hkeys := hall.keys
  cases hstep with
  | submit payload kexinit hsender hlist => exact ⟨_, _, h.enqueue hsender payload kexinit⟩
  | encrypt ht hpc => exact ⟨_, _, h.encrypt hkeys horder hall.queued ht hpc⟩
  | ask ht hpc hserial =>
    exact ⟨_, _, h.ask (.ask hall.queued hone ht hpc hserial horderly.1) hpc (horderly.2 _ ht hpc)⟩
  | take ht hpc hidle =>
    obtain ⟨rfl, hcount, hnil, hheld⟩ := h.place.of_idle hidle
    exact ⟨_, _, h.get hpc (.get ht hpc rfl ⟨rfl, rfl, rfl⟩ rfl
      (fun _ => mem_of_mem_eraseIdx) (.inl (mem_of_getElem? hidle))) rfl hcount hnil
      hheld (h.kexctr _ rfl) rfl⟩
  | create ht hpc hroom =>
    have hzero : s.count = 0 := by
      rw [h.single] at hroom
      omega
    obtain ⟨rfl, hnil, hheld⟩ := h.place.of_count hzero
    exact ⟨_, _, h.get hpc (.get ht hpc rfl ⟨rfl, rfl, rfl⟩ rfl (fun _ => id) (.inr rfl)) rfl
      (congrArg (· + 1) hzero) hnil hheld (h.asking _ _ _ ht hpc) rfl⟩
  | release ht hpc => exact ⟨_, _, h.release ht hpc⟩
  | empty ht hpc =>
    exact ⟨_, _, h.empty hkeys ht hpc (hone.reset _ _ ht (by simp [hpc]))⟩
  | clear ht hpc =>
    exact ⟨_, _, h.clear ht hpc (hone.reset _ _ ht (by simp [hpc]))⟩
  | install ht hpc =>
    rw [hlimit]
    exact ⟨_, _, h.install hone hkeys ht hpc⟩
  | switch ht hpc => exact ⟨_, _, h.switch hone ht hpc⟩
  | first ht hpc hbehaviour hfirst | lockSerial ht hpc hbehaviour hflag | lock ht hpc hflag
  | unlist ht hpc hlist | start ht hpc | finish ht hpc | unlockSerial ht hpc hbehaviour
  | departNewkeys ht hpc hlist htype =>
    exact ⟨_, _, h.sealed ht rfl ⟨⟨rfl, rfl, rfl⟩, rfl, rfl⟩ ⟨rfl, rfl⟩ (by simp [hpc])
      ⟨rfl, rfl, rfl⟩⟩
  | unlock ht hpc hbehaviour =>
    refine ⟨_, _, h.leave ht rfl ⟨⟨rfl, rfl, rfl⟩, rfl, rfl⟩ ⟨rfl, rfl⟩ (by simp [hpc]) ?_⟩
    intro hnewkeys
    simp [(hone.serial _ _ ht hnewkeys).1] at hbehaviour
  | depart ht hpc hlist htype =>
    exact ⟨_, _, h.leave ht rfl ⟨⟨rfl, rfl, rfl⟩, rfl, rfl⟩ ⟨rfl, rfl⟩ (by simp [hpc])
      fun hnewkeys => absurd hnewkeys htype⟩
  | departSwitched ht hpc | departFailed ht hpc hlist =>
    exact ⟨_, _, h.leave ht rfl ⟨⟨rfl, rfl, rfl⟩, rfl, rfl⟩ ⟨rfl, rfl⟩ (by simp [hpc])
      fun _ => by simp [hpc]⟩
  | failAsking ht hpc | failHeld ht hheld | failWriting ht hpc =>
    exact horderly.2.elim
  | setup kexPhase =>
    exact ⟨_, _, { h with place := h.place.keep rfl rfl (fun _ _ => .inr) (fun _ _ _ hu _ => hu) }⟩

end Chained

/-! ## Runs -/

section Runs

variable {ι σ : Type} [DecidableEq ι] {cipher : SendCipher σ} {limit : ℕ → ℕ}
  {s s' : SendState ι σ} {start : Peer σ}

/-- What holds in every state that is reached by orderly steps. -/
structure OrderlyCipher (cipher : SendCipher σ) (start : Peer σ) (s : SendState ι σ) : Prop where
  keys : OrderlyKeys start.keys s
  line : InLine start.sequence s
  order : InOrder start.sequence s
  chained : ∃ peer o, Chained cipher start peer o s

omit [DecidableEq ι] in
theorem Quiet.orderlyCipher (hquiet : Quiet s) (hkeys : s.keys = some s.kexctr)
    (hidle : s.idle = []) (hcount : s.count = 0) (hsingle : s.maxCount = 1) :
    OrderlyCipher cipher ⟨s.sequenceNumber, s.kexctr, cipher.init s.keys⟩ s := by
  have hnone : ∀ {i t}, s.sender i ≠ some t := by
    intro i t
    simp [hquiet.sender i]
  refine ⟨.start hquiet hkeys (by simp [hidle]), .start hquiet, ?_, ?_⟩
  · refine ⟨fun i j t u ht => absurd ht hnone, ?_, fun i t bytes ht => absurd ht hnone, ?_⟩
    · rw [hquiet.encrypted, SendState.unsealed, hquiet.senders, given, Nat.sub_self]
      rfl
    · rw [hquiet.socket]
      exact fun p hp => absurd hp not_mem_nil
  · refine ⟨⟨s.sequenceNumber, s.kexctr, cipher.init s.keys⟩, none, hsingle,
      fun i t kexctr ht => absurd ht hnone, fun i t ht => absurd ht hnone, ?_, ?_, ?_,
      .nowhere hcount hidle fun i t ht => absurd ht hnone, ?_, fun _ => rfl,
      fun i t ht => absurd ht hnone⟩
    · rw [hquiet.encrypted]
      exact .nil _
    · rw [hquiet.encrypted]
      rfl
    · rw [SendState.switches, hquiet.encrypted]
      rfl
    · rintro e ⟨⟩

theorem getElem_of_map_eq_range {α : Type*} {f : α → ℕ} {first n : ℕ} {l : List α}
    (h : l.map f = range' first n) {k : ℕ} (hk : k < l.length) : f l[k] = first + k := by
  have hk' : (l.map f)[k]? = (range' first n)[k]? := by rw [h]
  have hlength : l.length = n := by simpa using congrArg length h
  rw [getElem?_map, getElem?_eq_getElem hk, getElem?_range' (hlength ▸ hk)] at hk'
  simpa using hk'

/-- Of two lists with consecutive numbers from the same one on, that with fewer members comes first
in the other. -/
theorem prefix_of_consecutive {α : Type*} {f : α → ℕ} {first n m : ℕ} {l l' : List α}
    (hl : l.map f = range' first n) (hl' : l'.map f = range' first m)
    (hmem : ∀ a ∈ l, a ∈ l') : l <+: l' := by
  rw [prefix_iff_getElem?]
  intro k hk
  obtain ⟨j, hj, heq⟩ := mem_iff_getElem.mp (hmem _ (getElem_mem hk))
  have hjk : first + j = first + k := by
    rw [← getElem_of_map_eq_range hl' hj, heq, getElem_of_map_eq_range hl hk]
  obtain rfl := Nat.add_left_cancel hjk
  rw [getElem?_eq_getElem hj, heq]

theorem PeerCipher.receive_encode (c : PeerCipher cipher) (peer : Peer σ) (payload : Payload)
    (h : peer.Expects payload) :
    c.receive peer (peer.encode cipher payload).2 =
      some ((peer.encode cipher payload).1, payload) := by
  rw [PeerCipher.receive, Peer.encode, ← show _ = _ from h, c.decrypt_encrypt]
  rfl

omit [DecidableEq ι] in
theorem decryptedInOrder_of_orderly (c : PeerCipher cipher) (h : OrderlyCipher cipher start s) :
    DecryptedInOrder c start s := by
  obtain ⟨peer, o, hchained⟩ := h.chained
  have hlog := eq_range_of_starts (l := s.encrypted.map ticket)
    (h.order.log ▸ prefix_append _ _)
  have hstarted := h.line.serves.started_prefix
  rw [SendState.line, started_map] at hstarted
  have hwritten : started s.socket <+: s.encrypted.map sealed := by
    have hsealed : (s.encrypted.map sealed).map SealedPacket.ticket =
        s.encrypted.map ticket := map_map
    exact prefix_of_consecutive (eq_range_of_starts hstarted) (hsealed.trans hlog) h.order.socket
  refine ⟨⟨_, hlog⟩, hwritten, ?_⟩
  -- the socket has got the first packets of the log
  have htake := prefix_iff_eq_take.mp hwritten
  have hbytes : (started s.socket).map SealedPacket.bytes =
      ((s.encrypted.take (started s.socket).length).map coded).map
        Prod.snd := by
    rw [← map_take] at htake
    rw [map_map]
    exact (congrArg (map SealedPacket.bytes) htake).trans map_map
  have hall := hchained.log
  rw [← take_append_drop (started s.socket).length s.encrypted, map_append] at hall
  obtain ⟨peer', hfirst⟩ := hall.of_append
  rw [hbytes, hfirst.decodeAll c.receive_encode, map_map]
  rfl

theorem OrderlyCipher.step {a : SendAction ι} (h : OrderlyCipher cipher start s)
    (hlimit : ∀ n, limit n = 1) (horderly : OrderlyEncryption s a)
    (hstep : SendStep cipher limit s a s') : OrderlyCipher cipher start s' := by
  have hfail : ∀ i, a ≠ .fail i := by
    rintro i rfl
    exact horderly.2
  obtain ⟨peer, o, hchained⟩ := h.chained
  exact ⟨h.keys.step horderly.1 hstep, h.line.step hfail hstep,
    h.order.step h.line.queued h.line.le horderly hstep,
    hchained.step h.keys h.order hlimit horderly hstep⟩

/-- Over any orderly run with ciphers of one encryptor, the packets are encrypted and written in the
order of their tickets, and the peer decrypts all of them. -/
theorem packets_decrypted_in_order {as : List (SendAction ι)} (c : PeerCipher cipher)
    (hquiet : Quiet s) (hkeys : s.keys = some s.kexctr) (hidle : s.idle = []) (hcount : s.count = 0)
    (hsingle : s.maxCount = 1) (hlimit : ∀ n, limit n = 1)
    (halong : Transition.Along (sendStep cipher limit) OrderlyEncryption s as)
    (hrun : run (sendStep cipher limit) s as = some s') :
    DecryptedInOrder c ⟨s.sequenceNumber, s.kexctr, cipher.init s.keys⟩ s' := by
  apply decryptedInOrder_of_orderly
  refine run_invariant ?_ (hquiet.orderlyCipher hkeys hidle hcount hsingle) halong hrun
  intro s₁ a s₂ h horderly hstep
  exact h.step hlimit horderly (sendStep_sound hstep)

def countingPeer : PeerCipher countingCipher where
  decrypt
    | n, sequence, b :: type :: buffer =>
      if b = UInt8.ofNat n then some (n + 1, ⟨type, sequence, buffer⟩) else none
    | _, _, _ => none
  decrypt_encrypt _ _ := if_pos rfl

/-- A key exchange, and a packet behind it that is encrypted with the new keys. -/
def patientRun : List (SendAction Bool) :=
  [.submit false ⟨21, 0, []⟩ false, .submit true ⟨90, 0, [1]⟩ false, .advance false,
    .get false none, .advance false, .advance false, .advance false, .advance false,
    .advance false, .advance false, .advance false, .advance false, .advance false,
    .advance false, .advance false, .advance false, .advance true, .get true none, .advance true,
    .advance true, .advance true, .advance true]

theorem patientRun_decrypted_in_order :
    ∃ s', run (sendStep countingCipher fun _ => 1) (quietSend Bool ℕ .serial 0 1)
        patientRun = some s' ∧ (started s'.socket).length = 2 ∧
      DecryptedInOrder countingPeer ⟨0, 0, 0⟩ s' := by
  have hrun : ((run (sendStep countingCipher fun _ => 1) (quietSend Bool ℕ .serial 0 1)
      patientRun).map fun s' => (started s'.socket).length) = some 2 := by
    decide
  obtain ⟨s', hs', hlength⟩ := Option.map_eq_some_iff.mp hrun
  exact ⟨s', hs', hlength, packets_decrypted_in_order countingPeer (quiet_quietSend ..) rfl rfl rfl
    rfl (fun _ => rfl) (by decide) hs'⟩

def overtakingRun : List (SendAction Bool) :=
  [.submit false ⟨90, 0, [1]⟩ false, .submit true ⟨90, 0, [2]⟩ false, .advance true,
    .get true none, .advance true, .advance true, .advance false, .get false (some 0),
    .advance false, .advance false, .advance false, .advance false, .advance false, .advance false]

theorem overtakingRun_not_decrypted :
    ∃ s', run (sendStep countingCipher fun _ => 1) (quietSend Bool ℕ .default 1 1)
        overtakingRun = some s' ∧ s'.encrypted.map ticket = [1, 0] ∧
      ¬ DecryptedInOrder countingPeer ⟨0, 1, 0⟩ s' := by
  have hrun : ((run (sendStep countingCipher fun _ => 1) (quietSend Bool ℕ .default 1 1)
      overtakingRun).map fun s' => (s'.encrypted.map ticket,
        Coding.decodeAll countingPeer.receive ⟨0, 1, 0⟩
          ((started s'.socket).map SealedPacket.bytes))) = some ([1, 0], none) := by
    decide
  obtain ⟨s', hs', hresult⟩ := Option.map_eq_some_iff.mp hrun
  obtain ⟨hlog, hnone⟩ := Prod.mk.inj hresult
  refine ⟨s', hs', hlog, ?_⟩
  rintro ⟨-, -, hall⟩
  cases hnone.symm.trans hall

end Runs

end Osns
