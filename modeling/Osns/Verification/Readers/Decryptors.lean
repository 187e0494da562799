import Osns.Verification.Readers.Reference
import Osns.Verification.Receive.Header

/-! The decryptors of the code, as the reading threads use them. -/

namespace Osns

open Result Generic ReadSetup

/-- What the threads share on a connection with a decryptor of `create_ssh_decryptor`. -/
def DecryptActor.readSetup (a : DecryptActor) (env : ReceiveEnv) (behaviour : Behaviour) (maxCount : ℕ) :
    ReadSetup a.Handle where
  env
  behaviour
  decryptor := a.decryptor
  init := a.handle
  maxCount

/-- Decryptors that can work on different messages at the same time: the handle of chacha20-poly1305 starts
anew with every message, and without a cipher and a MAC it is not used. -/
def DecryptActor.Parallel : DecryptActor → Prop
  | generic g _ => g.cipher = none ∧ g.mac = none
  | chacha20 _ _ => True
  | fallback => False

section Lengths

variable {p p' : Packet} {rd : Bytes} {n : ℕ}

def Packet.withBuffer (p : Packet) (buffer : Bytes) : Packet := { p with buffer }

theorem load_append_front (hle : n ≤ rd.length) (more : Bytes) :
    Buffer.load (rd ++ more) 0 n = Buffer.load rd 0 n := by
  rw [load_front hle, load_front (by rw [List.length_append]; omega), List.take_append_of_le_length hle]

/-- The length of a header is decrypted in the same way with more bytes behind it. -/
def ReadsFront {σ : Type} (f : σ → Packet → ℕ → Except Fault (Bytes × σ × Packet)) : Prop :=
  ∀ (h : σ) (p : Packet) (rd more : Bytes) (n : ℕ), n ≤ rd.length → f h (p.withBuffer (rd ++ more)) n =
    (f h (p.withBuffer rd) n).map fun r => (r.1, r.2.1, r.2.2.withBuffer (rd ++ more))

variable {S : Type} {header : Bytes}

theorem Generic.decryptLength_readsFront (c : BlockCipher S) :
    ReadsFront (decryptLength c) := by
  intro h p rd more n hle
  simp only [decryptLength, Packet.withBuffer, load_append_front hle more, load_front hle,
    inBounds_some, ok_bind]
  cases gcryCipherDecrypt c h.cipherState (rd.take n) 0 n with
  | error _ => rfl
  | ok _ => rfl

theorem Generic.decryptLengthNone_readsFront : ReadsFront (decryptLengthNone (S := S)) := by
  intro h p rd more n hle
  simp [decryptLengthNone, Packet.withBuffer, load_append_front hle more, load_front hle, Except.map]

theorem Chacha20Poly1305.decryptLength_readsFront (g : ChachaPoly) :
    ReadsFront (Chacha20Poly1305.decryptLength g) := by
  intro h p rd more n hle
  simp [Chacha20Poly1305.decryptLength, Packet.withBuffer, load_append_front hle more,
    load_front hle, Except.map]

theorem DecryptActor.decryptLength_readsFront (a : DecryptActor) : ReadsFront a.decryptor.decryptLength := by
  cases a with
  | generic g h₀ =>
    cases hc : g.cipher with
    | none =>
      simp only [decryptor, Generic.decryptor, hc]
      exact Generic.decryptLengthNone_readsFront
    | some c =>
      simp only [decryptor, Generic.decryptor, hc]
      exact Generic.decryptLength_readsFront c
  | chacha20 g h₀ => exact Chacha20Poly1305.decryptLength_readsFront g
  | fallback =>
    intro h p rd more n hle
    rfl

variable {h h' : GenericHandle S}

theorem Generic.decryptLength_packet {c : BlockCipher S}
    (hok : decryptLength c h p n = .ok (header, h', p')) :
    p' = { p with decrypted := n } := by
  simp only [decryptLength, bind_eq_ok, pure_eq_ok, Except.ok.injEq, Prod.mk.injEq] at hok
  obtain ⟨_, -, _, -, -, -, rfl⟩ := hok
  rfl

theorem Generic.decryptLengthNone_handle
    (hok : decryptLengthNone h p n = .ok (header, h', p')) :
    h' = h ∧ p' = { p with decrypted := n } := by
  simp only [decryptLengthNone, bind_eq_ok, pure_eq_ok, Except.ok.injEq,
    Prod.mk.injEq] at hok
  obtain ⟨_, -, -, rfl, rfl⟩ := hok
  exact ⟨rfl, rfl⟩

theorem Chacha20Poly1305.decryptLength_handle {g : ChachaPoly} {h h' : ChachaHandle}
    (hok : Chacha20Poly1305.decryptLength g h p n = .ok (header, h', p')) :
    (h'.header.key = h.header.key ∧ h'.packet.key = h.packet.key) ∧ p' = { p with decrypted := n } := by
  simp only [Chacha20Poly1305.decryptLength, bind_eq_ok, pure_eq_ok, Except.ok.injEq,
    Prod.mk.injEq] at hok
  obtain ⟨_, -, -, rfl, rfl⟩ := hok
  exact ⟨⟨rfl, rfl⟩, rfl⟩

theorem DecryptActor.decryptLength_packet (a : DecryptActor) {h h' : a.Handle}
    (hok : a.decryptor.decryptLength h p n = .ok (header, h', p')) : p' = { p with decrypted := n } := by
  cases a with
  | generic g h₀ =>
    cases hc : g.cipher with
    | none =>
      simp only [decryptor, Generic.decryptor, hc] at hok
      exact (Generic.decryptLengthNone_handle hok).2
    | some c =>
      simp only [decryptor, Generic.decryptor, hc] at hok
      exact Generic.decryptLength_packet hok
  | chacha20 g h₀ => exact (Chacha20Poly1305.decryptLength_handle hok).2
  | fallback => cases hok

end Lengths

variable {σ : Type} {c : ReadSetup σ}

theorem ReadSetup.readHeader_append
    (hfront : ReadsFront c.decryptor.decryptLength) (h : σ) (ticket : ℕ) {rd : Bytes} (more : Bytes)
    (hle : c.decryptor.cipherHeadersize ≤ rd.length) :
    c.readHeader h ticket (rd ++ more) = (c.readHeader h ticket rd).map (·.fill (rd ++ more)) := by
  let p : Packet :=
    { len := 0, size := 0, padding := 0, sequence := u32 ticket, decrypted := 0, buffer := rd }
  have heq := hfront h p rd more _ hle
  change c.decryptor.decryptLength h { p with buffer := rd ++ more } c.decryptor.cipherHeadersize =
    (c.decryptor.decryptLength h p c.decryptor.cipherHeadersize).map _ at heq
  unfold readHeader
  rw [heq]
  cases c.decryptor.decryptLength h p c.decryptor.cipherHeadersize with
  | error e => rfl
  | ok r =>
    obtain ⟨tmpheader, h', p'⟩ := r
    dsimp only [Except.map]
    split
    · rfl
    · rfl

variable {m : PendingMessage σ}

theorem ReadSetup.readHeader_eq_some {h : σ} {ticket : ℕ} {rd : Bytes}
    (hm : c.readHeader h ticket rd = some m) :
    ∃ p, c.decryptor.decryptLength h
        { len := 0, size := 0, padding := 0, sequence := u32 ticket, decrypted := 0, buffer := rd }
        c.decryptor.cipherHeadersize = .ok (m.tmpheader, m.handle, p) ∧
      m.packet = { p with len := getUint32 m.tmpheader } := by
  unfold readHeader at hm
  split at hm
  · cases hm
  · next hok =>
    split at hm
    · cases hm
    · cases hm
      exact ⟨_, hok, rfl⟩

theorem ReadSetup.openPending_eq_some {r : σ × Packet} (hopen : c.openPending m = some r) :
    openMessage c.decryptor m.handle m.packet m.tmpheader = .ok r :=
  toOption_eq_some.mp hopen

/-! ## Decryptors side by side -/

theorem Chacha20Poly1305.openMessage_keys {g : ChachaPoly} {h h' : ChachaHandle} {p p' : Packet}
    {tmpheader : Bytes} (hok : openMessage (decryptor g) h p tmpheader = .ok (h', p')) :
    h'.header.key = h.header.key ∧ h'.packet.key = h.packet.key := by
  obtain ⟨h1, buffer, h2, p2, padding, hpre, -, hdec, -, hpost, -⟩ := openMessage_eq_ok.mp hok
  simp only [decryptor, verifyHmacPre, bind_eq_ok, pure_eq_ok, Except.ok.injEq] at hpre
  simp only [decryptor, decryptPacket, inPlace, bind_eq_ok, pure_eq_ok, Except.ok.injEq,
    Prod.mk.injEq] at hdec
  cases hpost
  obtain ⟨_, -, _, -, rfl⟩ := hpre
  obtain ⟨⟨_, _⟩, ⟨_, -, _, -, -, rfl⟩, rfl, -⟩ := hdec
  exact ⟨rfl, rfl⟩

theorem Chacha20Poly1305.interchangeable (g : ChachaPoly) (h₀ : ChachaHandle) (env : ReceiveEnv)
    (behaviour : Behaviour) (maxCount : ℕ) :
    (mk env behaviour (decryptor g) h₀ maxCount).Interchangeable fun h =>
      h.header.key = h₀.header.key ∧ h.packet.key = h₀.packet.key where
  init := ⟨rfl, rfl⟩
  alike := by
    rintro h ⟨hheader, hpacket⟩ ticket rd
    simp [readHeader, decryptor, decryptLength, setSequence_congr g _ hheader hpacket]
  openPending := by
    rintro h ticket rd m bytes ⟨h', p'⟩ ⟨hheader, hpacket⟩ hm hopen
    obtain ⟨p, hok, -⟩ := readHeader_eq_some hm
    obtain ⟨⟨hkey, hkey'⟩, -⟩ := decryptLength_handle hok
    obtain ⟨hopened, hopened'⟩ := openMessage_keys (openPending_eq_some hopen)
    exact ⟨(hopened.trans hkey).trans hheader, (hopened'.trans hkey').trans hpacket⟩

theorem Generic.interchangeable {S : Type} {g : GenericCrypto S} (hcipher : g.cipher = none)
    (hmac : g.mac = none) (h₀ : GenericHandle S) (env : ReceiveEnv) (behaviour : Behaviour) (maxCount : ℕ) :
    (mk env behaviour (decryptor g) h₀ maxCount).Interchangeable fun h => h = h₀ where
  init := rfl
  alike := by
    rintro h rfl ticket rd
    rfl
  openPending := by
    rintro h ticket rd m bytes ⟨h', p'⟩ rfl hm hopen
    obtain ⟨p, hok, -⟩ := readHeader_eq_some hm
    obtain ⟨h1, buffer, h2, p2, padding, hpre, -, hdec, -, hpost, -⟩ :=
      openMessage_eq_ok.mp (openPending_eq_some hopen)
    simp only [decryptor, hcipher] at hok
    simp only [decryptor, hcipher, decryptPacketNone] at hdec
    simp only [decryptor, hmac] at hpost
    cases hpre
    cases hdec
    cases hpost
    exact (decryptLengthNone_handle hok).1

theorem DecryptActor.readSetup_lawful {a : DecryptActor} (env : ReceiveEnv) (behaviour : Behaviour)
    {maxCount : ℕ} (hcount : maxCount = 1 ∨ a.Parallel) :
    (a.readSetup env behaviour maxCount).Lawful where
  header := fun h ticket _ more hle =>
    readHeader_append a.decryptLength_readsFront h ticket more hle
  number := by
    intro h ticket rd m bytes r hm hopen
    obtain ⟨p, hok, hpacket⟩ := readHeader_eq_some hm
    obtain ⟨h1, buffer, h2, p2, padding, -, -, hdec, -, -, heq⟩ :=
      openMessage_eq_ok.mp (openPending_eq_some hopen)
    have hsequence : p2.sequence = m.packet.sequence := (a.decryptPacket_length hdec).2.2
    rw [heq]
    change p2.sequence = u32 ticket
    rw [hsequence, hpacket, a.decryptLength_packet hok]
  long := by
    intro m r hopen
    exact (openMessage_packet a (openPending_eq_some hopen)).2.2
  shared := by
    rcases hcount with hone | hparallel
    · exact .inl hone
    · refine .inr ?_
      cases a with
      | generic g h₀ =>
        obtain ⟨hcipher, hmac⟩ := hparallel
        exact ⟨_, interchangeable hcipher hmac h₀ env behaviour maxCount⟩
      | chacha20 g h₀ => exact ⟨_, Chacha20Poly1305.interchangeable g h₀ env behaviour maxCount⟩
      | fallback => exact absurd hparallel id

end Osns
