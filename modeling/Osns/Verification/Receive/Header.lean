import Osns.Verification.Receive.Trace

/-! The header of the message at the front of the stream, and the message it announces. -/

namespace Osns

open List Result Chacha20Poly1305

namespace DecryptActor

def plainHeader : DecryptActor → ℕ → Bytes → Bytes
  | generic g h, _, bs =>
    match g.cipher with
    | none => bs.take 8
    | some c => (c.decrypt h.cipherState (bs.take c.blklen)).1
  | chacha20 g h, sequence, bs =>
    ((setSequence g h sequence).header.crypt g (bs.take 4)).1
  | fallback, _, _ => []

def afterHeader : DecryptActor → ℕ → Bytes → DecryptActor
  | generic g h, _, bs =>
    match g.cipher with
    | none => generic g h
    | some c =>
      generic g { h with cipherState := (c.decrypt h.cipherState (bs.take c.blklen)).2 }
  | chacha20 g h, sequence, bs =>
    let h := setSequence g h sequence
    chacha20 g { h with header := (h.header.crypt g (bs.take 4)).2 }
  | fallback, _, _ => fallback

def headersize (a : DecryptActor) : ℕ := a.decryptor.cipherHeadersize

def maclen (a : DecryptActor) : ℕ := a.decryptor.hmacMaclen

def announcedSize (a : DecryptActor) (sequence : ℕ) (bs : Bytes) : ℕ :=
  messageSize (a.plainHeader sequence bs) a.maclen

end DecryptActor

theorem Chacha20Poly1305.setSequence_congr (g : ChachaPoly) {h h' : ChachaHandle} (sequence : ℕ)
    (hheader : h.header.key = h'.header.key) (hpacket : h.packet.key = h'.packet.key) :
    setSequence g h sequence = setSequence g h' sequence := by
  simp [setSequence, gcryCipherSetiv, hheader, hpacket]

variable {n : ℕ} {S : Type} {p : Packet} {a : DecryptActor} {s : ReceiveState}

theorem load_front {bs : Bytes} (h : n ≤ bs.length) : Buffer.load bs 0 n = some (bs.take n) := by
  simp [Buffer.load, h]

theorem Generic.decryptLength_eq (c : BlockCipher S) (h : GenericHandle S)
    (hle : c.blklen ≤ p.buffer.length) :
    Generic.decryptLength c h p c.blklen =
      .ok ((c.decrypt h.cipherState (p.buffer.take c.blklen)).1,
        { h with cipherState := (c.decrypt h.cipherState (p.buffer.take c.blklen)).2 },
        { p with decrypted := c.blklen }) := by
  have hlen : (p.buffer.take c.blklen).length = c.blklen := by
    rw [length_take]
    omega
  have hplace := inPlace_append [] (p.buffer.take c.blklen) [] (c.decrypt h.cipherState)
    rfl hlen.symm (c.decrypt_length _ _)
  simp only [nil_append, append_nil, length_nil] at hplace
  simp [Generic.decryptLength, load_front hle, gcryCipherDecrypt,
    c.accepts_whole _ (Nat.dvd_refl _), hplace]

theorem Chacha20Poly1305.decryptLength_eq (g : ChachaPoly) (h : ChachaHandle)
    (hle : n ≤ p.buffer.length) : decryptLength g h p n =
      .ok (((setSequence g h p.sequence).header.crypt g (p.buffer.take n)).1,
        { setSequence g h p.sequence with
            header := ((setSequence g h p.sequence).header.crypt g (p.buffer.take n)).2 },
        { p with decrypted := n }) := by
  simp [decryptLength, load_front hle]

theorem DecryptActor.decryptLength_eq (ha : a ≠ .fallback) (hle : a.headersize ≤ p.buffer.length) :
    ∃ h, a.decryptor.decryptLength a.handle p a.headersize =
        .ok (a.plainHeader p.sequence p.buffer, h, { p with decrypted := a.headersize }) ∧
      a.setHandle h = a.afterHeader p.sequence p.buffer := by
  cases a with
  | generic g h =>
    cases hc : g.cipher with
    | none =>
      have hle : 8 ≤ p.buffer.length := by
        simpa [headersize, decryptor, Generic.decryptor, GenericCrypto.blocksize, hc] using hle
      refine ⟨h, ?_, by simp [setHandle, afterHeader, hc]⟩
      simp only [headersize, decryptor, Generic.decryptor, GenericCrypto.blocksize, hc, plainHeader]
      simp only [Generic.decryptLengthNone, load_front hle, inBounds_some, ok_bind, pure_eq_ok]
      rfl
    | some c =>
      have hle : c.blklen ≤ p.buffer.length := by
        simpa [headersize, decryptor, Generic.decryptor, GenericCrypto.blocksize, hc] using hle
      refine ⟨{ h with cipherState := (c.decrypt h.cipherState (p.buffer.take c.blklen)).2 },
        ?_, by simp [setHandle, afterHeader, hc]⟩
      simp only [headersize, decryptor, Generic.decryptor, GenericCrypto.blocksize, hc, plainHeader]
      exact Generic.decryptLength_eq c h hle
  | chacha20 g h =>
    have hle : 4 ≤ p.buffer.length := hle
    refine ⟨{ setSequence g h p.sequence with
        header := ((setSequence g h p.sequence).header.crypt g
          (p.buffer.take 4)).2 }, ?_, rfl⟩
    exact decryptLength_eq g h hle
  | fallback => exact absurd rfl ha

theorem DecryptActor.afterHeader_generic (g : GenericCrypto S) (h : GenericHandle S)
    (sequence : ℕ) (bs : Bytes) :
    ∃ h', (generic g h).afterHeader sequence bs = generic g h' := by
  cases hc : g.cipher with
  | none => exact ⟨h, by simp [afterHeader, hc]⟩
  | some c => exact ⟨_, by simp only [afterHeader, hc]; rfl⟩

theorem DecryptActor.afterHeader_sizes (a : DecryptActor) (sequence : ℕ) (bs : Bytes) :
    (a.afterHeader sequence bs).headersize = a.headersize ∧
      (a.afterHeader sequence bs).maclen = a.maclen := by
  cases a with
  | generic g h =>
    obtain ⟨h', heq⟩ := afterHeader_generic g h sequence bs
    rw [heq]
    exact ⟨rfl, rfl⟩
  | chacha20 | fallback => exact ⟨rfl, rfl⟩

theorem DecryptActor.length_plainHeader (sequence : ℕ) {bs : Bytes}
    (hle : a.headersize ≤ bs.length) : (a.plainHeader sequence bs).length = a.headersize := by
  cases a with
  | generic g h =>
    change g.blocksize ≤ bs.length at hle
    change _ = g.blocksize
    cases hc : g.cipher with
    | none =>
      simp only [GenericCrypto.blocksize, hc] at hle
      simp only [plainHeader, hc, GenericCrypto.blocksize, length_take]
      omega
    | some c =>
      simp only [GenericCrypto.blocksize, hc] at hle
      simp only [plainHeader, hc, GenericCrypto.blocksize, c.decrypt_length, length_take]
      omega
  | chacha20 g h =>
    change 4 ≤ bs.length at hle
    change _ = 4
    simp only [plainHeader, StreamHandle.length_crypt, length_take]
    omega
  | fallback => rfl

theorem DecryptActor.plainHeader_append {rd : Bytes} (sequence : ℕ)
    (rest : Bytes) (hle : a.headersize ≤ rd.length) :
    a.plainHeader sequence (rd ++ rest) = a.plainHeader sequence rd ∧
      a.afterHeader sequence (rd ++ rest) = a.afterHeader sequence rd := by
  cases a with
  | generic g h =>
    have htake : (rd ++ rest).take g.blocksize = rd.take g.blocksize := take_append_of_le_length hle
    cases hc : g.cipher with
    | none | some =>
      simp only [GenericCrypto.blocksize, hc] at htake
      simp [plainHeader, afterHeader, hc, htake]
  | chacha20 g h =>
    have htake : (rd ++ rest).take 4 = rd.take 4 := take_append_of_le_length hle
    simp [plainHeader, afterHeader, htake]
  | fallback => exact ⟨rfl, rfl⟩

/-- The loop may read, and the header of a message stands at the front of the stream. -/
structure HeaderArrives (s : ReceiveState) : Prop where
  threads : s.threads = 0
  pending : s.rd ≠ []
  actor : s.actor ≠ .fallback
  header : s.actor.headersize ≤ s.stream.length

/-- The whole message arrives, and it is not too large. -/
structure Announces (env : ReceiveEnv) (s : ReceiveState) : Prop extends HeaderArrives s where
  limit : s.actor.announcedSize s.sequenceNumber s.stream < env.maxPacketSize
  message : s.actor.announcedSize s.sequenceNumber s.stream ≤ s.stream.length

/-- The packet that is handed to `openMessage` for that message. -/
def ReceiveState.announced (s : ReceiveState) : Packet where
  len := getUint32 (s.actor.plainHeader s.sequenceNumber s.stream)
  size := 0
  padding := 0
  sequence := s.sequenceNumber
  decrypted := s.actor.headersize
  buffer := s.stream.take (s.actor.announcedSize s.sequenceNumber s.stream)

theorem HeaderArrives.readIteration_eq (env : ReceiveEnv) (h : HeaderArrives s) :
    ∃ rd incoming, rd ++ incoming.flatten = s.stream ∧
      readIteration env s = takeMessage env
        ((s.enter rd incoming).countPacket.setActor (s.actor.afterHeader s.sequenceNumber s.stream))
        s.actor.maclen { (s.enter rd incoming).newPacket with decrypted := s.actor.headersize }
        (s.actor.plainHeader s.sequenceNumber s.stream) := by
  have hidle : ¬ (0 < s.threads ∨ s.rd = []) := by simp [h.threads, h.pending]
  obtain ⟨rd, incoming, hwait, hle, hstream⟩ := waitBytes_of_le h.header
  change rd ++ incoming.flatten = s.stream at hstream
  obtain ⟨handle, hdec, hset⟩ :=
    DecryptActor.decryptLength_eq h.actor (p := (s.enter rd incoming).newPacket) hle
  obtain ⟨hplain, hafter⟩ := DecryptActor.plainHeader_append (a := s.actor) s.sequenceNumber
    incoming.flatten hle
  rw [hstream] at hplain hafter
  have hpacket := readPacket_of_ok env (s := s.enter rd incoming) hdec
  change readPacket env _ = takeMessage env ((s.enter rd incoming).countPacket.setActor
    (s.actor.setHandle handle)) s.actor.maclen _ (s.actor.plainHeader s.sequenceNumber rd)
    at hpacket
  change s.actor.setHandle handle = s.actor.afterHeader s.sequenceNumber rd at hset
  rw [← hplain, hset, ← hafter] at hpacket
  exact ⟨rd, incoming, hstream, (readIteration_of_wait hidle hwait).trans hpacket⟩

variable {env : ReceiveEnv}

theorem HeaderArrives.readIteration_tooLarge (h : HeaderArrives s)
    (hlarge : env.maxPacketSize ≤ s.actor.announcedSize s.sequenceNumber s.stream) :
    ∃ s', readIteration env s = .next s' (some .eio) ∧ s'.trace = s.trace := by
  obtain ⟨rd, incoming, -, hiter⟩ := h.readIteration_eq env
  exact ⟨_, hiter.trans (if_pos hlarge), rfl⟩

theorem Announces.readIteration_eq (h : Announces env s) :
    ∃ s', readIteration env s = readMessage env s' s.announced
        (s.actor.plainHeader s.sequenceNumber s.stream) ∧
      s'.actor = s.actor.afterHeader s.sequenceNumber s.stream ∧ s'.trace = s.trace := by
  obtain ⟨rd, incoming, hstream, hiter⟩ := h.toHeaderArrives.readIteration_eq env
  have hmessage : s.actor.announcedSize s.sequenceNumber s.stream ≤
      (rd ++ incoming.flatten).length := by
    rw [hstream]
    exact h.message
  obtain ⟨rd', incoming', hwait, hle, hstream'⟩ := waitBytes_of_le hmessage
  rw [hstream] at hstream'
  have htake : ∀ n ≤ rd'.length, rd'.take n = s.stream.take n := by
    intro n hn
    rw [← hstream', take_append_of_le_length hn]
  have htaken := takeMessage_of_wait
    (s := (s.enter rd incoming).countPacket.setActor
      (s.actor.afterHeader s.sequenceNumber s.stream))
    (p := { (s.enter rd incoming).newPacket with decrypted := s.actor.headersize })
    h.limit hwait
  change takeMessage env _ s.actor.maclen _ _ = readMessage env _
    { (s.enter rd incoming).newPacket with
        decrypted := s.actor.headersize, len := _
        buffer := rd'.take (s.actor.announcedSize s.sequenceNumber s.stream) } _ at htaken
  rw [htake _ hle] at htaken
  exact ⟨_, hiter.trans htaken, rfl, rfl⟩

end Osns
