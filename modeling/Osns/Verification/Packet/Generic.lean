import Osns.Verification.Receive.Opening

/-! Packets of the generic operations, and the ciphers and MACs with which they reach the
receiver. -/

namespace Osns

open Buffer List Option Result GenericCrypto

variable {random : ℕ → UInt8} {payload : Bytes}

theorem writeSshPacket_sizes {σ : Type} {e : Encryptor σ} {h : σ}
    {sequence padding : ℕ} {r : σ × Packet}
    (hok : writeSshPacket e random h sequence payload = .ok r)
    (hpadding : e.getMessagePadding (payload.length + 5) = padding) :
    5 + payload.length + padding < 2 ^ 32 ∧
      ∃ p, p.len = 5 + payload.length + padding ∧
        p.buffer.length = u32 (p.len + e.hmacMaclen) ∧
        ∃ h1 p1, e.writeHmacPre h p = .ok (h1, p1) ∧
          ∃ h2 p2, e.encryptPacket h1 p1 = .ok (h2, p2) ∧ e.writeHmacPost h2 p2 = .ok r := by
  simp only [writeSshPacket, bind_eq_ok, inBounds_eq_ok] at hok
  obtain ⟨b1, hb1, b2, hb2, b3, hb3, b4, hb4, ⟨h1, p1⟩, hpre, ⟨h2, p2⟩, henc, hpost⟩ := hok
  have hl1 := length_of_store hb1
  have hl2 := length_of_store hb2
  have hl3 := length_of_store hb3
  have hl4 := length_of_store hb4
  have hle3 := (store_eq_some_iff.mp hb3).1
  have hle4 := (store_eq_some_iff.mp hb4).1
  have hsize := u32_lt (u32 (5 + payload.length +
    e.getMessagePadding (u32 (payload.length + 5))) + e.hmacMaclen)
  rw [length_replicate] at hl1
  have hlen5 : u32 (payload.length + 5) = payload.length + 5 := u32_of_lt (by omega)
  rw [length_fillRandom, hlen5, hpadding] at hle4
  rw [hlen5, hpadding] at hl1 hsize hpre
  have hlen : u32 (5 + payload.length + padding) = 5 + payload.length + padding :=
    u32_of_lt (by omega)
  rw [hlen] at hl1 hsize hpre
  refine ⟨by omega, _, rfl, ?_, h1, p1, hpre, h2, p2, henc, hpost⟩
  simp only
  omega

namespace Generic

variable {S : Type}

section Sender

variable (g : GenericCrypto S) (h : GenericHandle S)

def tagOf (sequence : ℕ) (plain : Bytes) : Bytes :=
  match g.mac with
  | none => []
  | some m => m.mac (h.written ++ storeUint32 sequence ++ plain)

theorem length_tagOf (sequence : ℕ) (plain : Bytes) :
    (tagOf g h sequence plain).length = g.maclen := by
  cases hm : g.mac with
  | none => simp [tagOf, maclen, hm]
  | some m => simp [tagOf, maclen, hm, m.mac_length]

/-- Encryption without effect, which the method "none" and an identity cipher share. -/
def Clear : Prop :=
  ∀ c, g.cipher = some c → ∀ s xs, c.encrypt s xs = (xs, s) ∧ c.decrypt s xs = (xs, s)

variable {h1 : GenericHandle S}

theorem writeHmacPre_packet {p p1 : Packet} (hok : (encryptor g).writeHmacPre h p = .ok (h1, p1)) :
    p1 = p := by
  cases hm : g.mac with
  | none =>
    simp only [encryptor, hm, writeHmacNone, Except.ok.injEq, Prod.mk.injEq] at hok
    exact hok.2.symm
  | some m =>
    simp only [encryptor, hm, writeHmacPre, bind_eq_ok, pure_eq_ok,
      Except.ok.injEq, Prod.mk.injEq] at hok
    obtain ⟨data, -, -, rfl⟩ := hok
    rfl

theorem encryptPacket_packet {p p1 : Packet} (hok : (encryptor g).encryptPacket h p = .ok (h1, p1)) :
    p1.len = p.len ∧ p1.buffer.length = p.buffer.length ∧
      ∀ c, g.cipher = some c → c.acceptsLen p.len = true := by
  cases hc : g.cipher with
  | none =>
    simp only [encryptor, hc, encryptPacketNone, Except.ok.injEq, Prod.mk.injEq] at hok
    obtain ⟨-, rfl⟩ := hok
    exact ⟨rfl, rfl, by simp⟩
  | some c =>
    simp only [encryptor, hc, encryptPacket, bind_eq_ok, pure_eq_ok,
      Except.ok.injEq, Prod.mk.injEq] at hok
    obtain ⟨⟨buffer, state⟩, henc, -, rfl⟩ := hok
    unfold gcryCipherEncrypt at henc
    split at henc
    next haccepts =>
      refine ⟨rfl, inPlace_length henc, ?_⟩
      intro c' hc'
      cases hc'
      exact haccepts
    next => cases henc

variable {p : Packet} {r : GenericHandle S × Packet}

theorem writeHmacPost_bounds_send (hok : (encryptor g).writeHmacPost h p = .ok r) :
    g.mac = none ∨ p.len + g.maclen ≤ p.buffer.length := by
  cases hm : g.mac with
  | none => exact .inl rfl
  | some m =>
    simp only [encryptor, hm, writeHmacPost, bind_eq_ok, inBounds_eq_ok] at hok
    obtain ⟨buffer, hstore, -⟩ := hok
    have hle := (store_eq_some_iff.mp hstore).1
    rw [m.mac_length] at hle
    simp only [maclen, hm]
    exact .inr hle

theorem sizes_of_write {sequence : ℕ}
    (hok : writeSshPacket (encryptor g) random h sequence payload = .ok r) :
    5 + payload.length + getMessagePadding g.blocksize (payload.length + 5) + g.maclen < 2 ^ 32 ∧
      ∀ c, g.cipher = some c → c.acceptsLen
        (5 + payload.length + getMessagePadding g.blocksize (payload.length + 5)) = true := by
  obtain ⟨hlt, p, hlen, hbuf, h1, p1, hpre, h2, p2, henc, hpost⟩ := writeSshPacket_sizes hok rfl
  obtain rfl := writeHmacPre_packet g h hpre
  obtain ⟨hlen2, hbuf2, haccepts⟩ := encryptPacket_packet g h1 henc
  rw [hlen] at haccepts hlen2 hbuf
  refine ⟨?_, haccepts⟩
  change _ + getMessagePadding g.blocksize (payload.length + 5) < 2 ^ 32 at hlt
  rcases writeHmacPost_bounds_send g h2 hpost with hm | hle
  · simp only [maclen, hm]
    exact hlt
  · rw [hlen2, hbuf2, hbuf] at hle
    exact Nat.lt_of_le_of_lt hle (u32_lt _)

variable {g} {plain rest : Bytes}

theorem encryptPacket_clear (hclear : Clear g) (hbuf : p.buffer = plain ++ rest)
    (hlen : p.len = plain.length)
    (haccepts : ∀ c, g.cipher = some c → c.acceptsLen plain.length = true) :
    (encryptor g).encryptPacket h p = .ok (h, p) := by
  cases hc : g.cipher with
  | none => simp [encryptor, hc, encryptPacketNone]
  | some c =>
    have hplace := inPlace_append [] plain rest (c.encrypt h.cipherState) rfl rfl
      (c.encrypt_length _ _)
    simp only [nil_append, length_nil, (hclear c hc _ _).1] at hplace
    simp only [encryptor, hc, encryptPacket, hbuf, hlen, gcryCipherEncrypt, haccepts c hc,
      if_true, hplace, ok_bind, pure_eq_ok]
    rw [← hbuf, ← hlen]

def afterHmacPre (g : GenericCrypto S) (sequence : ℕ) (plain : Bytes) : GenericHandle S :=
  match g.mac with
  | none => h
  | some _ => { h with written := h.written ++ storeUint32 sequence ++ plain }

theorem writeHmacPre_eq (hbuf : p.buffer = plain ++ rest) (hlen : p.len = plain.length) :
    (encryptor g).writeHmacPre h p = .ok (afterHmacPre h g p.sequence plain, p) := by
  cases hm : g.mac with
  | none => simp [encryptor, hm, writeHmacNone, afterHmacPre]
  | some m =>
    have hload := load_append [] plain rest rfl rfl
    simp only [nil_append, length_nil] at hload
    simp only [encryptor, hm, writeHmacPre, hbuf, hlen, hload, inBounds_some, ok_bind,
      pure_eq_ok, GenericHandle.gcryMacWrite, afterHmacPre]

theorem writeHmacPost_eq {room : Bytes} (hbuf : p.buffer = plain ++ room)
    (hlen : p.len = plain.length) (hroom : room.length = g.maclen) :
    (encryptor g).writeHmacPost (afterHmacPre h g p.sequence plain) p =
      .ok (afterHmacPre h g p.sequence plain,
        { p with buffer := plain ++ tagOf g h p.sequence plain }) := by
  cases hm : g.mac with
  | none =>
    simp only [maclen, hm] at hroom
    simp only [encryptor, hm, writeHmacNone, tagOf]
    rw [append_nil, ← append_nil plain, ← eq_nil_of_length_eq_zero hroom, ← hbuf]
  | some m =>
    simp only [maclen, hm] at hroom
    have hstore := store_append plain room []
      (m.mac (h.written ++ storeUint32 p.sequence ++ plain)) hlen
      ((m.mac_length _).trans hroom.symm)
    simp only [append_nil] at hstore
    simp only [encryptor, hm, writeHmacPost, afterHmacPre, hbuf, hstore, inBounds_some,
      ok_bind, pure_eq_ok, tagOf]

theorem write_clear (hclear : Clear g) (random : ℕ → UInt8) (sequence : ℕ) (payload : Bytes)
    {n : ℕ} (hn : getMessagePadding g.blocksize (payload.length + 5) = n)
    (hsize : 5 + payload.length + n + g.maclen < 2 ^ 32)
    (haccepts : ∀ c, g.cipher = some c → c.acceptsLen (5 + payload.length + n) = true) :
    ∃ h' p, writeSshPacket (encryptor g) random h sequence payload = .ok (h', p) ∧
      p.buffer = plainPacket payload (fillRandom random n) ++
        tagOf g h sequence (plainPacket payload (fillRandom random n)) := by
  have hwrite := writeSshPacket_eq (encryptor g) random h sequence payload hn hsize
  have hlen : (initialPacket (encryptor g) random sequence payload n).len =
      (plainPacket payload (fillRandom random n)).length := by
    simp [initialPacket]
  have hbuf : (initialPacket (encryptor g) random sequence payload n).buffer =
      plainPacket payload (fillRandom random n) ++ replicate g.maclen 0 := rfl
  have hpre := writeHmacPre_eq (g := g) h hbuf hlen
  have henc := encryptPacket_clear (afterHmacPre h g sequence
    (plainPacket payload (fillRandom random n))) hclear hbuf hlen (by simpa using haccepts)
  have hpost := writeHmacPost_eq (g := g) h hbuf hlen length_replicate
  rw [hpre, ok_bind] at hwrite
  change writeSshPacket _ _ _ _ _ = ((encryptor g).encryptPacket (afterHmacPre h g sequence _) _ >>= _)
    at hwrite
  rw [henc, ok_bind] at hwrite
  exact ⟨_, _, hwrite.trans hpost, rfl⟩

end Sender

section Receiver

variable {env : ReceiveEnv} {s : ReceiveState} {g : GenericCrypto S} {h : GenericHandle S}
  {payload padding tag rest : Bytes}

theorem afterHeader_clear (hclear : Clear g) (hactor : s.actor = .generic g h) :
    s.actor.plainHeader s.sequenceNumber s.stream = s.stream.take g.blocksize ∧
      s.actor.afterHeader s.sequenceNumber s.stream = .generic g h := by
  rw [hactor]
  cases hc : g.cipher with
  | none => simp [DecryptActor.plainHeader, DecryptActor.afterHeader, hc, blocksize]
  | some c =>
    simp [DecryptActor.plainHeader, DecryptActor.afterHeader, hc, blocksize, (hclear c hc _ _).2]

/-- A message whose packet arrives unencrypted. -/
structure StartsClear (g : GenericCrypto S) (h : GenericHandle S) (payload padding tag : Bytes)
    (s : ReceiveState) : Prop where
  clear : Clear g
  actor : s.actor = .generic g h
  stream : ∃ rest, s.stream = plainPacket payload padding ++ tag ++ rest
  tag : tag.length = g.maclen
  size : 5 + payload.length + padding.length + g.maclen < 2 ^ 32
  header : g.blocksize ≤ 5 + payload.length + padding.length
  threads : s.threads = 0
  pending : s.rd ≠ []

variable (hs : StartsClear g h payload padding tag s)

include hs

theorem StartsClear.announced_len : s.announced.len = 1 + payload.length + padding.length := by
  obtain ⟨rest, hrest⟩ := hs.stream
  have hsize := hs.size
  have hbs := g.blocksize_ge
  change getUint32 (s.actor.plainHeader s.sequenceNumber s.stream) = _
  rw [(afterHeader_clear hs.clear hs.actor).1, getUint32_take (by omega), hrest, plainPacket]
  simp only [append_assoc]
  rw [getUint32_store, u32_of_lt (by omega)]

theorem StartsClear.announcedSize_eq : s.actor.announcedSize s.sequenceNumber s.stream =
    5 + payload.length + padding.length + g.maclen := by
  have hsize := hs.size
  have hlen := hs.announced_len
  have hmaclen : s.actor.maclen = g.maclen := by rw [hs.actor]; rfl
  change getUint32 (s.actor.plainHeader s.sequenceNumber s.stream) = _ at hlen
  rw [DecryptActor.announcedSize, messageSize, hlen, hmaclen, u32_of_lt (by omega)]
  omega

theorem StartsClear.announced_buffer : s.announced.buffer = plainPacket payload padding ++ tag := by
  obtain ⟨rest, hrest⟩ := hs.stream
  simp only [ReceiveState.announced, hs.announcedSize_eq]
  rw [hrest]
  apply take_left'
  rw [length_append, length_plainPacket, hs.tag]

theorem StartsClear.headerArrives : HeaderArrives s ∧
    s.actor.announcedSize s.sequenceNumber s.stream ≤ s.stream.length := by
  obtain ⟨rest, hrest⟩ := hs.stream
  have hlong : 5 + payload.length + padding.length + g.maclen ≤ s.stream.length := by
    rw [hrest, length_append, length_append, length_plainPacket, hs.tag]
    omega
  have hheader : s.actor.headersize = g.blocksize := by rw [hs.actor]; rfl
  have hblock := hs.header
  refine ⟨⟨hs.threads, hs.pending, ?_, by omega⟩, by rw [hs.announcedSize_eq]; exact hlong⟩
  rw [hs.actor]
  simp

theorem StartsClear.outcome_eq : announcedOutcome env s =
    messageOutcome env (.generic g h) s.announced (s.stream.take g.blocksize) := by
  obtain ⟨hplain, hafter⟩ := afterHeader_clear hs.clear hs.actor
  rw [announcedOutcome, hplain, hafter]

theorem StartsClear.opened (haccepted : Accepted env s payload) :
    5 + payload.length + padding.length + g.maclen < env.maxPacketSize ∧
      ∃ h' p' out, openMessage (decryptor g) h s.announced (s.stream.take g.blocksize) =
          .ok (h', p') ∧ decompressPacket env p' = .ok (some out) ∧ out.buffer = payload := by
  obtain ⟨harrives, hmessage⟩ := hs.headerArrives
  obtain ⟨hlimit, m, hm, hpayload⟩ := harrives.outcome_of_accepted hmessage haccepted
  rw [hs.announcedSize_eq] at hlimit
  rw [hs.outcome_eq] at hm
  obtain ⟨h', p', hopen, hdec⟩ := messageOutcome_eq_payload hm
  exact ⟨hlimit, h', p', m.payload, hopen, hdec, hpayload⟩

theorem StartsClear.store_header :
    store s.announced.buffer 0 (s.stream.take g.blocksize) = some s.announced.buffer := by
  obtain ⟨rest, hrest⟩ := hs.stream
  have hle : g.blocksize ≤ s.announced.buffer.length := by
    rw [hs.announced_buffer, length_append, length_plainPacket]
    exact Nat.le_add_right_of_le hs.header
  have htake : s.stream.take g.blocksize = s.announced.buffer.take g.blocksize := by
    rw [hrest, ← hs.announced_buffer, take_append_of_le_length hle]
  have hlen : (s.announced.buffer.take g.blocksize).length = g.blocksize := length_take_of_le hle
  rw [htake, store_eq_some_iff, hlen, Nat.zero_add, take_zero, nil_append]
  exact ⟨hle, take_append_drop _ _⟩

theorem StartsClear.announced_sizes : s.announced.decrypted = g.blocksize ∧
    s.announced.sequence = s.sequenceNumber ∧
    s.announced.buffer.length = s.announced.len + 4 + g.maclen := by
  refine ⟨by simp only [ReceiveState.announced, hs.actor]; rfl, rfl, ?_⟩
  rw [hs.announced_buffer, hs.announced_len, length_append, length_plainPacket, hs.tag]
  omega

variable {h' : GenericHandle S}

/-- A cipher that insists on whole blocks can not decrypt the rest of a packet of whole
blocks: the packet length leaves the length field out. -/
theorem StartsClear.cipher_accepts {p' : Packet} {c : BlockCipher S}
    (hopen : openMessage (decryptor g) h s.announced (s.stream.take g.blocksize) = .ok (h', p'))
    (hc : g.cipher = some c) :
    c.blklen ≤ 1 + payload.length + padding.length ∧
      c.acceptsLen (1 + payload.length + padding.length - c.blklen) = true := by
  obtain ⟨hdecrypted, -, hlength⟩ := hs.announced_sizes
  have hsize := hs.size
  have hlen := hs.announced_len
  have hblk : g.blocksize = c.blklen := by simp [blocksize, hc]
  have hheader : (s.stream.take g.blocksize).length = g.blocksize := by
    obtain ⟨harrives, -⟩ := hs.headerArrives
    have hle := harrives.header
    rw [hs.actor] at hle
    exact length_take_of_le hle
  obtain ⟨-, -, hrest⟩ := Generic.sizes_of_open hopen hheader hdecrypted (by omega)
    (by rw [hlength, u32_of_lt (by omega)])
  have hle := hrest c hc
  obtain ⟨h1, buffer, h2, p2, b, -, -, hdec, -⟩ := openMessage_eq_ok.mp hopen
  simp only [decryptor, hc, decryptPacket, bind_eq_ok] at hdec
  obtain ⟨r, hdec, -⟩ := hdec
  rw [hdecrypted, hblk, u32Sub_of_le (by omega) hle, hlen] at hdec
  rw [hlen] at hle
  refine ⟨hle, ?_⟩
  unfold gcryCipherDecrypt at hdec
  split at hdec
  next haccepts => exact haccepts
  next => cases hdec

/-- The receiver computes the MAC without the last four bytes of the packet, and looks for the
tag in their place. -/
theorem StartsClear.mac_verifies {p' : Packet} {m : Mac}
    (hopen : openMessage (decryptor g) h s.announced (s.stream.take g.blocksize) = .ok (h', p'))
    (hc : g.cipher = none) (hm : g.mac = some m) :
    (s.announced.buffer.drop s.announced.len).take m.maclen =
      m.mac (h.written ++ storeUint32 s.sequenceNumber ++
        s.announced.buffer.take s.announced.len) := by
  obtain ⟨h1, buffer, h2, p2, b, hpre, hstore, hdec, -, hpost, -⟩ := openMessage_eq_ok.mp hopen
  rw [hs.store_header, some.injEq] at hstore
  subst hstore
  simp only [decryptor, verifyHmacNone, Except.ok.injEq] at hpre
  simp only [decryptor, hc, decryptPacketNone, Except.ok.injEq, Prod.mk.injEq] at hdec
  obtain ⟨rfl, rfl⟩ := hdec
  subst hpre
  simp only [decryptor, hm, verifyHmacPost, GenericHandle.gcryMacWrite, bind_eq_ok,
    inBounds_eq_ok, gcryMacVerify_eq_ok] at hpost
  obtain ⟨data, hdata, u, hverify, -⟩ := hpost
  obtain ⟨-, rfl⟩ := load_eq_some_iff.mp hdata
  obtain ⟨-, hfound⟩ := load_eq_some_iff.mp hverify
  rwa [m.mac_length, drop_zero] at hfound

theorem StartsClear.open_plain (hc : g.cipher = none) (hm : g.mac = none)
    (hhigh : padding.length < 2 ^ 8) :
    openMessage (decryptor g) h s.announced (s.stream.take g.blocksize) =
      .ok (h, { s.announced with padding := padding.length }) := by
  have hbyte : (UInt8.ofNat padding.length).toNat = padding.length := by
    rw [UInt8.toNat_ofNat', Nat.mod_eq_of_lt hhigh]
  refine openMessage_eq_ok.mpr ⟨h, s.announced.buffer, h, s.announced,
    UInt8.ofNat padding.length, rfl, hs.store_header, ?_, ?_, ?_, by rw [hbyte]⟩
  · simp [decryptor, hc, decryptPacketNone]
  · rw [hs.announced_buffer]
    rfl
  · simp [decryptor, hm, verifyHmacNone]

theorem StartsClear.accepted_plain (hc : g.cipher = none) (hm : g.mac = none)
    (hhigh : padding.length < 2 ^ 8) (hmalloc : env.malloc payload.length = true)
    (hlimit : 5 + payload.length + padding.length < env.maxPacketSize) :
    Accepted env s payload := by
  obtain ⟨harrives, hmessage⟩ := hs.headerArrives
  have hmaclen : g.maclen = 0 := by simp [maclen, hm]
  have hannounces : Announces env s :=
    { harrives with
        limit := by rw [hs.announcedSize_eq, hmaclen]; exact hlimit
        message := hmessage }
  have hsize := hs.size
  have hlen := hs.announced_len
  have hbuf := hs.announced_buffer
  rw [plainPacket, append_assoc _ padding] at hbuf
  have hpayload := decompressPacket_eq env
    (p := { s.announced with padding := padding.length }) hbuf rfl hlen
    (show s.announced.len < 2 ^ 32 by omega) hmalloc
  have houtcome := messageOutcome_of_ok (a := .generic g h) (hs.open_plain hc hm hhigh) hpayload
  rw [← hs.outcome_eq] at houtcome
  exact hannounces.accepted houtcome

end Receiver

/-! ## Round trip -/

def identityCipher (blklen : ℕ) (h : 8 ≤ blklen) : BlockCipher Unit where
  blklen := blklen
  blklen_ge := h
  acceptsLen := fun n => decide (blklen ∣ n)
  encrypt := fun s xs => (xs, s)
  decrypt := fun s xs => (xs, s)
  accepts_whole := by simp
  encrypt_length := fun _ _ => rfl
  decrypt_length := fun _ _ => rfl
  encrypt_append := fun _ _ _ _ _ => rfl
  decrypt_encrypt := fun _ _ _ => rfl

/-- A MAC that only tells inputs of `n` bytes from others. -/
def lengthMac (n maclen : ℕ) (h : 0 < maclen) : Mac where
  maclen := maclen
  maclen_pos := h
  mac := fun xs => replicate maclen (if xs.length = n then 0 else 1)
  mac_length := fun _ => length_replicate

/-- The block size of a cipher and the length of a MAC; none for the methods named "none". -/
structure CryptoSizes where
  blklen : Option ℕ
  maclen : Option ℕ
  blklen_ge : ∀ n ∈ blklen, 8 ≤ n
  maclen_pos : ∀ n ∈ maclen, 0 < n

def CryptoSizes.Of (z : CryptoSizes) (g : GenericCrypto S) : Prop :=
  g.cipher.map BlockCipher.blklen = z.blklen ∧ g.mac.map Mac.maclen = z.maclen

/-- With every cipher and MAC of the given sizes, and any state of their handles, the packet
of the payload is accepted. -/
def AlwaysRoundTrips (env : ReceiveEnv) (z : CryptoSizes) (sequence : ℕ) (payload : Bytes) : Prop :=
  ∀ (S : Type) (g : GenericCrypto S) (h : GenericHandle S) (random : ℕ → UInt8), z.Of g →
    RoundTrips env (encryptor g) h (.generic g h) random sequence payload

section

variable (z : CryptoSizes)

def clearCrypto (n : ℕ) : GenericCrypto Unit where
  cipher := z.blklen.pmap identityCipher z.blklen_ge
  mac := z.maclen.pmap (lengthMac n) z.maclen_pos

theorem clearCrypto_of (n : ℕ) : z.Of (clearCrypto z n) := by
  obtain ⟨blklen, maclen, hblklen, hmaclen⟩ := z
  constructor
  · cases blklen <;> rfl
  · cases maclen <;> rfl

theorem clearCrypto_clear (n : ℕ) : Clear (clearCrypto z n) := by
  intro c hc s xs
  obtain ⟨b, hb, -, rfl⟩ := pmap_eq_some_iff.mp hc
  exact ⟨rfl, rfl⟩

def CryptoSizes.blocksize : ℕ := z.blklen.getD 8

theorem clearCrypto_blocksize (n : ℕ) :
    (clearCrypto z n).blocksize = z.blocksize := by
  obtain ⟨blklen, maclen, hblklen, hmaclen⟩ := z
  cases blklen <;> rfl

def CryptoSizes.packetLength (payload : Bytes) : ℕ :=
  5 + payload.length + getMessagePadding z.blocksize (payload.length + 5)

end

variable {z : CryptoSizes}

theorem clearCrypto_header {n : ℕ}
    (haccepts : ∀ c, (clearCrypto z n).cipher = some c →
      c.acceptsLen (z.packetLength payload) = true) : z.blocksize ≤ z.packetLength payload := by
  cases hb : z.blklen with
  | none =>
    have hspec := getMessagePadding_spec 8 (payload.length + 5) (by decide) (by decide)
    simp only [CryptoSizes.packetLength, CryptoSizes.blocksize, hb, getD_none]
    omega
  | some b =>
    have hdvd := haccepts (identityCipher b (z.blklen_ge b hb))
      (pmap_eq_some_iff.mpr ⟨b, _, hb, rfl⟩)
    have hdvd : b ∣ z.packetLength payload := of_decide_eq_true hdvd
    have hle := Nat.le_of_dvd (by unfold CryptoSizes.packetLength; omega) hdvd
    simpa only [CryptoSizes.blocksize, hb, getD_some] using hle

variable {env : ReceiveEnv}

/-- A packet that makes the round trip without effective encryption starts a stream that is
accepted. -/
theorem starts_of_roundTrips {n sequence : ℕ}
    {h : GenericHandle Unit}
    (hround : RoundTrips env (encryptor (clearCrypto z n)) h (.generic (clearCrypto z n) h)
      random sequence payload) :
    (∀ c, (clearCrypto z n).cipher = some c → c.acceptsLen (z.packetLength payload) = true) ∧
      ∃ s tag, StartsClear (clearCrypto z n) h payload (fillRandom random
          (getMessagePadding z.blocksize (payload.length + 5))) tag s ∧
        Accepted env s payload := by
  obtain ⟨h', p, hwrite, haccept⟩ := hround
  obtain ⟨hsize, haccepts⟩ := sizes_of_write _ _ hwrite
  obtain ⟨h'', p', hwrite', hbuf⟩ := write_clear h (clearCrypto_clear z n) random sequence payload
    rfl hsize haccepts
  obtain ⟨rfl, rfl⟩ := Prod.mk.inj (Except.ok.inj (hwrite.symm.trans hwrite'))
  have hpending : p.buffer ≠ [] := by
    intro hnil
    have hlen := congrArg length (hbuf.symm.trans hnil)
    simp at hlen
  rw [clearCrypto_blocksize] at hsize haccepts hbuf
  have hstarts : StartsClear (clearCrypto z n) h payload
      (fillRandom random (getMessagePadding z.blocksize (payload.length + 5)))
      (tagOf (clearCrypto z n) h sequence (plainPacket payload
        (fillRandom random (getMessagePadding z.blocksize (payload.length + 5)))))
      (readyState (.generic (clearCrypto z n) h) sequence p.buffer) :=
    { clear := clearCrypto_clear z n
      actor := rfl
      stream := ⟨[], by rw [readyState_stream, append_nil]; exact hbuf⟩
      tag := length_tagOf _ _ _ _
      size := by rw [length_fillRandom]; exact hsize
      header := by rw [length_fillRandom, clearCrypto_blocksize]; exact clearCrypto_header haccepts
      threads := rfl
      pending := hpending }
  exact ⟨haccepts, _, _, hstarts, haccept _ [] rfl hpending rfl rfl (by simp)⟩

section Necessary

variable {env : ReceiveEnv} {z : CryptoSizes} {sequence : ℕ} {payload : Bytes}

theorem blklen_eq_none (h : AlwaysRoundTrips env z sequence payload) : z.blklen = none := by
  obtain ⟨haccepts, s, tag, hs, haccepted⟩ := starts_of_roundTrips
    (h Unit (clearCrypto z 0) { cipherState := (), written := [] } (fun _ => 0)
      (clearCrypto_of z 0))
  obtain ⟨-, h', p', out, hopen, -, -⟩ := hs.opened haccepted
  cases hb : z.blklen with
  | none => rfl
  | some b =>
    have hge := z.blklen_ge b hb
    have hc : (clearCrypto z 0).cipher = some (identityCipher b hge) :=
      pmap_eq_some_iff.mpr ⟨b, _, hb, rfl⟩
    have hwhole : b ∣ z.packetLength payload := of_decide_eq_true (haccepts _ hc)
    obtain ⟨hle, hrest⟩ := hs.cipher_accepts hopen hc
    have hrest : b ∣ _ - b := of_decide_eq_true hrest
    rw [length_fillRandom] at hrest hle
    change b ≤ _ at hle
    have hdvd := Nat.dvd_sub hwhole hrest
    have hfour : z.packetLength payload - (1 + payload.length +
        getMessagePadding z.blocksize (payload.length + 5) - b) = b + 4 := by
      unfold CryptoSizes.packetLength
      omega
    rw [hfour, Nat.dvd_add_right (Nat.dvd_refl b)] at hdvd
    have hle4 := Nat.le_of_dvd (by decide) hdvd
    omega

theorem StartsClear.tag_place {S : Type} {g : GenericCrypto S} {h : GenericHandle S} {tag : Bytes}
    {n : ℕ} {s : ReceiveState}
    (hs : StartsClear g h payload (fillRandom (fun _ => 0) n) tag s) (hn : 4 ≤ n) :
    s.announced.buffer[s.announced.len]? = some 0 := by
  have hlen := hs.announced_len
  rw [length_fillRandom] at hlen
  have hzeros : fillRandom (fun _ => 0) n = replicate n 0 := by
    simp [fillRandom, map_const']
  rw [hs.announced_buffer, getElem?_append_left (by simp; omega), plainPacket,
    getElem?_append_right (by simp; omega), hzeros, getElem?_replicate]
  simp only [length_append, length_storeUint32, length_singleton]
  rw [if_pos (by omega)]

theorem maclen_eq_none (h : AlwaysRoundTrips env z sequence payload) : z.maclen = none := by
  have hb := blklen_eq_none h
  obtain ⟨-, s, tag, hs, haccepted⟩ := starts_of_roundTrips
    (h Unit (clearCrypto z (4 + z.packetLength payload)) { cipherState := (), written := [] }
      (fun _ => 0) (clearCrypto_of z _))
  obtain ⟨-, h', p', out, hopen, -, -⟩ := hs.opened haccepted
  cases hm : z.maclen with
  | none => rfl
  | some k =>
    have hpos := z.maclen_pos k hm
    have hspec := getMessagePadding_spec 8 (payload.length + 5) (by decide) (by decide)
    have hblock : z.blocksize = 8 := by simp [CryptoSizes.blocksize, hb]
    have hzero := hs.tag_place (by rw [hblock]; exact hspec.1)
    have hverify := hs.mac_verifies hopen (m := lengthMac (4 + z.packetLength payload) k hpos)
      (by simp [clearCrypto, hb]) (pmap_eq_some_iff.mpr ⟨k, _, hm, rfl⟩)
    obtain ⟨-, -, hlength⟩ := hs.announced_sizes
    have hlen := hs.announced_len
    rw [length_fillRandom] at hlen
    have hinput : ([] ++ storeUint32 s.sequenceNumber ++
        s.announced.buffer.take s.announced.len).length ≠ 4 + z.packetLength payload := by
      rw [length_append, nil_append, length_storeUint32,
        length_take_of_le (by omega), hlen, CryptoSizes.packetLength]
      omega
    have hfirst := congrArg (fun xs : Bytes => xs[0]?) hverify
    simp only [lengthMac, hinput, if_false, getElem?_take_of_lt hpos, getElem?_drop,
      Nat.add_zero, hzero, getElem?_replicate_of_lt hpos] at hfirst
    cases hfirst

theorem plain_of_alwaysRoundTrips (h : AlwaysRoundTrips env z sequence payload) :
    env.malloc payload.length = true ∧ z.packetLength payload < env.maxPacketSize := by
  obtain ⟨-, s, tag, hs, haccepted⟩ := starts_of_roundTrips
    (h Unit (clearCrypto z 0) { cipherState := (), written := [] } (fun _ => 0)
      (clearCrypto_of z 0))
  obtain ⟨hlimit, h', p', out, -, hdec, hout⟩ := hs.opened haccepted
  have hmalloc := malloc_of_decompress hdec
  rw [hout] at hmalloc
  rw [length_fillRandom] at hlimit
  exact ⟨hmalloc, Nat.lt_of_le_of_lt (Nat.le_add_right _ _) hlimit⟩

end Necessary

theorem roundTrips_plain {g : GenericCrypto S} (h : GenericHandle S) (random : ℕ → UInt8)
    (sequence : ℕ) (hc : g.cipher = none) (hm : g.mac = none)
    (hmalloc : env.malloc payload.length = true)
    (hlimit : 5 + payload.length + getMessagePadding 8 (payload.length + 5) < env.maxPacketSize) :
    RoundTrips env (encryptor g) h (.generic g h) random sequence payload := by
  have hmax := env.maxPacketSize_lt
  have hspec := getMessagePadding_spec 8 (payload.length + 5) (by decide) (by decide)
  have hclear : Clear g := by
    intro c hc'
    rw [hc] at hc'
    cases hc'
  have hblock : g.blocksize = 8 := by simp [blocksize, hc]
  have hmaclen : g.maclen = 0 := by simp [maclen, hm]
  obtain ⟨h', p, hwrite, hbuf⟩ := write_clear h hclear random sequence payload
    (n := getMessagePadding 8 (payload.length + 5)) (by rw [hblock]) (by omega) (by simp [hc])
  refine ⟨h', p, hwrite, ?_⟩
  intro s rest hthreads hrd hactor hseq hstream
  have hstarts : StartsClear g h payload
      (fillRandom random (getMessagePadding 8 (payload.length + 5)))
      (tagOf g h sequence (plainPacket payload
        (fillRandom random (getMessagePadding 8 (payload.length + 5))))) s :=
    { clear := hclear
      actor := hactor
      stream := ⟨rest, by rw [hstream, hbuf]⟩
      tag := length_tagOf _ _ _ _
      size := by rw [length_fillRandom]; omega
      header := by rw [length_fillRandom]; omega
      threads := hthreads
      pending := hrd }
  exact hstarts.accepted_plain hc hm (by rw [length_fillRandom]; omega) hmalloc
    (by rw [length_fillRandom]; exact hlimit)

/-- Packets of a payload reach the receiver with every cipher and MAC of the given sizes
exactly when there are none and the packet stays below the limit. -/
theorem alwaysRoundTrips_iff (env : ReceiveEnv) (z : CryptoSizes) (sequence : ℕ)
    (payload : Bytes) : AlwaysRoundTrips env z sequence payload ↔
      z.blklen = none ∧ z.maclen = none ∧ env.malloc payload.length = true ∧
        5 + payload.length + getMessagePadding 8 (payload.length + 5) < env.maxPacketSize := by
  constructor
  · intro h
    have hb := blklen_eq_none h
    obtain ⟨hmalloc, hlimit⟩ := plain_of_alwaysRoundTrips h
    simp only [CryptoSizes.packetLength, CryptoSizes.blocksize, hb, getD_none] at hlimit
    exact ⟨hb, maclen_eq_none h, hmalloc, hlimit⟩
  · rintro ⟨hb, hm, hmalloc, hlimit⟩ S g h random ⟨hcipher, hmac⟩
    rw [hb, map_eq_none_iff] at hcipher
    rw [hm, map_eq_none_iff] at hmac
    exact roundTrips_plain h random sequence hcipher hmac hmalloc hlimit

def blockCrypto : GenericCrypto Unit where
  cipher := some (identityCipher 16 (by decide))
  mac := some (lengthMac 36 20 (Nat.succ_pos _))

def ignoreMessage : Bytes := [2, 0, 0, 0, 6, 1, 2, 3, 4, 5, 6]

theorem blockCrypto_not_roundTrips :
    ¬ RoundTrips defaultEnv (encryptor blockCrypto) { cipherState := (), written := [] }
      (.generic blockCrypto { cipherState := (), written := [] }) (fun _ => 0) 0
      ignoreMessage := by
  rintro ⟨h', p, hwrite, haccept⟩
  have hbuf : (writeSshPacket (encryptor blockCrypto) (fun _ => 0)
      { cipherState := (), written := [] } 0 ignoreMessage).map (fun r => r.2.buffer) =
        .ok ([0, 0, 0, 28, 16] ++ ignoreMessage ++ replicate 16 0 ++ replicate 20 0) := by
    rfl
  rw [hwrite] at hbuf
  have hbuf : p.buffer = _ := Except.ok.inj hbuf
  have htrace : callTrace defaultEnv (readyState
      (.generic blockCrypto { cipherState := (), written := [] }) 0
      ([0, 0, 0, 28, 16] ++ ignoreMessage ++ replicate 16 0 ++ replicate 20 0)) =
        [.failure .decryptPacket] := by decide
  obtain ⟨m, rest, hm, -⟩ := haccept (readyState
      (.generic blockCrypto { cipherState := (), written := [] }) 0
      ([0, 0, 0, 28, 16] ++ ignoreMessage ++ replicate 16 0 ++ replicate 20 0)) []
    rfl (by simp [readyState]) rfl rfl (by rw [hbuf, readyState_stream, append_nil])
  rw [htrace] at hm
  cases hm

end Generic

end Osns
