import Osns.Verification.Receive.Delivery

/-! Packets sealed with chacha20-poly1305 and their way through the receiver. -/

namespace Osns.Chacha20Poly1305

open List Result StreamHandle

section Sealing

variable (g : ChachaPoly) (h : ChachaHandle)

section

variable (field body : Bytes)

def sealed : Bytes := (h.header.crypt g field).1 ++ (h.packet.crypt g body).1

def sealTag : Bytes := g.poly1305 h.macKey (sealed g h field body)

@[simp] theorem length_sealed :
    (sealed g h field body).length = field.length + body.length := by
  simp [sealed]

@[simp] theorem length_sealTag : (sealTag g h field body).length = 16 :=
  g.poly1305_length _ _

def afterSeal : ChachaHandle :=
  { h with header := (h.header.crypt g field).2, packet := (h.packet.crypt g body).2 }

end

variable {field body tail : Bytes}

theorem encryptPacket_eq {p : Packet} (hbuf : p.buffer = field ++ body ++ tail)
    (hfield : field.length = 4) (hlen : p.len = 4 + body.length) (hlt : p.len < 2 ^ 32) :
    encryptPacket g h p = .ok (afterSeal g (setSequence g h p.sequence) field body,
      { p with buffer := sealed g (setSequence g h p.sequence) field body ++ tail }) := by
  have hsub : u32Sub p.len 4 = body.length := by
    rw [u32Sub_of_le hlt (by omega), hlen, Nat.add_sub_cancel_left]
  have h1 := inPlace_append [] field (body ++ tail)
    ((setSequence g h p.sequence).header.crypt g) (n := 4) rfl hfield.symm
    (length_crypt _ _ _)
  have h2 := inPlace_append ((setSequence g h p.sequence).header.crypt g field).1 body tail
    ((setSequence g h p.sequence).packet.crypt g) (n := body.length) rfl rfl (length_crypt _ _ _)
  simp only [nil_append, length_nil, length_crypt, hfield] at h1 h2
  rw [← append_assoc, ← append_assoc] at h1
  simp only [encryptPacket, headersize, hbuf, hsub, h1, ok_bind, h2, pure_eq_ok, afterSeal, sealed]

theorem writeHmacPost_eq {p : Packet} (hwritten : h.written = [])
    (hbuf : p.buffer = sealed g h field body ++ tail) (hlen : p.len = field.length + body.length)
    (htail : tail.length = 16) :
    ∃ h', writeHmacPost g (afterSeal g h field body) p = .ok (h',
      { p with buffer := sealed g h field body ++ sealTag g h field body }) := by
  have hload := Buffer.load_append [] (sealed g h field body) tail (n := p.len) rfl
    (hlen.trans (length_sealed g h field body).symm)
  have hstore := Buffer.store_append (sealed g h field body) tail [] (sealTag g h field body)
    (hlen.trans (length_sealed g h field body).symm) ((length_sealTag g h field body).trans htail.symm)
  simp only [nil_append, append_nil, length_nil] at hload hstore
  simp only [writeHmacPost, hbuf, hload, inBounds_some, ok_bind, afterSeal, hwritten, nil_append]
  change ∃ h', (inBounds (Buffer.store _ p.len (sealTag g h field body)) >>= _) = _
  simp only [hstore, inBounds_some, ok_bind, pure_eq_ok]
  exact ⟨_, rfl⟩

section

variable (payload padding : Bytes)

def packetBody : Bytes :=
  [UInt8.ofNat padding.length] ++ payload ++ padding

def lengthField : Bytes :=
  storeUint32 (1 + payload.length + padding.length)

theorem plainPacket_eq :
    plainPacket payload padding = lengthField payload padding ++ packetBody payload padding := by
  simp [plainPacket, lengthField, packetBody]

@[simp] theorem length_packetBody :
    (packetBody payload padding).length = 1 + payload.length + padding.length := by
  simp only [packetBody, length_append, length_singleton]

end

theorem writeSshPacket_sealed (random : ℕ → UInt8) (sequence : ℕ) (payload : Bytes) {n : ℕ}
    (hpadding : (encryptor g).getMessagePadding (payload.length + 5) = n)
    (hsize : 5 + payload.length + n + 16 < 2 ^ 32) :
    ∃ h' p, writeSshPacket (encryptor g) random h sequence payload = .ok (h', p) ∧
      p.buffer = sealed g (setSequence g h sequence) (lengthField payload (fillRandom random n))
          (packetBody payload (fillRandom random n)) ++
        sealTag g (setSequence g h sequence) (lengthField payload (fillRandom random n))
          (packetBody payload (fillRandom random n)) := by
  have hmaclen : (encryptor g).hmacMaclen = 16 := rfl
  have hwrite := writeSshPacket_eq (encryptor g) random h sequence payload
    hpadding (by rw [hmaclen]; exact hsize)
  have hbuf : (initialPacket (encryptor g) random sequence payload n).buffer =
      lengthField payload (fillRandom random n) ++ packetBody payload (fillRandom random n) ++
        replicate 16 0 := by
    rw [← plainPacket_eq]
    rfl
  have hlen : (initialPacket (encryptor g) random sequence payload n).len =
      4 + (packetBody payload (fillRandom random n)).length := by
    rw [length_packetBody, length_fillRandom]
    simp only [initialPacket]
    omega
  have henc := encryptPacket_eq g h hbuf rfl hlen (by simp only [initialPacket]; omega)
  obtain ⟨h', hpost⟩ := writeHmacPost_eq g (setSequence g h sequence)
    (p := { initialPacket (encryptor g) random sequence payload n with
      buffer := sealed g (setSequence g h sequence) (lengthField payload (fillRandom random n))
        (packetBody payload (fillRandom random n)) ++ replicate 16 0 }) rfl rfl hlen (by simp)
  have hpre : (encryptor g).writeHmacPre h (initialPacket (encryptor g) random sequence payload n) =
      .ok (h, initialPacket (encryptor g) random sequence payload n) := rfl
  change (encryptor g).encryptPacket h _ = _ at henc
  change (encryptor g).writeHmacPost _ _ = _ at hpost
  rw [hpre, ok_bind] at hwrite
  simp only [henc, ok_bind] at hwrite
  exact ⟨h', _, hwrite.trans hpost, rfl⟩

end Sealing

/-! ## The receiver -/

section Opening

variable (g : ChachaPoly) (h : ChachaHandle) (payload padding : Bytes) {p : Packet}

theorem verifyHmacPre_sealed {field body : Bytes}
    (hbuf : p.buffer = sealed g h field body ++ sealTag g h field body) (hfield : field.length = 4)
    (hlen : p.len = body.length) (hlt : p.len + 4 < 2 ^ 32) (h' : ChachaHandle)
    (hkey : h'.macKey = h.macKey) (hwritten' : h'.written = []) :
    verifyHmacPre g h' p = .ok { h' with written := sealed g h field body } := by
  have hload := Buffer.load_append [] (sealed g h field body) (sealTag g h field body)
    (n := p.len + 4) rfl (by rw [length_sealed]; omega)
  have htag : Buffer.load (sealed g h field body ++ sealTag g h field body ++ []) (p.len + 4)
      (sealTag g h field body).length = some (sealTag g h field body) :=
    Buffer.load_append _ _ _ (by rw [length_sealed]; omega) rfl
  simp only [nil_append, append_nil, length_nil] at hload htag
  simp only [verifyHmacPre, u32_of_lt hlt, hbuf, hload, inBounds_some, ok_bind, hkey,
    hwritten', nil_append]
  change (gcryMacVerify _ _ (sealTag g h field body) >>= _) = _
  simp only [gcryMacVerify, htag, inBounds_some, ok_bind, if_true, pure_eq_ok]

theorem decryptPacket_sealed {field front last tail : Bytes} (hfield : field.length = 4)
    (hbuf : p.buffer = field ++ (h.packet.crypt g (front ++ last)).1 ++ tail)
    (hlen : p.len = front.length + 4) (hdecrypted : p.decrypted = 4) (hlt : p.len < 2 ^ 32)
    (h' : ChachaHandle) (hpacket : h'.packet = h.packet) :
    ∃ h'' rest, decryptPacket g h' p = .ok (h'',
      { p with buffer := field ++ front ++ rest, decrypted := p.len }) := by
  have hsub : u32Sub p.len p.decrypted = front.length := by
    rw [u32Sub_of_le hlt (by omega), hlen, hdecrypted, Nat.add_sub_cancel]
  have hsum : u32 (p.decrypted + front.length) = p.len := by
    rw [hdecrypted, Nat.add_comm, ← hlen, u32_of_lt hlt]
  have hplace := inPlace_append field (h.packet.crypt g front).1
    (((h.packet.crypt g front).2.crypt g last).1 ++ tail) (h.packet.crypt g)
    (hdecrypted.trans hfield.symm) (length_crypt _ _ _).symm (length_crypt _ _ _)
  rw [crypt_crypt] at hplace
  rw [crypt_append, ← append_assoc, append_assoc] at hbuf
  simp only [decryptPacket, hpacket, hbuf, hsub, hplace, ok_bind, pure_eq_ok, hsum]
  exact ⟨_, _, rfl⟩

theorem packetBody_split (hlow : 4 ≤ padding.length) :
    ∃ front last rest, packetBody payload padding = front ++ last ∧
      front = [UInt8.ofNat padding.length] ++ payload ++ rest ∧
      1 + payload.length + padding.length = front.length + 4 := by
  refine ⟨[UInt8.ofNat padding.length] ++ payload ++ padding.take (padding.length - 4),
    padding.drop (padding.length - 4), _, ?_, rfl, ?_⟩
  · rw [append_assoc _ (padding.take _), take_append_drop]
    rfl
  · simp only [length_append, length_take, length_singleton]
    omega

variable {payload padding} in
theorem openMessage_sealed (h' : ChachaHandle) (hkey : h'.macKey = h.macKey)
    (hwritten : h'.written = []) (hpacket : h'.packet = h.packet)
    (hlow : 4 ≤ padding.length) (hhigh : padding.length < 2 ^ 8)
    (hbuf : p.buffer =
      sealed g h (lengthField payload padding) (packetBody payload padding) ++
        sealTag g h (lengthField payload padding) (packetBody payload padding))
    (hlen : p.len = 1 + payload.length + padding.length) (hdecrypted : p.decrypted = 4)
    (hlt : p.len + 4 < 2 ^ 32) :
    ∃ h'' rest, openMessage (decryptor g) h' p (lengthField payload padding) = .ok (h'',
      { p with
          buffer := lengthField payload padding ++ [UInt8.ofNat padding.length] ++ payload ++ rest
          decrypted := p.len, padding := padding.length }) := by
  have hfield : (lengthField payload padding).length = 4 := rfl
  have hpre := verifyHmacPre_sealed g h hbuf hfield
    (hlen.trans (length_packetBody _ _).symm) hlt h' hkey hwritten
  have hstore := Buffer.store_append [] (h.header.crypt g (lengthField payload padding)).1
    ((h.packet.crypt g (packetBody payload padding)).1 ++
      sealTag g h (lengthField payload padding) (packetBody payload padding))
    (lengthField payload padding) rfl (length_crypt _ _ _).symm
  simp only [nil_append, length_nil, ← append_assoc] at hstore
  obtain ⟨front, last, rest, hbody, hfront, hfrontLen⟩ := packetBody_split payload padding hlow
  obtain ⟨h'', tail, hdec⟩ := decryptPacket_sealed g h (p := { p with
      buffer := lengthField payload padding ++ (h.packet.crypt g (packetBody payload padding)).1 ++
        sealTag g h (lengthField payload padding) (packetBody payload padding) })
    hfield (by rw [hbody]) (hlen.trans hfrontLen) hdecrypted (show p.len < 2 ^ 32 by omega)
    { h' with written := sealed g h (lengthField payload padding) (packetBody payload padding) }
    hpacket
  have hbyte : (UInt8.ofNat padding.length).toNat = padding.length := by
    rw [UInt8.toNat_ofNat', Nat.mod_eq_of_lt hhigh]
  refine ⟨h'', rest ++ tail, openMessage_eq_ok.mpr ⟨_, _, h'', _, UInt8.ofNat padding.length,
    hpre, ?_, hdec, ?_, rfl, ?_⟩⟩
  · rw [hbuf]
    exact hstore
  · rw [hfront]
    rfl
  · rw [hbyte, hfront]
    simp

end Opening

/-! ## Round trip -/

section RoundTrip

variable (env : ReceiveEnv) (g : ChachaPoly) {hs hr : ChachaHandle} (random : ℕ → UInt8)
  (sequence : ℕ) (payload : Bytes)

def paddingOf : ℕ := (encryptor g).getMessagePadding (payload.length + 5)

theorem paddingOf_bounds (hlen : payload.length + 5 < 2 ^ 32) :
    4 ≤ paddingOf g payload ∧ paddingOf g payload ≤ 67 := by
  have heq : paddingOf g payload =
      Generic.getMessagePadding blocksize (payload.length + 5 - 4) := by
    rw [← getMessagePaddingCustom_eq blocksize (by omega) hlen]
    simp [paddingOf, encryptor]
  have hspec := getMessagePadding_spec blocksize (payload.length + 5 - 4) (by decide) (by decide)
  rw [heq]
  exact ⟨hspec.1, hspec.2.1⟩

def StartsSealed (g : ChachaPoly) (hr : ChachaHandle) (payload : Bytes) (s : ReceiveState)
    (padding rest : Bytes) : Prop :=
  s.stream =
    sealed g (setSequence g hr s.sequenceNumber) (lengthField payload padding)
        (packetBody payload padding) ++
      sealTag g (setSequence g hr s.sequenceNumber) (lengthField payload padding)
        (packetBody payload padding) ++ rest

section Receiver

variable {env g payload} {s : ReceiveState} {padding rest : Bytes}
  (hactor : s.actor = .chacha20 g hr)
  (hstream : StartsSealed g hr payload s padding rest)
  (hsize : 5 + payload.length + padding.length + 16 < 2 ^ 32)

include hactor hstream

theorem plainHeader_sealed :
    s.actor.plainHeader s.sequenceNumber s.stream = lengthField payload padding := by
  have htake : s.stream.take 4 =
      ((setSequence g hr s.sequenceNumber).header.crypt g (lengthField payload padding)).1 := by
    rw [hstream, sealed, append_assoc, append_assoc]
    exact take_left' rfl
  rw [hactor]
  simp [DecryptActor.plainHeader, htake, crypt_crypt]

include hsize

theorem announcedSize_sealed :
    getUint32 (s.actor.plainHeader s.sequenceNumber s.stream) =
        1 + payload.length + padding.length ∧
      s.actor.announcedSize s.sequenceNumber s.stream =
        5 + payload.length + padding.length + 16 := by
  have hlength : getUint32 (s.actor.plainHeader s.sequenceNumber s.stream) =
      1 + payload.length + padding.length := by
    rw [plainHeader_sealed hactor hstream, lengthField, getUint32_storeUint32, u32_of_lt (by omega)]
  have hmaclen : s.actor.maclen = 16 := by rw [hactor]; rfl
  refine ⟨hlength, ?_⟩
  rw [DecryptActor.announcedSize, messageSize, hlength, hmaclen, u32_of_lt (by omega)]
  omega

theorem announcedOutcome_sealed (hlow : 4 ≤ padding.length) (hhigh : padding.length < 2 ^ 8)
    (hmalloc : env.malloc payload.length = true) :
    ∃ m, announcedOutcome env s = some (.payload m) ∧ m.payload.buffer = payload := by
  have hplain := plainHeader_sealed hactor hstream
  obtain ⟨hlength, hannounced⟩ := announcedSize_sealed hactor hstream hsize
  have hbuf : s.announced.buffer =
      sealed g (setSequence g hr s.sequenceNumber) (lengthField payload padding)
          (packetBody payload padding) ++
        sealTag g (setSequence g hr s.sequenceNumber) (lengthField payload padding)
          (packetBody payload padding) := by
    simp only [ReceiveState.announced, hannounced]
    rw [hstream]
    apply take_left'
    simp only [length_append, length_sealed, length_sealTag, length_packetBody]
    change 4 + _ + 16 = _
    omega
  have hlen : s.announced.len = 1 + payload.length + padding.length := hlength
  have hdecrypted : s.announced.decrypted = 4 := by
    simp only [ReceiveState.announced, hactor]
    rfl
  obtain ⟨h', rest', hopen⟩ := openMessage_sealed g (setSequence g hr s.sequenceNumber)
    { setSequence g hr s.sequenceNumber with
        header := ((setSequence g hr s.sequenceNumber).header.crypt g (s.stream.take 4)).2 }
    rfl rfl rfl hlow hhigh hbuf hlen hdecrypted (by omega)
  have hpayload := decompressPacket_eq env (p := { s.announced with
      buffer := lengthField payload padding ++ [UInt8.ofNat padding.length] ++ payload ++ rest'
      decrypted := s.announced.len, padding := padding.length }) rfl rfl hlen
    (show s.announced.len < 2 ^ 32 by omega) hmalloc
  have houtcome := messageOutcome_of_ok (a := .chacha20 g
    { setSequence g hr s.sequenceNumber with
        header := ((setSequence g hr s.sequenceNumber).header.crypt g (s.stream.take 4)).2 })
    hopen hpayload
  have hafter : s.actor.afterHeader s.sequenceNumber s.stream = .chacha20 g
      { setSequence g hr s.sequenceNumber with
          header := ((setSequence g hr s.sequenceNumber).header.crypt g (s.stream.take 4)).2 } := by
    rw [hactor]
    rfl
  rw [← hafter, ← hplain] at houtcome
  exact ⟨_, houtcome, rfl⟩

theorem headerArrives_sealed (hthreads : s.threads = 0) (hrd : s.rd ≠ []) :
    HeaderArrives s ∧ 5 + payload.length + padding.length + 16 ≤ s.stream.length := by
  have hlong : 5 + payload.length + padding.length + 16 ≤ s.stream.length := by
    rw [hstream]
    simp only [length_append, length_sealed, length_sealTag, length_packetBody]
    change _ ≤ 4 + _ + 16 + _
    omega
  have hheader : s.actor.headersize = 4 := by rw [hactor]; rfl
  refine ⟨⟨hthreads, hrd, ?_, ?_⟩, hlong⟩
  · rw [hactor]
    simp
  · omega

end Receiver

/-- A receiver with the same keys accepts the packet of a payload as long as the packet is
smaller than the session allows. -/
theorem roundTrips_of_size (hheader : hs.header.key = hr.header.key)
    (hpacket : hs.packet.key = hr.packet.key)
    (hmalloc : env.malloc payload.length = true)
    (hsize : 5 + payload.length + paddingOf g payload + 16 < env.maxPacketSize) :
    RoundTrips env (encryptor g) hs (.chacha20 g hr) random sequence payload := by
  have hmax := env.maxPacketSize_lt
  obtain ⟨hlow, hhigh⟩ := paddingOf_bounds g payload (by omega)
  obtain ⟨h', p, hwrite, hbuf⟩ := writeSshPacket_sealed g hs random sequence payload
    (n := paddingOf g payload) rfl (by omega)
  refine ⟨h', p, hwrite, ?_⟩
  intro s rest hthreads hrd hactor hseq hstream
  have hpadLen : (fillRandom random (paddingOf g payload)).length = paddingOf g payload :=
    length_fillRandom _ _
  rw [hbuf, setSequence_congr g sequence hheader hpacket, ← hseq] at hstream
  obtain ⟨m, hm, hpayload⟩ := announcedOutcome_sealed hactor hstream (by omega) (by omega)
    (by omega) hmalloc
  obtain ⟨-, hannounced⟩ := announcedSize_sealed hactor hstream (by omega)
  obtain ⟨harrives, hlong⟩ := headerArrives_sealed hactor hstream (by omega) hthreads hrd
  rw [hpadLen] at hannounced hlong
  have hann : Announces env s :=
    { harrives with
        limit := by rw [hannounced]; exact hsize
        message := by rw [hannounced]; exact hlong }
  rw [← hpayload]
  exact hann.accepted hm

theorem not_roundTrips_of_large (hheader : hs.header.key = hr.header.key)
    (hpacket : hs.packet.key = hr.packet.key)
    (hlarge : env.maxPacketSize ≤ 5 + payload.length + paddingOf g payload + 16)
    (hsize : 5 + payload.length + paddingOf g payload + 16 < 2 ^ 32) :
    ¬ RoundTrips env (encryptor g) hs (.chacha20 g hr) random sequence payload := by
  rintro ⟨h', p, hwrite, haccept⟩
  obtain ⟨h'', p', hwrite', hbuf⟩ := writeSshPacket_sealed g hs random sequence payload
    (n := paddingOf g payload) rfl hsize
  obtain ⟨rfl, rfl⟩ := Prod.mk.inj (Except.ok.inj (hwrite.symm.trans hwrite'))
  have hpadLen : (fillRandom random (paddingOf g payload)).length = paddingOf g payload :=
    length_fillRandom _ _
  rw [setSequence_congr g sequence hheader hpacket] at hbuf
  have hstream : StartsSealed g hr payload (readyState (.chacha20 g hr) sequence p.buffer)
      (fillRandom random (paddingOf g payload)) [] := by
    rw [StartsSealed, readyState_stream, append_nil]
    exact hbuf
  have hpending : p.buffer ≠ [] := by
    intro hnil
    have hlen := congrArg length (hbuf.symm.trans hnil)
    simp at hlen
  obtain ⟨harrives, -⟩ := headerArrives_sealed rfl hstream (by omega) rfl hpending
  obtain ⟨-, hannounced⟩ := announcedSize_sealed rfl hstream (by omega)
  refine harrives.not_accepted_of_large ?_ payload
    (haccept (readyState (.chacha20 g hr) sequence p.buffer) [] rfl hpending rfl rfl (by simp))
  rw [hannounced, hpadLen]
  exact hlarge

end RoundTrip

/-- A keystream that counts, and a tag made of the first bytes. -/
def countingChacha : ChachaPoly where
  keystream := fun key iv pos => UInt8.ofNat (key.length + iv.length + pos)
  poly1305 := fun key xs => (xs ++ key ++ replicate 16 0).take 16
  poly1305_length := by
    intro key xs
    simp only [length_take, length_append, length_replicate]
    omega

def freshHandle : ChachaHandle where
  header := { key := [1], iv := [], pos := 0 }
  packet := { key := [2], iv := [], pos := 0 }
  macKey := []
  written := []

theorem roundTrips_ignore : RoundTrips defaultEnv (encryptor countingChacha) freshHandle
    (.chacha20 countingChacha freshHandle) (fun _ => 7) 3 [2, 0, 0, 0, 0] :=
  roundTrips_of_size defaultEnv countingChacha (fun _ => 7) 3 [2, 0, 0, 0, 0] rfl rfl rfl
    (by decide)

theorem not_roundTrips_zeros : ¬ RoundTrips defaultEnv (encryptor countingChacha) freshHandle
    (.chacha20 countingChacha freshHandle) (fun _ => 7) 3 (replicate 40000 0) := by
  have hlen : (replicate 40000 (0 : UInt8)).length = 40000 := length_replicate
  have hbounds := paddingOf_bounds countingChacha (replicate 40000 0) (by rw [hlen]; decide)
  have hmax : defaultEnv.maxPacketSize = 32768 := rfl
  refine not_roundTrips_of_large defaultEnv countingChacha (fun _ => 7) 3 (replicate 40000 0)
    rfl rfl ?_ ?_
  · rw [hlen, hmax]
    omega
  · rw [hlen]
    omega

end Osns.Chacha20Poly1305
