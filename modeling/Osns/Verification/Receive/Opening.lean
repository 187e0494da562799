import Osns.Verification.Receive.Delivery

/-! Which sizes a message must have for its checks and its decryption to stay inside it. -/

namespace Osns

open Buffer List Result Chacha20Poly1305 Generic

theorem inBounds_ne_overrun {α : Type} {x : Option α} (h : x.isSome) :
    inBounds x ≠ .error .overrun := by
  cases x with
  | none => cases h
  | some a => simp [inBounds]

variable {τ : Type} {buf out : Bytes} {off n : ℕ} {f : Bytes → Bytes × τ} {t : τ} {buffer tag : Bytes}
  {S : Type} {h : GenericHandle S} {p p' : Packet} {tmpheader : Bytes} {a : DecryptActor}

theorem inPlace_bounds (h : inPlace buf off n f = .ok (out, t)) : off + n ≤ buf.length := by
  simp only [inPlace, bind_eq_ok, inBounds_eq_ok] at h
  obtain ⟨data, hload, -⟩ := h
  exact (load_eq_some_iff.mp hload).1

theorem inPlace_ne_overrun (hf : ∀ xs, (f xs).1.length = xs.length) (h : off + n ≤ buf.length) :
    inPlace buf off n f ≠ .error .overrun := by
  refine bind_ne_error (inBounds_ne_overrun (load_isSome h)) ?_
  intro data hload
  have hlen := length_of_load (inBounds_eq_ok.mp hload)
  refine bind_ne_error (inBounds_ne_overrun (store_isSome ?_)) ?_
  · rw [hf, hlen]
    exact h
  · intro buf' _
    simp

theorem inPlace_getElem? {i : ℕ} (h : inPlace buf off n f = .ok (out, t)) (hi : i < off) :
    out[i]? = buf[i]? := by
  simp only [inPlace, bind_eq_ok, inBounds_eq_ok, pure_eq_ok, Except.ok.injEq, Prod.mk.injEq] at h
  obtain ⟨data, hload, buf', hstore, rfl, -⟩ := h
  obtain ⟨hle, rfl⟩ := store_eq_some_iff.mp hstore
  have hoff : off ≤ buf.length := by omega
  rw [append_assoc, getElem?_append_left (by rw [length_take]; omega), getElem?_take_of_lt hi]

theorem inPlace_getElem?_off (h : inPlace buf off n f = .ok (out, t))
    (hf : ∀ xs, (f xs).1.length = xs.length) :
    out[off]? = ((f ((buf.drop off).take n)).1 ++ (buf.drop off).drop n).head? := by
  simp only [inPlace, bind_eq_ok, inBounds_eq_ok, pure_eq_ok, Except.ok.injEq, Prod.mk.injEq] at h
  obtain ⟨data, hload, buf', hstore, rfl, -⟩ := h
  obtain ⟨hn, rfl⟩ := load_eq_some_iff.mp hload
  obtain ⟨hle, rfl⟩ := store_eq_some_iff.mp hstore
  have hlen : (f ((buf.drop off).take n)).1.length = n := by
    rw [hf, length_take, length_drop]
    omega
  rw [append_assoc, getElem?_append_right (by rw [length_take]; omega),
    length_take, Nat.min_eq_left (by omega), Nat.sub_self, hlen, drop_drop,
    head?_eq_getElem?]

theorem gcryMacVerify_eq_ok {u : Unit} :
    gcryMacVerify buffer off tag = .ok u ↔ load buffer off tag.length = some tag := by
  cases hload : load buffer off tag.length with
  | none => simp [gcryMacVerify, hload, inBounds]
  | some found =>
    by_cases h : found = tag
    · simp [gcryMacVerify, hload, h]
    · simp [gcryMacVerify, hload, h]

theorem gcryMacVerify_bounds
    (h : gcryMacVerify buffer off tag = .ok ()) : off + tag.length ≤ buffer.length :=
  (load_eq_some_iff.mp (gcryMacVerify_eq_ok.mp h)).1

theorem gcryMacVerify_ne_overrun
    (h : off + tag.length ≤ buffer.length) : gcryMacVerify buffer off tag ≠ .error .overrun := by
  refine bind_ne_error (inBounds_ne_overrun (load_isSome h)) ?_
  intro found _
  split <;> simp

namespace Generic

variable {S : Type} (g : GenericCrypto S) {h h' : GenericHandle S} {p p' : Packet}

/-- Decryption of the rest needs the header inside the packet length, and the packet length
inside the message. -/
theorem decryptPacket_bounds {c : BlockCipher S} (hc : g.cipher = some c)
    (hok : (decryptor g).decryptPacket h p = .ok (h', p')) (hlen : p.len < 2 ^ 32)
    (hdecrypted : p.decrypted ≤ p.buffer.length) (hbuf : p.buffer.length < 2 ^ 32) :
    p.decrypted ≤ p.len ∧ p.len ≤ p.buffer.length := by
  simp only [decryptor, hc, decryptPacket, bind_eq_ok] at hok
  obtain ⟨⟨buffer, s⟩, hdec, -⟩ := hok
  unfold gcryCipherDecrypt at hdec
  split at hdec
  · have hbounds := inPlace_bounds hdec
    by_cases hle : p.decrypted ≤ p.len
    · rw [u32Sub_of_le hlen hle] at hbounds
      omega
    · rw [u32Sub_of_lt (by omega) (by omega)] at hbounds
      omega
  · cases hdec

theorem decryptPacket_ne_overrun
    (hlen : p.len < 2 ^ 32) (hle : ∀ c, g.cipher = some c → p.decrypted ≤ p.len)
    (hbuf : p.len ≤ p.buffer.length) : (decryptor g).decryptPacket h p ≠ .error .overrun := by
  cases hc : g.cipher with
  | none => simp [decryptor, hc, decryptPacketNone]
  | some c =>
    simp only [decryptor, hc, decryptPacket]
    refine bind_ne_error ?_ (by simp)
    unfold gcryCipherDecrypt
    split
    · have hdec := hle c hc
      refine inPlace_ne_overrun (c.decrypt_length _) ?_
      rw [u32Sub_of_le hlen hdec]
      omega
    · simp

theorem decryptPacket_getElem? {i : ℕ} (hok : (decryptor g).decryptPacket h p = .ok (h', p'))
    (hi : i < p.decrypted) : p'.buffer[i]? = p.buffer[i]? := by
  cases hc : g.cipher with
  | none =>
    simp only [decryptor, hc, decryptPacketNone, Except.ok.injEq, Prod.mk.injEq] at hok
    rw [← hok.2]
  | some c =>
    simp only [decryptor, hc, decryptPacket, bind_eq_ok, pure_eq_ok,
      Except.ok.injEq, Prod.mk.injEq] at hok
    obtain ⟨⟨buffer, s⟩, hdec, -, rfl⟩ := hok
    unfold gcryCipherDecrypt at hdec
    split at hdec
    · exact inPlace_getElem? hdec hi
    · cases hdec

theorem verifyHmacPost_bounds {m : Mac} (hm : g.mac = some m)
    (hok : (decryptor g).verifyHmacPost h p = .ok h') : p.len + m.maclen ≤ p.buffer.length := by
  simp only [decryptor, hm, verifyHmacPost, bind_eq_ok] at hok
  obtain ⟨data, -, u, hverify, -⟩ := hok
  have hbounds := gcryMacVerify_bounds hverify
  rwa [m.mac_length] at hbounds

theorem verifyHmacPost_ne_overrun (hbuf : p.len + g.maclen ≤ p.buffer.length) :
    (decryptor g).verifyHmacPost h p ≠ .error .overrun := by
  cases hm : g.mac with
  | none => simp [decryptor, hm, verifyHmacNone]
  | some m =>
    simp only [GenericCrypto.maclen, hm] at hbuf
    simp only [decryptor, hm, verifyHmacPost]
    refine bind_ne_error (inBounds_ne_overrun (load_isSome (by omega))) ?_
    intro data _
    refine bind_ne_error (gcryMacVerify_ne_overrun ?_) (by simp)
    rw [m.mac_length]
    exact hbuf

end Generic

namespace Chacha20Poly1305

variable (g : ChachaPoly) {h h' : ChachaHandle} {p p' : Packet}

theorem verifyHmacPre_bounds (hok : (decryptor g).verifyHmacPre h p = .ok h') :
    p.len + 4 + 16 ≤ p.buffer.length := by
  simp only [decryptor, verifyHmacPre, bind_eq_ok] at hok
  obtain ⟨data, -, u, hverify, -⟩ := hok
  have hbounds := gcryMacVerify_bounds hverify
  rwa [g.poly1305_length] at hbounds

theorem verifyHmacPre_ne_overrun (hbuf : p.len + 4 + 16 ≤ p.buffer.length) :
    (decryptor g).verifyHmacPre h p ≠ .error .overrun := by
  simp only [decryptor, verifyHmacPre]
  have hle := u32_le (p.len + 4)
  refine bind_ne_error (inBounds_ne_overrun (load_isSome (by omega))) ?_
  intro data _
  refine bind_ne_error (gcryMacVerify_ne_overrun ?_) (by simp)
  rw [g.poly1305_length]
  exact hbuf

theorem decryptPacket_bounds (hok : (decryptor g).decryptPacket h p = .ok (h', p'))
    (hlen : p.len < 2 ^ 32) (hdecrypted : p.decrypted ≤ p.buffer.length)
    (hbuf : p.buffer.length < 2 ^ 32) : p.decrypted ≤ p.len := by
  simp only [decryptor, decryptPacket, bind_eq_ok] at hok
  obtain ⟨⟨buffer, s⟩, hdec, -⟩ := hok
  have hbounds := inPlace_bounds hdec
  by_cases hle : p.decrypted ≤ p.len
  · exact hle
  · rw [u32Sub_of_lt (Nat.lt_of_le_of_lt hdecrypted hbuf) (by omega)] at hbounds
    omega

theorem decryptPacket_ne_overrun (hlen : p.len < 2 ^ 32) (hle : p.decrypted ≤ p.len)
    (hbuf : p.len ≤ p.buffer.length) : (decryptor g).decryptPacket h p ≠ .error .overrun := by
  simp only [decryptor, decryptPacket]
  refine bind_ne_error (inPlace_ne_overrun (fun _ => StreamHandle.length_crypt _ _ _) ?_) (by simp)
  rw [u32Sub_of_le hlen hle]
  omega

theorem decryptPacket_getElem? (hok : (decryptor g).decryptPacket h p = .ok (h', p')) :
    p'.buffer[p.decrypted]? =
      ((h.packet.crypt g ((p.buffer.drop p.decrypted).take (u32Sub p.len p.decrypted))).1 ++
        (p.buffer.drop p.decrypted).drop (u32Sub p.len p.decrypted)).head? := by
  simp only [decryptor, decryptPacket, bind_eq_ok, pure_eq_ok, Except.ok.injEq,
    Prod.mk.injEq] at hok
  obtain ⟨⟨buffer, s⟩, hdec, -, rfl⟩ := hok
  exact inPlace_getElem?_off hdec fun _ => StreamHandle.length_crypt _ _ _

end Chacha20Poly1305

theorem GenericCrypto.blocksize_ge (g : GenericCrypto S) : 8 ≤ g.blocksize := by
  cases hc : g.cipher with
  | none => simp [GenericCrypto.blocksize, hc]
  | some c =>
    simp only [GenericCrypto.blocksize, hc]
    exact c.blklen_ge

/-- The bytes of the packet length that are decrypted together with the header. -/
def DecryptActor.predecrypted : DecryptActor → ℕ
  | generic g _ =>
    match g.cipher with
    | none => 0
    | some c => c.blklen
  | chacha20 _ _ => 4
  | fallback => 0

/-- The sizes of a message fit together. -/
structure SizesInRange (a : DecryptActor) (len : ℕ) : Prop where
  noWrap : len + 4 + a.maclen < 2 ^ 32
  header : a.headersize ≤ len + 4 + a.maclen
  rest : a.predecrypted ≤ len

theorem u32_cases (n : ℕ) : n < 2 ^ 32 ∧ u32 n = n ∨ u32 n + 2 ^ 32 ≤ n := by
  unfold u32
  omega

variable {g : GenericCrypto S}

theorem Generic.sizes_of_open {h' : GenericHandle S}
    (hopen : openMessage (decryptor g) h p tmpheader = .ok (h', p'))
    (hheader : tmpheader.length = g.blocksize) (hdecrypted : p.decrypted = g.blocksize)
    (hlen : p.len < 2 ^ 32) (hbuf : p.buffer.length = u32 (p.len + 4 + g.maclen)) :
    p.len + 4 + g.maclen < 2 ^ 32 ∧ g.blocksize ≤ p.len + 4 + g.maclen ∧
      ∀ c, g.cipher = some c → c.blklen ≤ p.len := by
  obtain ⟨h1, buffer, h2, p2, padding, -, hstore, hdec, -, hpost, -⟩ := openMessage_eq_ok.mp hopen
  have hlt := u32_lt (p.len + 4 + g.maclen)
  have hbs := g.blocksize_ge
  have hfits := (store_eq_some_iff.mp hstore).1
  have hsame := length_of_store hstore
  obtain ⟨hdlen, hdl, -⟩ := decryptPacket_length g hdec
  have hwrap : p.len + 4 + g.maclen < 2 ^ 32 ∧
      u32 (p.len + 4 + g.maclen) = p.len + 4 + g.maclen := by
    refine (u32_cases _).resolve_right ?_
    intro hwrap
    cases hm : g.mac with
    | none =>
      have hzero : g.maclen = 0 := by simp [GenericCrypto.maclen, hm]
      omega
    | some m =>
      have hmaclen : g.maclen = m.maclen := by simp [GenericCrypto.maclen, hm]
      have hverify := verifyHmacPost_bounds g hm hpost
      simp only at hverify hdlen hdl
      omega
  refine ⟨hwrap.1, by omega, ?_⟩
  intro c hc
  have hblk : g.blocksize = c.blklen := by simp [GenericCrypto.blocksize, hc]
  have hrest := (decryptPacket_bounds g hc hdec hlen (by simp only; omega)
    (by simp only; omega)).1
  simp only at hrest
  omega

theorem Chacha20Poly1305.sizes_of_open {g : ChachaPoly} {h h' : ChachaHandle}
    (hopen : openMessage (decryptor g) h p tmpheader = .ok (h', p'))
    (hdecrypted : p.decrypted = 4) (hlen : p.len < 2 ^ 32)
    (hbuf : p.buffer.length = u32 (p.len + 4 + 16)) :
    p.len + 4 + 16 < 2 ^ 32 ∧ 4 ≤ p.len := by
  obtain ⟨h1, buffer, h2, p2, padding, hpre, hstore, hdec, -, -, -⟩ := openMessage_eq_ok.mp hopen
  have hlt := u32_lt (p.len + 4 + 16)
  have hsame := length_of_store hstore
  have hverify := verifyHmacPre_bounds g hpre
  have hwrap := (u32_cases (p.len + 4 + 16)).resolve_right (by omega)
  have hrest := decryptPacket_bounds g hdec hlen (by simp only; omega)
    (by simp only; omega)
  simp only at hrest
  exact ⟨hwrap.1, by omega⟩

theorem sizesInRange_of_open {h h' : a.Handle} (hopen : openMessage a.decryptor h p tmpheader = .ok (h', p'))
    (hheader : tmpheader.length = a.headersize) (hdecrypted : p.decrypted = a.headersize)
    (hlen : p.len < 2 ^ 32) (hbuf : p.buffer.length = u32 (p.len + 4 + a.maclen)) :
    SizesInRange a p.len := by
  cases a with
  | generic g h0 =>
    obtain ⟨hwrap, hhead, hrest⟩ := sizes_of_open hopen hheader hdecrypted hlen hbuf
    refine ⟨hwrap, hhead, ?_⟩
    cases hc : g.cipher with
    | none => simp [DecryptActor.predecrypted, hc]
    | some c =>
      simp only [DecryptActor.predecrypted, hc]
      exact hrest c hc
  | chacha20 g h0 =>
    obtain ⟨hwrap, hrest⟩ := sizes_of_open hopen hdecrypted hlen hbuf
    have hheader : 4 ≤ p.len + 4 + 16 := by omega
    exact ⟨hwrap, hheader, hrest⟩
  | fallback => cases hopen

theorem atStage_ne_overrun {α : Type} {stage : Stage} {x : Except Fault α}
    (h : x ≠ .error .overrun) : atStage stage x ≠ .error .overrun := by
  intro hx
  rcases atStage_eq_error.mp hx with ⟨-, he⟩ | ⟨hover, -⟩
  · cases he
  · exact h hover

theorem openMessage_ne_overrun {σ : Type} {d : Decryptor σ} {h : σ}
    (hpre : d.verifyHmacPre h p ≠ .error .overrun)
    (hheader : tmpheader.length ≤ p.buffer.length) (hfive : 4 < p.buffer.length)
    (hdec : ∀ h1 buffer, buffer.length = p.buffer.length →
      d.decryptPacket h1 { p with buffer } ≠ .error .overrun)
    (hlength : ∀ {h1 p1 h2 p2}, d.decryptPacket h1 p1 = .ok (h2, p2) →
      p2.buffer.length = p1.buffer.length ∧ p2.len = p1.len ∧ p2.sequence = p1.sequence)
    (hpost : ∀ h2 p2, p2.len = p.len → p2.buffer.length = p.buffer.length →
      d.verifyHmacPost h2 p2 ≠ .error .overrun) :
    openMessage d h p tmpheader ≠ .error .overrun := by
  refine bind_ne_error (atStage_ne_overrun hpre) ?_
  intro h1 _
  refine bind_ne_error (atStage_ne_overrun (inBounds_ne_overrun (store_isSome (by omega)))) ?_
  intro buffer hstore
  have hsame := length_of_store (inBounds_eq_ok.mp (atStage_eq_ok.mp hstore))
  refine bind_ne_error (atStage_ne_overrun (hdec h1 buffer hsame)) ?_
  rintro ⟨h2, p2⟩ hdecrypt
  obtain ⟨hbuf, hlen, -⟩ := hlength (atStage_eq_ok.mp hdecrypt)
  simp only at hbuf hlen
  refine bind_ne_error (atStage_ne_overrun (inBounds_ne_overrun ?_)) ?_
  · rw [getElem?_eq_getElem (by omega)]
    rfl
  · intro padding _
    refine bind_ne_error (atStage_ne_overrun (hpost _ _ hlen (hbuf.trans hsame))) ?_
    intro h3 _ hend
    cases hend

theorem Generic.open_ne_overrun (g : GenericCrypto S) (hwrap : p.len + 4 + g.maclen < 2 ^ 32)
    (hhead : g.blocksize ≤ p.len + 4 + g.maclen)
    (hrest : ∀ c, g.cipher = some c → c.blklen ≤ p.len)
    (hheader : tmpheader.length = g.blocksize) (hdecrypted : p.decrypted = g.blocksize)
    (hbuf : p.buffer.length = p.len + 4 + g.maclen) :
    openMessage (decryptor g) h p tmpheader ≠ .error .overrun := by
  have hbs := g.blocksize_ge
  refine openMessage_ne_overrun ?_ (by omega) (by omega) ?_ (decryptPacket_length g) ?_
  · intro hpre
    cases hpre
  · intro h1 buffer hlen
    refine decryptPacket_ne_overrun g (by simp only; omega) ?_ (by simp only; omega)
    intro c hc
    have hblk : g.blocksize = c.blklen := by simp [GenericCrypto.blocksize, hc]
    have hle := hrest c hc
    simp only
    omega
  · intro h2 p2 hlen hbuf2
    exact verifyHmacPost_ne_overrun g (by omega)

theorem Chacha20Poly1305.open_ne_overrun (g : ChachaPoly) {h : ChachaHandle}
    (hwrap : p.len + 4 + 16 < 2 ^ 32) (hrest : 4 ≤ p.len)
    (hheader : tmpheader.length = 4) (hdecrypted : p.decrypted = 4)
    (hbuf : p.buffer.length = p.len + 4 + 16) :
    openMessage (decryptor g) h p tmpheader ≠ .error .overrun := by
  refine openMessage_ne_overrun ?_ (by omega) (by omega) ?_
    (decryptPacket_length g) ?_
  · exact verifyHmacPre_ne_overrun g (by omega)
  · intro h1 buffer hlen
    exact decryptPacket_ne_overrun g (by simp only; omega)
      (by simp only; omega) (by simp only; omega)
  · intro h2 p2 _ _ hpost
    cases hpost

theorem SizesInRange.open_ne_overrun {h : a.Handle} (hsizes : SizesInRange a p.len)
    (hheader : tmpheader.length = a.headersize) (hdecrypted : p.decrypted = a.headersize)
    (hbuf : p.buffer.length = p.len + 4 + a.maclen) :
    openMessage a.decryptor h p tmpheader ≠ .error .overrun := by
  obtain ⟨hwrap, hhead, hrest⟩ := hsizes
  cases a with
  | generic g h0 =>
    refine open_ne_overrun g hwrap hhead ?_ hheader hdecrypted hbuf
    intro c hc
    simpa only [DecryptActor.predecrypted, hc] using hrest
  | chacha20 g h0 =>
    exact open_ne_overrun g hwrap hrest hheader hdecrypted hbuf
  | fallback =>
    intro hopen
    cases hopen

/-! ## The padding length -/

/-- The padding length of a message whose header has been decrypted. -/
def DecryptActor.paddingLength : DecryptActor → Packet → Bytes → ℕ
  | generic _ _, _, tmpheader => (tmpheader.getD 4 0).toNat
  | chacha20 g h, p, _ =>
    let rest := p.buffer.drop 4
    (((h.packet.crypt g (rest.take (p.len - 4))).1 ++ rest.drop (p.len - 4)).headD 0).toNat
  | fallback, _, _ => 0

theorem Generic.padding_of_open {h' : GenericHandle S}
    (hopen : openMessage (decryptor g) h p tmpheader = .ok (h', p'))
    (hheader : tmpheader.length = g.blocksize) (hdecrypted : p.decrypted = g.blocksize) :
    p'.padding = (tmpheader.getD 4 0).toNat := by
  obtain ⟨h1, buffer, h2, p2, padding, -, hstore, hdec, hpadding, -, rfl⟩ :=
    openMessage_eq_ok.mp hopen
  have hbs := g.blocksize_ge
  rw [decryptPacket_getElem? g hdec (by simp only; omega)] at hpadding
  obtain ⟨-, rfl⟩ := store_eq_some_iff.mp hstore
  simp only [take_zero, nil_append] at hpadding
  rw [getElem?_append_left (by omega)] at hpadding
  rw [getD_eq_getElem?_getD, hpadding, Option.getD_some]

theorem Chacha20Poly1305.padding_of_open {g : ChachaPoly} {h h' : ChachaHandle}
    (hopen : openMessage (decryptor g) h p tmpheader = .ok (h', p'))
    (hheader : tmpheader.length = 4) (hdecrypted : p.decrypted = 4) (hlen : p.len < 2 ^ 32)
    (hle : 4 ≤ p.len) : p'.padding =
      (((h.packet.crypt g ((p.buffer.drop 4).take (p.len - 4))).1 ++
        (p.buffer.drop 4).drop (p.len - 4)).headD 0).toNat := by
  obtain ⟨h1, buffer, h2, p2, padding, hpre, hstore, hdec, hpadding, -, rfl⟩ :=
    openMessage_eq_ok.mp hopen
  have hpacket : h1.packet = h.packet := by
    simp only [decryptor, verifyHmacPre, bind_eq_ok, pure_eq_ok, Except.ok.injEq] at hpre
    obtain ⟨data, -, u, -, rfl⟩ := hpre
    rfl
  obtain ⟨-, rfl⟩ := store_eq_some_iff.mp hstore
  have hfirst := decryptPacket_getElem? g hdec
  simp only [hdecrypted, hpacket, u32Sub_of_le hlen hle, take_zero, nil_append,
    hheader, drop_left' hheader, Nat.zero_add, hpadding] at hfirst
  rw [headD_eq_head?_getD, ← hfirst, Option.getD_some]

theorem padding_of_open {h' : a.Handle} (hopen : openMessage a.decryptor a.handle p tmpheader = .ok (h', p'))
    (hheader : tmpheader.length = a.headersize) (hdecrypted : p.decrypted = a.headersize)
    (hlen : p.len < 2 ^ 32) (hsizes : SizesInRange a p.len) :
    p'.padding = a.paddingLength p tmpheader := by
  cases a with
  | generic g h0 => exact padding_of_open hopen hheader hdecrypted
  | chacha20 g h0 =>
    exact padding_of_open hopen hheader hdecrypted hlen hsizes.rest
  | fallback => cases hopen

end Osns
