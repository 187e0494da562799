import Osns.Model.Send

/-! The plain packet that every encryptor is given, and the padding that shapes it. -/

namespace Osns

open Generic List

def plainPacket (payload padding : Bytes) : Bytes :=
  storeUint32 (1 + payload.length + padding.length) ++ [UInt8.ofNat padding.length] ++
    payload ++ padding

@[simp] theorem length_plainPacket (payload padding : Bytes) :
    (plainPacket payload padding).length = 5 + payload.length + padding.length := by
  simp only [plainPacket, length_append, length_storeUint32, length_singleton]

@[simp] theorem length_fillRandom (random : ℕ → UInt8) (size : ℕ) :
    (fillRandom random size).length = size := by
  simp [fillRandom]

/-- A write to the front of what has not been written yet. -/
private theorem store_front (done xs : Bytes) (off n k : ℕ) (hoff : off = done.length)
    (hn : n = xs.length + k) :
    Buffer.store (done ++ replicate n 0) off xs = some (done ++ xs ++ replicate k 0) := by
  rw [hn, ← replicate_append_replicate, ← append_assoc]
  exact Buffer.store_append done _ _ xs hoff (by simp)

section Writer

variable {σ : Type} (e : Encryptor σ) (random : ℕ → UInt8) (h : σ) (sequence : ℕ) (payload : Bytes)

def initialPacket (padding : ℕ) : Packet where
  len := 5 + payload.length + padding
  size := 5 + payload.length + padding + e.hmacMaclen
  padding := padding
  sequence := sequence
  decrypted := 0
  buffer := plainPacket payload (fillRandom random padding) ++ replicate e.hmacMaclen 0

/-- As long as no size wraps around, writing a packet lays it out completely and then runs the
encryptor's three calls. -/
theorem writeSshPacket_eq {padding : ℕ}
    (hpadding : e.getMessagePadding (payload.length + 5) = padding)
    (hsize : 5 + payload.length + padding + e.hmacMaclen < 2 ^ 32) :
    writeSshPacket e random h sequence payload = (do
      let (h, p) ← e.writeHmacPre h (initialPacket e random sequence payload padding)
      let (h, p) ← e.encryptPacket h p
      e.writeHmacPost h p) := by
  have hlen5 : u32 (payload.length + 5) = payload.length + 5 := u32_of_lt (by omega)
  have hlen : u32 (5 + payload.length + padding) = 5 + payload.length + padding :=
    u32_of_lt (by omega)
  have hsz : u32 (5 + payload.length + padding + e.hmacMaclen) =
      5 + payload.length + padding + e.hmacMaclen := u32_of_lt hsize
  have hsub : u32Sub (5 + payload.length + padding) 4 = 1 + payload.length + padding := by
    rw [u32Sub_of_le (by omega) (by omega)]
    omega
  have h1 := store_front [] (storeUint32 (1 + payload.length + padding)) 0
    (5 + payload.length + padding + e.hmacMaclen) (1 + payload.length + padding + e.hmacMaclen)
    rfl (by rw [length_storeUint32]; omega)
  have h2 := store_front (storeUint32 (1 + payload.length + padding)) [UInt8.ofNat padding] 4
    (1 + payload.length + padding + e.hmacMaclen) (payload.length + padding + e.hmacMaclen)
    rfl (by rw [length_singleton]; omega)
  have h3 := store_front
    (storeUint32 (1 + payload.length + padding) ++ [UInt8.ofNat padding]) payload 5
    (payload.length + padding + e.hmacMaclen) (padding + e.hmacMaclen) rfl (by omega)
  have h4 := store_front
    (storeUint32 (1 + payload.length + padding) ++ [UInt8.ofNat padding] ++ payload)
    (fillRandom random padding) (5 + payload.length) (padding + e.hmacMaclen) e.hmacMaclen
    (by simp; omega) (by rw [length_fillRandom])
  simp only [nil_append] at h1
  simp only [writeSshPacket, hlen5, hpadding, hlen, hsz, hsub, h1, h2, h3, h4, inBounds_some,
    Result.ok_bind, initialPacket, plainPacket, length_fillRandom]

end Writer

/-! ## Padding -/

/-- Padding has at least four bytes and fills the last block, as long as it fits in the
`unsigned char` that holds it. -/
theorem getMessagePadding_spec (blocksize len : ℕ) (hlow : 8 ≤ blocksize)
    (hhigh : blocksize ≤ 252) :
    4 ≤ getMessagePadding blocksize len ∧
      getMessagePadding blocksize len ≤ blocksize + 3 ∧
      blocksize ∣ len + getMessagePadding blocksize len := by
  have hmod : len % blocksize < blocksize := Nat.mod_lt _ (by omega)
  have hu8 : u8 (blocksize - len % blocksize) = blocksize - len % blocksize := u8_of_lt (by omega)
  have hdvd : blocksize ∣ len + (blocksize - len % blocksize) := by
    have hle := Nat.mod_le len blocksize
    have hsum : len + (blocksize - len % blocksize) =
        (len - len % blocksize) + blocksize := by omega
    rw [hsum]
    exact Nat.dvd_add (Nat.dvd_sub_mod len) (Nat.dvd_refl _)
  by_cases hshort : blocksize - len % blocksize < 4
  · have hpad : getMessagePadding blocksize len =
        blocksize - len % blocksize + blocksize := by
      simp only [getMessagePadding, hu8, hshort, if_true]
      exact u8_of_lt (by omega)
    rw [hpad, ← Nat.add_assoc]
    exact ⟨by omega, by omega, Nat.dvd_add hdvd (Nat.dvd_refl _)⟩
  · have hpad : getMessagePadding blocksize len = blocksize - len % blocksize := by
      simp [getMessagePadding, hu8, hshort]
    rw [hpad]
    exact ⟨by omega, by omega, hdvd⟩

theorem getMessagePaddingCustom_eq {len : ℕ} (blocksize : ℕ) (hlow : 4 ≤ len)
    (hhigh : len < 2 ^ 32) :
    Chacha20Poly1305.getMessagePaddingCustom blocksize len =
      getMessagePadding blocksize (len - 4) := by
  simp [Chacha20Poly1305.getMessagePaddingCustom, getMessagePadding, u32Sub_of_le hhigh hlow]

end Osns
