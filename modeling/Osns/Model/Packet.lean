import Osns.Library.Buffer
import Osns.Library.KeyStream
import Osns.Library.Result
import Osns.Model.Word

/-! Packets, the ways a call on them can fail, and the libgcrypt handles they pass through.
The handles are parameters: their fields are what the libgcrypt manual promises. -/

namespace Osns

/-- How a call ends that does not return 0: with -1, or in a read or write outside the
buffer it works on. -/
inductive Fault
  | failed
  | overrun
  deriving DecidableEq, Repr

/-- The fields of `struct ssh_packet_s` that the packet functions use. -/
structure Packet where
  len : ℕ
  size : ℕ
  padding : ℕ
  sequence : ℕ
  decrypted : ℕ
  buffer : Bytes
  deriving DecidableEq, Repr

/-- The fields of `struct ssh_payload_s`; its `len` and `size` are the length of the buffer. -/
structure Payload where
  type : UInt8
  sequence : ℕ
  buffer : Bytes
  deriving DecidableEq, Repr

/-- A callback of an encryptor or decryptor with a private handle. -/
abbrev PacketOp (σ : Type) := σ → Packet → Except Fault (σ × Packet)

/-- An access that is undefined behaviour when it leaves the buffer. -/
def inBounds {α : Type} : Option α → Except Fault α
  | some a => .ok a
  | none => .error .overrun

@[simp] theorem inBounds_some {α : Type} (a : α) : inBounds (some a) = .ok a := rfl

theorem inBounds_eq_ok {α : Type} {x : Option α} {a : α} : inBounds x = .ok a ↔ x = some a := by
  cases x with
  | none => exact ⟨by rintro ⟨⟩, by rintro ⟨⟩⟩
  | some b => simp

/-- A call that transforms `n` bytes of a buffer in place. -/
def inPlace {τ : Type} (buf : Bytes) (off n : ℕ) (f : Bytes → Bytes × τ) :
    Except Fault (Bytes × τ) := do
  let data ← inBounds (Buffer.load buf off n)
  let (out, t) := f data
  let buf ← inBounds (Buffer.store buf off out)
  return (buf, t)

theorem inPlace_append {τ : Type} (as bs cs : Bytes) {off n : ℕ} (f : Bytes → Bytes × τ)
    (hoff : off = as.length) (hn : n = bs.length) (hf : (f bs).1.length = bs.length) :
    inPlace (as ++ bs ++ cs) off n f = .ok (as ++ (f bs).1 ++ cs, (f bs).2) := by
  have hload := Buffer.load_append as bs cs hoff hn
  have hstore := Buffer.store_append as bs cs (f bs).1 hoff hf
  simp only [inPlace, hload, hstore, inBounds_some, Result.ok_bind, Result.pure_eq_ok]

/-- A keyed block cipher handle with its chaining state. `acceptsLen` is the length check
that comes before any data is touched; whole blocks pass it in every mode. -/
structure BlockCipher (S : Type) where
  blklen : ℕ
  blklen_ge : 8 ≤ blklen
  acceptsLen : ℕ → Bool
  encrypt : S → Bytes → Bytes × S
  decrypt : S → Bytes → Bytes × S
  accepts_whole : ∀ n, blklen ∣ n → acceptsLen n = true
  encrypt_length : ∀ s xs, (encrypt s xs).1.length = xs.length
  decrypt_length : ∀ s xs, (decrypt s xs).1.length = xs.length
  encrypt_append : ∀ s xs ys, blklen ∣ xs.length → blklen ∣ ys.length →
    encrypt s (xs ++ ys) =
      ((encrypt s xs).1 ++ (encrypt (encrypt s xs).2 ys).1, (encrypt (encrypt s xs).2 ys).2)
  decrypt_encrypt : ∀ s xs, blklen ∣ xs.length → decrypt s (encrypt s xs).1 = (xs, (encrypt s xs).2)

def gcryCipherEncrypt {S : Type} (c : BlockCipher S) (s : S) (buf : Bytes) (off n : ℕ) :
    Except Fault (Bytes × S) :=
  if c.acceptsLen n then inPlace buf off n (c.encrypt s) else .error .failed

def gcryCipherDecrypt {S : Type} (c : BlockCipher S) (s : S) (buf : Bytes) (off n : ℕ) :
    Except Fault (Bytes × S) :=
  if c.acceptsLen n then inPlace buf off n (c.decrypt s) else .error .failed

/-- A keyed MAC: a function of the bytes written to the handle. -/
structure Mac where
  maclen : ℕ
  maclen_pos : 0 < maclen
  mac : Bytes → Bytes
  mac_length : ∀ xs, (mac xs).length = maclen

/-- The two primitives of chacha20-poly1305: a keystream fixed by key, nonce and position,
and a one-time authenticator. -/
structure ChachaPoly where
  keystream : Bytes → Bytes → ℕ → UInt8
  poly1305 : Bytes → Bytes → Bytes
  poly1305_length : ∀ key xs, (poly1305 key xs).length = 16

/-- A stream cipher handle; its position counts the keystream bytes already used. -/
structure StreamHandle where
  key : Bytes
  iv : Bytes
  pos : ℕ
  deriving DecidableEq, Repr

def gcryCipherSetiv (h : StreamHandle) (iv : Bytes) : StreamHandle := { h with iv, pos := 0 }

variable (g : ChachaPoly) (h : StreamHandle)

/-- Encryption and decryption of a stream cipher are the same xor. -/
def StreamHandle.crypt (data : Bytes) : Bytes × StreamHandle :=
  (KeyStream.mask (g.keystream h.key h.iv) h.pos data, { h with pos := h.pos + data.length })

@[simp] theorem StreamHandle.length_crypt (data : Bytes) :
    (h.crypt g data).1.length = data.length := by
  simp [StreamHandle.crypt]

@[simp] theorem StreamHandle.crypt_crypt (data : Bytes) :
    (h.crypt g (h.crypt g data).1).1 = data := by
  simp [StreamHandle.crypt]

/-- A part at the front is encrypted independently of what follows. -/
theorem StreamHandle.crypt_append (as bs : Bytes) :
    (h.crypt g (as ++ bs)).1 = (h.crypt g as).1 ++ ((h.crypt g as).2.crypt g bs).1 := by
  simp [StreamHandle.crypt, KeyStream.mask_append]

end Osns
