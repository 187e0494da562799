import Osns.Model.Packet

/-! The encryptors of `encrypt-generic.c` and `encrypt-chacha20-poly1305.c` and the packet
writer of `send.c`. -/

namespace Osns

open Buffer

/-- The callbacks and sizes of `struct ssh_encryptor_s`. -/
structure Encryptor (σ : Type) where
  cipherBlocksize : ℕ
  hmacMaclen : ℕ
  getMessagePadding : ℕ → ℕ
  writeHmacPre : PacketOp σ
  encryptPacket : PacketOp σ
  writeHmacPost : PacketOp σ

/-- The algorithms of the generic operations; `none` is the method named "none". -/
structure GenericCrypto (S : Type) where
  cipher : Option (BlockCipher S)
  mac : Option Mac

def GenericCrypto.blocksize {S : Type} (g : GenericCrypto S) : ℕ :=
  match g.cipher with
  | none => 8
  | some c => c.blklen

def GenericCrypto.maclen {S : Type} (g : GenericCrypto S) : ℕ :=
  match g.mac with
  | none => 0
  | some m => m.maclen

/-- The cipher's chaining state and the bytes written to the MAC handle. -/
structure GenericHandle (S : Type) where
  cipherState : S
  written : Bytes

def GenericHandle.gcryMacWrite {S : Type} (h : GenericHandle S) (data : Bytes) : GenericHandle S :=
  { h with written := h.written ++ data }

namespace Generic

variable {S : Type}

/-- Room up to a whole block, one block more when that is under four bytes. The result is an
`unsigned char` in the source. -/
def getMessagePadding (blocksize len : ℕ) : ℕ :=
  let padding := u8 (blocksize - len % blocksize)
  if padding < 4 then u8 (padding + blocksize) else padding

def writeHmacNone : PacketOp (GenericHandle S) := fun h p => .ok (h, p)

def writeHmacPre : PacketOp (GenericHandle S) := fun h p => do
  let h := h.gcryMacWrite (storeUint32 p.sequence)
  let data ← inBounds (load p.buffer 0 p.len)
  return (h.gcryMacWrite data, p)

def encryptPacketNone : PacketOp (GenericHandle S) := fun h p => .ok (h, p)

def encryptPacket (c : BlockCipher S) : PacketOp (GenericHandle S) := fun h p => do
  let (buffer, cipherState) ← gcryCipherEncrypt c h.cipherState p.buffer 0 p.len
  return ({ h with cipherState }, { p with buffer })

def writeHmacPost (m : Mac) : PacketOp (GenericHandle S) := fun h p => do
  let buffer ← inBounds (store p.buffer p.len (m.mac h.written))
  return (h, { p with buffer })

/-- The encryptor that `init_encryptor` of the generic operations sets up. -/
def encryptor (g : GenericCrypto S) : Encryptor (GenericHandle S) where
  cipherBlocksize := g.blocksize
  hmacMaclen := g.maclen
  getMessagePadding := getMessagePadding g.blocksize
  writeHmacPre := match g.mac with
    | none => writeHmacNone
    | some _ => writeHmacPre
  encryptPacket := match g.cipher with
    | none => encryptPacketNone
    | some c => encryptPacket c
  writeHmacPost := match g.mac with
    | none => writeHmacNone
    | some m => writeHmacPost m

end Generic

/-- The header and packet stream handles and the MAC handle with its key. -/
structure ChachaHandle where
  header : StreamHandle
  packet : StreamHandle
  macKey : Bytes
  written : Bytes
  deriving DecidableEq, Repr

namespace Chacha20Poly1305

def blocksize : ℕ := 64

def headersize : ℕ := 4

def taglen : ℕ := 16

def keylen : ℕ := 32

def getMessagePaddingCustom (blocksize len : ℕ) : ℕ :=
  let padding := u8 (blocksize - u32Sub len 4 % blocksize)
  if padding < 4 then u8 (padding + blocksize) else padding

variable (g : ChachaPoly)

/-- Both handles restart at the nonce; the first keystream block of the packet handle keys
the authenticator. -/
def setSequence (h : ChachaHandle) (sequence : ℕ) : ChachaHandle :=
  let seqbuff := storeUint64 sequence
  let header := gcryCipherSetiv h.header seqbuff
  let packet := gcryCipherSetiv h.packet seqbuff
  let (poly1305Key, packet) := packet.crypt g (List.replicate blocksize 0)
  { header, packet, macKey := poly1305Key.take keylen, written := [] }

def writeHmacPre : PacketOp ChachaHandle := fun h p => .ok (h, p)

def encryptPacket : PacketOp ChachaHandle := fun h p => do
  let h := setSequence g h p.sequence
  let (buffer, header) ← inPlace p.buffer 0 headersize (h.header.crypt g)
  let (buffer, packet) ←
    inPlace buffer headersize (u32Sub p.len headersize) (h.packet.crypt g)
  return ({ h with header, packet }, { p with buffer })

def writeHmacPost : PacketOp ChachaHandle := fun h p => do
  let data ← inBounds (load p.buffer 0 p.len)
  let h := { h with written := h.written ++ data }
  let buffer ← inBounds (store p.buffer p.len (g.poly1305 h.macKey h.written))
  return (h, { p with buffer })

def encryptor : Encryptor ChachaHandle where
  cipherBlocksize := blocksize
  hmacMaclen := taglen
  getMessagePadding := getMessagePaddingCustom blocksize
  writeHmacPre := writeHmacPre
  encryptPacket := encryptPacket g
  writeHmacPost := writeHmacPost g

end Chacha20Poly1305

/-- The bytes `fill_random` writes, drawn from a random source. -/
def fillRandom (random : ℕ → UInt8) (size : ℕ) : Bytes := (List.range size).map random

/-- The packet that goes to the socket: length, padding length, payload and padding in a
stack buffer of the computed size, with MAC and encryption applied. What the stack buffer
holds at first is overwritten; the compression method "none" leaves the payload as it is. -/
def writeSshPacket {σ : Type} (e : Encryptor σ) (random : ℕ → UInt8) (h : σ) (sequence : ℕ)
    (payload : Bytes) : Except Fault (σ × Packet) := do
  let padding := e.getMessagePadding (u32 (payload.length + 5))
  let len := u32 (5 + payload.length + padding)
  let size := u32 (len + e.hmacMaclen)
  let buffer := List.replicate size 0
  let buffer ← inBounds (store buffer 0 (storeUint32 (u32Sub len 4)))
  let buffer ← inBounds (store buffer 4 [UInt8.ofNat padding])
  let buffer ← inBounds (store buffer 5 payload)
  let buffer ← inBounds (store buffer (5 + payload.length) (fillRandom random padding))
  let p : Packet := { len, size, padding, sequence, decrypted := 0, buffer }
  let (h, p) ← e.writeHmacPre h p
  let (h, p) ← e.encryptPacket h p
  e.writeHmacPost h p

end Osns
