import Osns.Model.Send

/-! The decryptors of `decrypt-generic.c`, `decrypt-chacha20-poly1305.c` and `decryptors.c`, and the receive
loop `cb_read_socket_ssh` of `read-buffer.c` with its callbacks. -/

namespace Osns

/-- The callbacks and sizes of `struct ssh_decryptor_s`. `decryptLength` gets the packet with
the socket's receive buffer and returns the decrypted header. -/
structure Decryptor (σ : Type) where
  cipherHeadersize : ℕ
  hmacMaclen : ℕ
  decryptLength : σ → Packet → ℕ → Except Fault (Bytes × σ × Packet)
  verifyHmacPre : σ → Packet → Except Fault σ
  decryptPacket : PacketOp σ
  verifyHmacPost : σ → Packet → Except Fault σ

/-- `gcry_mac_verify` against the tag at an offset of the packet's buffer. -/
def gcryMacVerify (buffer : Bytes) (off : ℕ) (tag : Bytes) : Except Fault Unit := do
  let found ← inBounds (Buffer.load buffer off tag.length)
  if found = tag then .ok () else .error .failed

namespace Generic

variable {S : Type}

def verifyHmacNone (h : GenericHandle S) (_ : Packet) : Except Fault (GenericHandle S) := .ok h

def decryptLength (c : BlockCipher S) (h : GenericHandle S) (p : Packet) (len : ℕ) :
    Except Fault (Bytes × GenericHandle S × Packet) := do
  let data ← inBounds (Buffer.load p.buffer 0 len)
  let (header, cipherState) ← gcryCipherDecrypt c h.cipherState data 0 len
  return (header, { h with cipherState }, { p with decrypted := len })

def decryptLengthNone (h : GenericHandle S) (p : Packet) (len : ℕ) :
    Except Fault (Bytes × GenericHandle S × Packet) := do
  let data ← inBounds (Buffer.load p.buffer 0 len)
  return (data, h, { p with decrypted := len })

def decryptPacket (c : BlockCipher S) : PacketOp (GenericHandle S) := fun h p => do
  let (buffer, cipherState) ←
    gcryCipherDecrypt c h.cipherState p.buffer p.decrypted (u32Sub p.len p.decrypted)
  return ({ h with cipherState }, { p with buffer, decrypted := p.len })

def decryptPacketNone : PacketOp (GenericHandle S) := fun h p => .ok (h, p)

def verifyHmacPost (m : Mac) (h : GenericHandle S) (p : Packet) :
    Except Fault (GenericHandle S) := do
  let h := h.gcryMacWrite (storeUint32 p.sequence)
  let data ← inBounds (Buffer.load p.buffer 0 p.len)
  let h := h.gcryMacWrite data
  gcryMacVerify p.buffer p.len (m.mac h.written)
  return h

/-- The decryptor that `init_decryptor` of the generic operations sets up. -/
def decryptor (g : GenericCrypto S) : Decryptor (GenericHandle S) where
  cipherHeadersize := g.blocksize
  hmacMaclen := g.maclen
  decryptLength := match g.cipher with
    | none => decryptLengthNone
    | some c => decryptLength c
  verifyHmacPre := verifyHmacNone
  decryptPacket := match g.cipher with
    | none => decryptPacketNone
    | some c => decryptPacket c
  verifyHmacPost := match g.mac with
    | none => verifyHmacNone
    | some m => verifyHmacPost m

end Generic

namespace Chacha20Poly1305

variable (g : ChachaPoly)

/-- The number of bytes is an `unsigned int` sum; the address of the tag is computed on
pointers and does not wrap around. -/
def verifyHmacPre (h : ChachaHandle) (p : Packet) : Except Fault ChachaHandle := do
  let data ← inBounds (Buffer.load p.buffer 0 (u32 (p.len + 4)))
  let h := { h with written := h.written ++ data }
  gcryMacVerify p.buffer (p.len + 4) (g.poly1305 h.macKey h.written)
  return h

def decryptLength (h : ChachaHandle) (p : Packet) (len : ℕ) :
    Except Fault (Bytes × ChachaHandle × Packet) := do
  let h := setSequence g h p.sequence
  let data ← inBounds (Buffer.load p.buffer 0 len)
  let (buffer, header) := h.header.crypt g data
  return (buffer, { h with header }, { p with decrypted := len })

def decryptPacket : PacketOp ChachaHandle := fun h p => do
  let len := u32Sub p.len p.decrypted
  let (buffer, packet) ← inPlace p.buffer p.decrypted len (h.packet.crypt g)
  return ({ h with packet }, { p with buffer, decrypted := u32 (p.decrypted + len) })

def verifyHmacPost (h : ChachaHandle) (_ : Packet) : Except Fault ChachaHandle := .ok h

def decryptor : Decryptor ChachaHandle where
  cipherHeadersize := headersize
  hmacMaclen := taglen
  decryptLength := decryptLength g
  verifyHmacPre := verifyHmacPre g
  decryptPacket := decryptPacket g
  verifyHmacPost := verifyHmacPost

end Chacha20Poly1305

/-- The decryptor `create_ssh_decryptor` falls back on when it can not set one up: all its
callbacks report an error. -/
def fallbackDecryptor (σ : Type) : Decryptor σ where
  cipherHeadersize := 0
  hmacMaclen := 0
  decryptLength := fun _ _ _ => .error .failed
  verifyHmacPre := fun _ _ => .error .failed
  decryptPacket := fun _ _ => .error .failed
  verifyHmacPost := fun _ _ => .error .failed


/-- The error codes `EIO`, `ENOTCONN`, `ETIMEDOUT`, `ENOMEM` and `EPROTO` of the loop. -/
inductive Errno
  | eio
  | enotconn
  | etimedout
  | enomem
  | eproto
  deriving DecidableEq, Repr

/-- The hypothesis on `get_cryptoactor`, which the repository does not contain: it hands out any actor
that is idle, or a new one while there may be more. The list and the count are those behind the call. -/
def assumedCryptoactor {α : Type} (idle : List α) (count maxCount : ℕ) (new : α) :
    Option ℕ → Option (α × List α × ℕ)
  | some n => idle[n]?.map fun actor => (actor, idle.eraseIdx n, count)
  | none => if maxCount = 0 ∨ count < maxCount then some (new, idle, count + 1) else none

/-- The decryptors `create_ssh_decryptor` sets up, each with its handle. -/
inductive DecryptActor : Type 1
  | generic {S : Type} (g : GenericCrypto S) (h : GenericHandle S)
  | chacha20 (g : ChachaPoly) (h : ChachaHandle)
  | fallback

namespace DecryptActor

def Handle : DecryptActor → Type
  | @generic S _ _ => GenericHandle S
  | chacha20 _ _ => ChachaHandle
  | fallback => Unit

def handle : (a : DecryptActor) → a.Handle
  | generic _ h => h
  | chacha20 _ h => h
  | fallback => ()

def setHandle : (a : DecryptActor) → a.Handle → DecryptActor
  | generic g _, h => generic g h
  | chacha20 g _, h => chacha20 g h
  | fallback, _ => fallback

def decryptor : (a : DecryptActor) → Decryptor a.Handle
  | generic g _ => Generic.decryptor g
  | chacha20 g _ => Chacha20Poly1305.decryptor g
  | fallback => fallbackDecryptor Unit

end DecryptActor

/-- The calls whose failure the loop distinguishes. -/
inductive Stage
  | decryptLength
  | verifyHmacPre
  | decryptPacket
  | verifyHmacPost
  deriving DecidableEq, Repr

/-- A packet handed to a payload handler, with the sizes of the decryptor that opened it. -/
structure Message where
  headersize : ℕ
  maclen : ℕ
  packet : Packet
  payload : Payload
  deriving DecidableEq, Repr

/-- What a run of the loop does. -/
inductive Event
  | failure (stage : Stage)
  | overrun
  | workerthread
  | payload (m : Message)
  | disconnect
  deriving DecidableEq, Repr

def atStage {α : Type} (stage : Stage) : Except Fault α → Except Event α
  | .ok a => .ok a
  | .error .failed => .error (.failure stage)
  | .error .overrun => .error .overrun

/-- The callback sets of `set_ssh_receive_behaviour` and of `cb_post_process_kex`. -/
inductive Behaviour
  | serial
  | parallel
  | kex
  deriving DecidableEq, Repr

/-- What the loop meets outside itself: the session's limit, whether an allocation for a
payload of a given length succeeds, the byte behind an empty payload, how a wait ends that
gets too few bytes, and what waiting for the new keys gives. -/
structure ReceiveEnv where
  maxPacketSize : ℕ
  maxPacketSize_lt : maxPacketSize < 2 ^ 32
  malloc : ℕ → Bool
  heapByte : UInt8
  closing : Bool
  newkeys : Except Errno (DecryptActor × Bool)

/-- The default limit of a session, and memory that does not run out. -/
def defaultEnv : ReceiveEnv where
  maxPacketSize := 32768
  maxPacketSize_lt := by decide
  malloc := fun _ => true
  heapByte := 0
  closing := false
  newkeys := .error .etimedout

variable (env : ReceiveEnv)

def ReceiveEnv.waitError : Errno :=
  if env.closing then .enotconn else .etimedout

/-- `struct ssh_receive_s` with the socket's read data. `incoming` holds the pieces the peer
has sent that have not reached the read buffer yet. -/
structure ReceiveState where
  threads : ℕ
  sequenceNumber : ℕ
  reading : Bool
  rd : Bytes
  incoming : List Bytes
  behaviour : Behaviour
  actor : DecryptActor
  trace : List Event

variable (s : ReceiveState)

def ReceiveState.emit (e : Event) : ReceiveState := { s with trace := s.trace ++ [e] }

def ReceiveState.setActor (actor : DecryptActor) : ReceiveState := { s with actor }

/-- The only thread that reads, with the socket's read callback disabled. -/
def ReceiveState.enter (rd : Bytes) (incoming : List Bytes) : ReceiveState :=
  { s with threads := s.threads + 1, reading := false, rd, incoming }

def ReceiveState.countPacket : ReceiveState :=
  { s with sequenceNumber := u32 (s.sequenceNumber + 1) }

/-- A message of `n` bytes is taken off the read buffer, and others may read again. -/
def ReceiveState.leave (n : ℕ) (rd : Bytes) (incoming : List Bytes) : ReceiveState :=
  { s with threads := s.threads - 1, reading := true, rd := rd.drop n, incoming }

/-- All bytes of the peer that are not consumed yet. -/
def ReceiveState.stream : Bytes := s.rd ++ s.incoming.flatten

def waitBytes (n : ℕ) (rd : Bytes) : List Bytes → Option (Bytes × List Bytes)
  | [] => if n ≤ rd.length then some (rd, []) else none
  | chunk :: chunks =>
    if n ≤ rd.length then some (rd, chunk :: chunks) else waitBytes n (rd ++ chunk) chunks

/-- Where one pass through the loop body leads. -/
inductive Flow : Type 1
  | returned (s : ReceiveState)
  | crashed (s : ReceiveState)
  | next (s : ReceiveState) (errcode : Option Errno)

/-- A failed call leaves the nested conditions with the error code set so far; after an access
outside a buffer nothing more is known. -/
def ReceiveState.stop (e : Event) (errcode : Option Errno) : Flow :=
  match e with
  | .overrun => .crashed (s.emit .overrun)
  | e => .next (s.emit e) errcode

/-- `cb_post_read_header_parallel`, or nothing. -/
def preProcess : ReceiveState :=
  if s.behaviour = .parallel ∧ s.rd ≠ [] then s.emit .workerthread else s

/-- `cb_pre_process_serial`, or nothing. -/
def postProcess01 : ReceiveState :=
  if s.behaviour = .serial ∧ s.rd ≠ [] then s.emit .workerthread else s

def msgNewkeys : UInt8 := 21

/-- `cb_post_process_kex`, or nothing. -/
def postProcess02 (s : ReceiveState) (type : UInt8) : Flow :=
  if s.behaviour = .kex ∧ type = msgNewkeys then
    match env.newkeys with
    | .error errcode => .next s (some errcode)
    | .ok (actor, parallel) =>
      .next { s.setActor actor with behaviour := if parallel then .parallel else .serial } none
  else .next s none

def openMessage {σ : Type} (d : Decryptor σ) (h : σ) (p : Packet) (tmpheader : Bytes) :
    Except Event (σ × Packet) := do
  let h ← atStage .verifyHmacPre (d.verifyHmacPre h p)
  let buffer ← atStage .decryptPacket (inBounds (Buffer.store p.buffer 0 tmpheader))
  let (h, p) ← atStage .decryptPacket (d.decryptPacket h { p with buffer })
  let padding ← atStage .verifyHmacPost (inBounds p.buffer[4]?)
  let p := { p with padding := padding.toNat }
  let h ← atStage .verifyHmacPost (d.verifyHmacPost h p)
  return (h, p)

/-- `decompress_packet` of the method "none"; no result when the allocation fails. -/
def decompressPacket (p : Packet) : Except Fault (Option Payload) := do
  let len := u32Sub (u32Sub p.len 1) p.padding
  if env.malloc len then
    let buffer ← inBounds (Buffer.load p.buffer 5 len)
    return some { type := buffer.headD env.heapByte, sequence := p.sequence, buffer }
  else return none

def processPayload (s : ReceiveState) (headersize maclen : ℕ) (p : Packet) : Flow :=
  match decompressPacket env p with
  | .error _ => .crashed (s.emit .overrun)
  | .ok none => .next s (some .enomem)
  | .ok (some payload) =>
    let s := s.emit (.payload { headersize, maclen, packet := p, payload })
    postProcess02 env s payload.type

/-- The body of the loop from the point where the whole message has been taken over. -/
def readMessage (s : ReceiveState) (p : Packet) (tmpheader : Bytes) : Flow :=
  let d := s.actor.decryptor
  match openMessage d s.actor.handle p tmpheader with
  | .error e => (preProcess s).stop e (some .eproto)
  | .ok (h, p) =>
    let s := postProcess01 ((preProcess s).setActor (s.actor.setHandle h))
    processPayload env s d.cipherHeadersize d.hmacMaclen p

/-- The size of the message a decrypted header announces, in `unsigned int` arithmetic. -/
def messageSize (tmpheader : Bytes) (maclen : ℕ) : ℕ := u32 (getUint32 tmpheader + 4 + maclen)

/-- Checking the announced size, waiting for the message and taking it over. -/
def takeMessage (s : ReceiveState) (maclen : ℕ) (p : Packet) (tmpheader : Bytes) : Flow :=
  if env.maxPacketSize ≤ messageSize tmpheader maclen then .next s (some .eio)
  else
    match waitBytes (messageSize tmpheader maclen) s.rd s.incoming with
    | none => .next { s with rd := s.stream, incoming := [] } (some env.waitError)
    | some (rd, incoming) =>
      readMessage env (s.leave (messageSize tmpheader maclen) rd incoming)
        { p with
            len := getUint32 tmpheader
            buffer := rd.take (messageSize tmpheader maclen) }
        tmpheader

/-- The packet before its length is known; it still lies in the socket's read buffer. -/
def ReceiveState.newPacket : Packet where
  len := 0
  size := 0
  padding := 0
  sequence := s.sequenceNumber
  decrypted := 0
  buffer := s.rd

/-- The body of the loop from the label `readpacket` on. -/
def readPacket (s : ReceiveState) : Flow :=
  let d := s.actor.decryptor
  match atStage .decryptLength (d.decryptLength s.actor.handle s.newPacket d.cipherHeadersize) with
  | .error e => s.countPacket.stop e none
  | .ok (tmpheader, h, p) =>
    takeMessage env (s.countPacket.setActor (s.actor.setHandle h)) d.hmacMaclen p tmpheader

def readIteration (s : ReceiveState) : Flow :=
  if 0 < s.threads ∨ s.rd = [] then .returned s
  else
    match waitBytes s.actor.decryptor.cipherHeadersize s.rd s.incoming with
    | none => .next (s.enter s.stream []) (some env.waitError)
    | some (rd, incoming) => readPacket env (s.enter rd incoming)

/-- The error codes after which the connection is given up. -/
def Errno.disconnects : Errno → Bool
  | .eio | .enotconn | .etimedout | .enomem => true
  | .eproto => false

/-- The check behind the loop. -/
def ReceiveState.outcheck (errcode : Errno) : ReceiveState :=
  if errcode.disconnects then s.emit .disconnect else s

def readLoop (env : ReceiveEnv) : ℕ → ReceiveState → Option ReceiveState
  | 0, _ => none
  | fuel + 1, s =>
    match readIteration env s with
    | .returned s => some s
    | .crashed s => some s
    | .next s none => readLoop env fuel s
    | .next s (some errcode) => some (s.outcheck errcode)

/-- A pass that reaches the next one takes bytes off the stream or leaves the thread counter
up, so the number of bytes bounds the number of passes. -/
def cbReadSocketSsh (s : ReceiveState) : Option ReceiveState := readLoop env (s.stream.length + 2) s

end Osns
