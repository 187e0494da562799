import Osns.Library.Fifo
import Osns.Model.Receive

/-! The threads that send over one connection, after `_write_ssh_packet` of `send.c`. Every critical
section is a step of its own, and so is every call between two of them that other threads can see. -/

namespace Osns

/-- The callbacks of a sender: those of `set_sender_default` or of `set_sender_serial`. -/
inductive SendBehaviour
  | default
  | serial
  deriving DecidableEq, Repr

/-- An encryptor with the counter it was created for, the keys it was created from and the state of
its cipher. The keys are numbered by the key exchanges; there are none while they are replaced. A
counter is the number of key exchanges, so the field `kexctr` is its value as a 32 bit number. -/
structure SendEncryptor (σ : Type) where
  kexctr : ℕ
  keys : Option ℕ
  state : σ
  deriving DecidableEq

/-- The state of a new encryptor, and `write_hmac_pre`, `encrypt_packet` and `write_hmac_post` for
the packet of a payload. -/
structure SendCipher (σ : Type) where
  init : Option ℕ → σ
  encrypt : σ → Payload → σ × Bytes

/-- Where a thread is in `_write_ssh_packet`, with the encryptor and the packet it holds. -/
inductive SenderPc (σ : Type)
  /-- On the list, in `queue_sender`. -/
  | queued
  /-- In `get_cryptoactor`, which was called with this counter. -/
  | asking (kexctr : ℕ)
  | encrypting (e : SendEncryptor σ)
  | encrypted (e : SendEncryptor σ) (bytes : Bytes)
  /-- The encryptor has been released; in `pre_send`. -/
  | released (bytes : Bytes)
  /-- In `pre_send_default`, behind the wait to be first. -/
  | first (bytes : Bytes)
  /-- In `pre_send_default`, with the flag. -/
  | locked (bytes : Bytes)
  | ready (bytes : Bytes)
  /-- In `write_ssh_socket`. -/
  | writing (bytes : Bytes)
  /-- In `post_send`, with the flag. -/
  | written
  /-- In `post_send_serial`, without the flag. -/
  | unlocked
  /-- Off the list, in front of `reset_ssh_encrypt`; the list stays locked from here on. -/
  | removed
  /-- Behind `remove_encryptors`. -/
  | emptied
  /-- Behind `clear_ssh_string` for the keys. -/
  | cleared
  /-- Behind `reset_ssh_encrypt`. -/
  | installed
  /-- Behind `kexctr++`. -/
  | switched
  /-- A call has failed and the encryptor has been released. -/
  | failed
  deriving DecidableEq

/-- A call of `_write_ssh_packet`. The ticket is the number of calls that have taken a sequence
number before, so the field `sequence` is the ticket as a 32 bit number. -/
structure Sender (σ : Type) where
  pc : SenderPc σ
  ticket : ℕ
  payload : Payload
  behaviour : SendBehaviour

/-- A payload that has gone through `encrypt_packet`, with the keys that were used. -/
structure EncryptedPacket where
  ticket : ℕ
  payload : Payload
  keys : Option ℕ
  bytes : Bytes
  deriving DecidableEq, Repr

/-- `payload->sequence=sender.sequence`. -/
def Sender.numbered {σ : Type} (t : Sender σ) : Payload :=
  { t.payload with sequence := u32 t.ticket }

def Sender.encryptedBy {σ : Type} (t : Sender σ) (cipher : SendCipher σ) (e : SendEncryptor σ) :
    EncryptedPacket where
  ticket := t.ticket
  payload := t.numbered
  keys := e.keys
  bytes := (cipher.encrypt e.state t.numbered).2

def SendEncryptor.after {σ : Type} (e : SendEncryptor σ) (cipher : SendCipher σ)
    (payload : Payload) : SendEncryptor σ :=
  { e with state := (cipher.encrypt e.state payload).1 }

/-- A packet at the socket. -/
structure SealedPacket where
  ticket : ℕ
  bytes : Bytes
  deriving DecidableEq, Repr

def SealedPacket.sequence (p : SealedPacket) : ℕ := u32 p.ticket

def EncryptedPacket.sealed (p : EncryptedPacket) : SealedPacket := ⟨p.ticket, p.bytes⟩

/-- `struct ssh_send_s` with its encryption and the threads that use it. The list lock and the flag
name the thread that has them, and `kexPhase` is what `change_ssh_connection_setup` checks before it
calls back. The last two fields are history: what has been encrypted, and what has happened at the
socket. -/
structure SendState (ι σ : Type) where
  sender : ι → Option (Sender σ)
  senders : List ι
  listLock : Option ι
  flagLock : Option ι
  behaviour : SendBehaviour
  sequenceNumber : ℕ
  kexctr : ℕ
  keys : Option ℕ
  count : ℕ
  maxCount : ℕ
  idle : List (SendEncryptor σ)
  kexPhase : Bool
  encrypted : List EncryptedPacket
  socket : List (Fifo.Event SealedPacket)

namespace SendState

variable {ι σ : Type} [DecidableEq ι] (s : SendState ι σ)

/-- The thread goes on with its call. -/
def move (i : ι) (t : Sender σ) (pc : SenderPc σ) : SendState ι σ :=
  { s with sender := Function.update s.sender i (some { t with pc }) }

def leave (i : ι) : SendState ι σ := { s with sender := Function.update s.sender i none }

def removeListElement (i : ι) : SendState ι σ := { s with senders := s.senders.erase i }

def atSocket (event : Fifo.Event SealedPacket) : SendState ι σ :=
  { s with socket := s.socket ++ [event] }

/-- The first part of the call: under the lock of the list the thread gets its place, its sequence
number and its callbacks. `write_ssh_packet_kexinit` switches to serial sending there. -/
def enqueue (i : ι) (payload : Payload) (kexinit : Bool) : SendState ι σ :=
  let behaviour := if kexinit then .serial else s.behaviour
  let t := { pc := .queued, ticket := s.sequenceNumber, payload, behaviour }
  { s with
    sender := Function.update s.sender i (some t)
    senders := s.senders ++ [i]
    sequenceNumber := s.sequenceNumber + 1
    behaviour }

variable (cipher : SendCipher σ)

/-- A new encryptor is one of `create_ssh_encryptor`. -/
def getEncryptor (s : SendState ι σ) (i : ι) (choice : Option ℕ) : Option (SendState ι σ) :=
  match s.sender i with
  | none => none
  | some t =>
    match t.pc with
    | .asking kexctr =>
      let new := { kexctr, keys := s.keys, state := cipher.init s.keys }
      (assumedCryptoactor s.idle s.count s.maxCount new choice).map fun (e, idle, count) =>
        { s with idle, count }.move i t (.encrypting e)
    | _ => none

def encryptPacket (s : SendState ι σ) (i : ι) (t : Sender σ) (e : SendEncryptor σ) :
    SendState ι σ :=
  let packet := t.encryptedBy cipher e
  { s with encrypted := s.encrypted ++ [packet] }.move i t
    (.encrypted (e.after cipher packet.payload) packet.bytes)

/-- An encryptor from before the last key exchange is freed. -/
def queueSshEncryptor (e : SendEncryptor σ) : SendState ι σ :=
  { s with
    idle := if u32 e.kexctr = u32 s.kexctr then s.idle ++ [e] else s.idle
    count := if u32 e.kexctr = u32 s.kexctr then s.count else s.count - 1 }

/-- The next step of a thread that does not fail. `limit` is the value of `max_count` for the keys
that `reset_ssh_encrypt` installs. -/
def advance (limit : ℕ → ℕ) (s : SendState ι σ) (i : ι) : Option (SendState ι σ) :=
  match s.sender i with
  | none => none
  | some t =>
    match t.pc, t.behaviour with
    | .queued, .default => some (s.move i t (.asking s.kexctr))
    | .queued, .serial =>
      if s.senders.head? = some i then some (s.move i t (.asking s.kexctr)) else none
    | .asking _, _ => none
    | .encrypting e, _ => some (s.encryptPacket cipher i t e)
    | .encrypted e bytes, _ => some ((s.queueSshEncryptor e).move i t (.released bytes))
    | .released bytes, .default =>
      if s.senders.head? = some i then some (s.move i t (.first bytes)) else none
    | .released bytes, .serial =>
      if s.flagLock = none then
        some ({ s with flagLock := some i }.move i t (.ready bytes))
      else none
    | .first bytes, _ =>
      if s.flagLock = none then
        some ({ s with flagLock := some i }.move i t (.locked bytes))
      else none
    | .locked bytes, _ =>
      if s.listLock = none then
        some ((s.removeListElement i).move i t (.ready bytes))
      else none
    | .ready bytes, _ =>
      some ((s.atSocket (.start ⟨t.ticket, bytes⟩)).move i t (.writing bytes))
    | .writing bytes, _ =>
      some ((s.atSocket (.finish ⟨t.ticket, bytes⟩)).move i t .written)
    | .written, .default => some ({ s with flagLock := none }.leave i)
    | .written, .serial => some ({ s with flagLock := none }.move i t .unlocked)
    | .unlocked, _ =>
      if s.listLock = none then
        if t.payload.type = msgNewkeys then
          some ({ s.removeListElement i with listLock := some i }.move i t .removed)
        else some ((s.removeListElement i).leave i)
      else none
    | .removed, _ =>
      some ({ s with idle := [], count := s.count - s.idle.length }.move i t .emptied)
    | .emptied, _ => some ({ s with keys := none }.move i t .cleared)
    | .cleared, _ =>
      let number := s.kexctr + 1
      some ({ s with keys := some number, maxCount := limit number }.move i t .installed)
    | .installed, _ => some ({ s with kexctr := s.kexctr + 1 }.move i t .switched)
    | .switched, _ =>
      let behaviour := if s.kexPhase then .default else s.behaviour
      some ({ s with behaviour, listLock := none }.leave i)
    | .failed, _ =>
      if s.listLock = none then some ((s.removeListElement i).leave i) else none

/-- A call of the thread that fails: creating an encryptor, one of the calls that build the packet,
or the write to the socket, behind which `post_send` is called all the same. -/
def fail (i : ι) : Option (SendState ι σ) :=
  match s.sender i with
  | none => none
  | some t =>
    match t.pc with
    | .asking _ => some (s.move i t .failed)
    | .encrypting e => some ((s.queueSshEncryptor e).move i t .failed)
    | .encrypted e _ => some ((s.queueSshEncryptor e).move i t .failed)
    | .writing _ => some (s.move i t .written)
    | _ => none

end SendState

/-- Who takes the next step. The choice in `get` is the idle encryptor that is handed out, none for
a new one; `setup` is a change of the connection's phase. -/
inductive SendAction (ι : Type)
  | submit (i : ι) (payload : Payload) (kexinit : Bool)
  | advance (i : ι)
  | get (i : ι) (choice : Option ℕ)
  | fail (i : ι)
  | setup (kexPhase : Bool)
  deriving DecidableEq, Repr

def sendStep {ι σ : Type} [DecidableEq ι] (cipher : SendCipher σ) (limit : ℕ → ℕ)
    (s : SendState ι σ) : SendAction ι → Option (SendState ι σ)
  | .submit i payload kexinit =>
    if (s.sender i).isNone ∧ s.listLock = none then some (s.enqueue i payload kexinit) else none
  | .advance i => s.advance cipher limit i
  | .get i choice => s.getEncryptor cipher i choice
  | .fail i => s.fail i
  | .setup kexPhase => some { s with kexPhase }

/-- A connection, with the callback of `set_sender_disconnect` in place of those of its state or without
it. -/
structure SendConnection (ι σ : Type) where
  state : SendState ι σ
  disconnected : Bool

inductive ConnectionAction (ι : Type)
  /-- `set_ssh_send_behaviour` for a disconnected connection. -/
  | disconnect
  /-- A call whose payload cannot be compressed. -/
  | refuse (i : ι)
  | send (a : SendAction ι)
  deriving DecidableEq, Repr

/-- `write_ssh_packet_kexinit` and `setup_cb_send_newkeys` choose other callbacks. -/
def SendState.restores {ι σ : Type} (s : SendState ι σ) : SendAction ι → Bool
  | .submit _ _ kexinit => kexinit
  | .advance i =>
    s.kexPhase && (s.sender i).any fun t =>
      match t.pc with
      | .switched => true
      | _ => false
  | _ => false

def connectionStep {ι σ : Type} [DecidableEq ι] (cipher : SendCipher σ) (limit : ℕ → ℕ)
    (c : SendConnection ι σ) : ConnectionAction ι → Option (SendConnection ι σ)
  | .disconnect => some { c with disconnected := true }
  | .refuse i => if (c.state.sender i).isNone then some c else none
  | .send a =>
    match a, c.disconnected with
    | .submit i _ false, true =>
      -- `queue_sender_disconnect` fails behind the first part of the call, which returns
      if (c.state.sender i).isNone ∧ c.state.listLock = none then
        let senders := c.state.senders ++ [i]
        let sequenceNumber := c.state.sequenceNumber + 1
        some { c with state := { c.state with senders, sequenceNumber } }
      else none
    | _, _ =>
      (sendStep cipher limit c.state a).map fun state =>
        { state, disconnected := c.disconnected && !c.state.restores a }

end Osns
