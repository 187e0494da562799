import Osns.Model.Receive

/-! The threads that read from one connection, after `cb_read_socket_ssh` of `read-buffer.c`, and the
receiving of bytes by `process_connection_socket_recv_event` of `event.c`. Every critical section is a
step of its own, and so is every access in between to what other threads can see. This is about calls
that succeed, between two key exchanges: a single thread with all that can fail is `cbReadSocketSsh`. -/

namespace Osns

/-- A message from its header on, with the decryptor that has read the header. The ticket is the number
of messages that have been started before, so the field `sequence` of the packet is the ticket as a 32
bit number. -/
structure PendingMessage (σ : Type) where
  ticket : ℕ
  handle : σ
  packet : Packet
  tmpheader : Bytes

/-- The bytes of the message are copied. -/
def PendingMessage.fill {σ : Type} (m : PendingMessage σ) (bytes : Bytes) : PendingMessage σ :=
  { m with packet := { m.packet with buffer := bytes } }

/-- Where a thread is in `cb_read_socket_ssh`, with the decryptor and the message it holds. -/
inductive ReaderPc (σ : Type)
  /-- At the head of the loop, in `get_decryptor`. -/
  | asking
  /-- In `signal_lock_flag`. -/
  | locking (h : σ)
  /-- With the flag, in front of the check. -/
  | checking (h : σ)
  /-- Behind the check, with the flag: nobody reads, and there are bytes. -/
  | passed (h : σ)
  /-- Behind `threads++`. -/
  | counted (h : σ)
  /-- Behind `disable_ssh_socket_read_data`, still with the flag. -/
  | entered (h : σ)
  /-- Behind the check, with the flag, on the way out. -/
  | refused (h : σ)
  /-- Without the flag, in front of the return. -/
  | leaving (h : σ)
  /-- Waiting for the header. -/
  | waiting (h : σ)
  /-- Waiting for the message. -/
  | announced (m : PendingMessage σ)
  /-- The message is off the buffer. -/
  | taken (m : PendingMessage σ)
  /-- Behind `enable_ssh_socket_read_data`. -/
  | enabled (m : PendingMessage σ)
  /-- Behind `threads--`, in front of `signal_unset_flag`. -/
  | left (m : PendingMessage σ)
  /-- In front of `pre_process`. -/
  | unset (m : PendingMessage σ)
  | opening (m : PendingMessage σ)
  /-- The decryptor has been released; in front of `post_process_01`. -/
  | opened (ticket : ℕ) (p : Packet)
  | delivering (ticket : ℕ) (p : Packet)
  /-- In `cb_post_process_kex`, which waits for the new keys. -/
  | changing

/-- What the threads share and do not change: the environment, the callbacks, the decryptors with the
handle of a new one, and how many of them there may be. -/
structure ReadSetup (σ : Type) where
  env : ReceiveEnv
  behaviour : Behaviour
  decryptor : Decryptor σ
  init : σ
  maxCount : ℕ

/-- `struct ssh_receive_s` and the read data of the socket, with the threads. The flag names the thread
that has set it. `arriving` are the bytes behind `pos` that have been received and not been counted yet,
`incoming` those that are still to be received, and `calls` the number of calls of `ctx.read` that are on
their way. The last two fields are history: the messages taken off the buffer and the payloads processed. -/
structure ReadState (ι σ : Type) where
  reader : ι → Option (ReaderPc σ)
  flag : Option ι
  threads : ℕ
  sequenceNumber : ℕ
  reading : Bool
  buffer : Bytes
  pos : ℕ
  arriving : Option ℕ
  incoming : Bytes
  calls : ℕ
  idle : List σ
  count : ℕ
  taken : List (PendingMessage σ)
  delivered : List Message

namespace ReadSetup

variable {σ : Type} (c : ReadSetup σ)

/-- From the label `readpacket` on: the packet gets its number, and the header is decrypted. No result for
a call that fails or a message that is too large. -/
def readHeader (h : σ) (ticket : ℕ) (rd : Bytes) : Option (PendingMessage σ) :=
  match c.decryptor.decryptLength h
      { len := 0, size := 0, padding := 0, sequence := u32 ticket, decrypted := 0, buffer := rd }
      c.decryptor.cipherHeadersize with
  | .error _ => none
  | .ok (tmpheader, handle, p) =>
    if c.env.maxPacketSize ≤ messageSize tmpheader c.decryptor.hmacMaclen then none
    else
      some { ticket, handle, packet := { p with len := getUint32 tmpheader }, tmpheader }

def size (m : PendingMessage σ) : ℕ := messageSize m.tmpheader c.decryptor.hmacMaclen

def openPending (m : PendingMessage σ) : Option (σ × Packet) :=
  (openMessage c.decryptor m.handle m.packet m.tmpheader).toOption

def payloadOf (p : Packet) : Option Message :=
  match decompressPacket c.env p with
  | .ok (some payload) =>
    some
      { headersize := c.decryptor.cipherHeadersize
        maclen := c.decryptor.hmacMaclen
        packet := p
        payload }
  | _ => none

end ReadSetup

namespace ReadState

variable {ι σ : Type} [DecidableEq ι] (s : ReadState ι σ)

def move (i : ι) (pc : ReaderPc σ) : ReadState ι σ :=
  { s with reader := Function.update s.reader i (some pc) }

def leave (i : ι) : ReadState ι σ := { s with reader := Function.update s.reader i none }

def rd : Bytes := s.buffer.take s.pos

/-- `recv` puts bytes behind those that are in the buffer, under a flag of the socket. -/
def recv (n : ℕ) : Option (ReadState ι σ) :=
  if s.arriving = none ∧ 0 < n ∧ n ≤ s.incoming.length then
    (Buffer.store s.buffer s.pos (s.incoming.take n)).map fun buffer =>
      { s with buffer, arriving := some n, incoming := s.incoming.drop n }
  else none

/-- `cb_copy_socket_ssh` counts them, and behind the flag `ctx.read` is called. -/
def copy : Option (ReadState ι σ) :=
  s.arriving.map fun n => { s with pos := s.pos + n, arriving := none, calls := s.calls + 1 }

/-- `ctx.read` is `cb_read_socket_ssh`, or a function that does nothing. -/
def call (i : ι) : Option (ReadState ι σ) :=
  if (s.reader i).isNone ∧ 0 < s.calls then
    let s := { s with calls := s.calls - 1 }
    some (if s.reading then s.move i .asking else s)
  else none

variable (c : ReadSetup σ)

def getDecryptor (s : ReadState ι σ) (i : ι) (choice : Option ℕ) : Option (ReadState ι σ) :=
  match s.reader i with
  | some .asking =>
    (assumedCryptoactor s.idle s.count c.maxCount c.init choice).map fun (h, idle, count) =>
      { s with idle, count }.move i (.locking h)
  | _ => none

/-- The message is copied, and what is behind it is moved to the front. -/
def takeMessage (s : ReadState ι σ) (i : ι) (m : PendingMessage σ) : ReadState ι σ :=
  let m' := m.fill (s.buffer.take (c.size m))
  { s with
    buffer := if s.pos = c.size m then s.buffer
      else (s.buffer.take s.pos).drop (c.size m) ++ s.buffer.drop (s.pos - c.size m)
    pos := if s.pos = c.size m then 0 else s.pos - c.size m
    taken := s.taken ++ [m'] }.move i (.taken m')

/-- A worker thread is started that will call `ctx.read`, when there are bytes left. -/
def workerthread (start : Bool) : ReadState ι σ :=
  { s with calls := if start ∧ 0 < s.pos then s.calls + 1 else s.calls }

/-- The payload is processed, and `post_process_02` is called. -/
def deliver (s : ReadState ι σ) (i : ι) (m : Message) : ReadState ι σ :=
  { s with delivered := s.delivered ++ [m] }.move i
    (if c.behaviour = Behaviour.kex ∧ m.payload.type = msgNewkeys then .changing else .asking)

def advance (s : ReadState ι σ) (i : ι) : Option (ReadState ι σ) :=
  match s.reader i with
  | none => none
  | some .asking => none
  | some (.locking h) =>
    if s.flag = none then some ({ s with flag := some i }.move i (.checking h)) else none
  | some (.checking h) =>
    if 0 < s.threads ∨ s.pos = 0 then some (s.move i (.refused h)) else some (s.move i (.passed h))
  | some (.passed h) => some ({ s with threads := s.threads + 1 }.move i (.counted h))
  | some (.counted h) => some ({ s with reading := false }.move i (.entered h))
  | some (.entered h) => some ({ s with flag := none }.move i (.waiting h))
  | some (.refused h) => some ({ s with flag := none }.move i (.leaving h))
  | some (.leaving h) => some ({ s with idle := s.idle ++ [h] }.leave i)
  | some (.waiting h) =>
    if c.decryptor.cipherHeadersize ≤ s.pos then
      (c.readHeader h s.sequenceNumber s.rd).map fun m =>
        { s with sequenceNumber := s.sequenceNumber + 1 }.move i (.announced m)
    else none
  | some (.announced m) => if c.size m ≤ s.pos then some (s.takeMessage c i m) else none
  | some (.taken m) => some ({ s with reading := true }.move i (.enabled m))
  | some (.enabled m) => some ({ s with threads := s.threads - 1 }.move i (.left m))
  | some (.left m) => some ({ s with flag := none }.move i (.unset m))
  | some (.unset m) => some ((s.workerthread (c.behaviour = .parallel)).move i (.opening m))
  | some (.opening m) =>
    (c.openPending m).map fun r => { s with idle := s.idle ++ [r.1] }.move i (.opened m.ticket r.2)
  | some (.opened ticket p) =>
    some ((s.workerthread (c.behaviour = .serial)).move i (.delivering ticket p))
  | some (.delivering _ p) => (c.payloadOf p).map (s.deliver c i)
  | some .changing => none

end ReadState

/-- What happens next. The choice in `get` is the idle decryptor that is handed out, none for a new one. -/
inductive ReadAction (ι : Type)
  | recv (n : ℕ)
  | copy
  | call (i : ι)
  | get (i : ι) (choice : Option ℕ)
  | advance (i : ι)
  deriving DecidableEq, Repr

def readStep {ι σ : Type} [DecidableEq ι] (c : ReadSetup σ) (s : ReadState ι σ) :
    ReadAction ι → Option (ReadState ι σ)
  | .recv n => s.recv n
  | .copy => s.copy
  | .call i => s.call i
  | .get i choice => s.getDecryptor c i choice
  | .advance i => s.advance c i

end Osns
