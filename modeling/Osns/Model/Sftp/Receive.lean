import Osns.Model.Packet

/-! Replies of an SFTP server, after `sftp/recv.c` and the readers in `sftp/recv`, and the requests that
wait for them, after `sftp/request-hash.c`: the hashtable that all clients of a process share. -/

namespace Osns

/-- The numbers of Linux errors that a status code is mapped to. -/
inductive LinuxError
  | eperm
  | enoent
  | eio
  | ewouldblock
  | eacces
  | eexist
  | enodev
  | enotdir
  | eisdir
  | einval
  | enospc
  | enolck
  | enotempty
  | eloop
  | enodata
  | ebadmsg
  | eopnotsupp
  | enotconn
  | eshutdown
  | einprogress
  | edquot
  deriving DecidableEq, Repr

/-- The union `response` of a reply. The error of a status is none for zero. -/
inductive SftpResponse
  | unset
  | status (code : ℕ) (linuxError : Option LinuxError)
  | data (eofSupported eof : Bool)
  | name (eofSupported : Bool) (count : ℕ)
  deriving DecidableEq, Repr

/-- The part of `struct sftp_reply_s` that the receiving thread fills. The pointer `data` is what
stands in the buffer from it on. -/
structure SftpReply where
  type : UInt8
  response : SftpResponse
  data : Option Bytes
  size : ℕ
  deriving DecidableEq, Repr

/-- The bits `SFTP_REQUEST_STATUS` that the receiving thread sets and clears. -/
structure RequestStatus where
  waiting : Bool
  response : Bool
  finish : Bool
  error : Bool
  deriving DecidableEq, Repr

/-- A request with the client that has sent it. -/
structure SftpRequest (κ : Type) where
  client : κ
  id : ℕ
  status : RequestStatus
  reply : SftpReply
  deriving DecidableEq

/-- `SFTP_SENDHASH_TABLE_SIZE_DEFAULT`. -/
def hashsize : ℕ := 64

/-- What the receiving thread of a client keeps: whether the version has been received, and the
sequence number and type of a message that could not be read. -/
structure SftpReceiver where
  session : Bool
  seq : ℕ
  seqtype : UInt8
  deriving DecidableEq

/-- The requests, the rows of the table with pointers to them, and the clients. -/
structure SftpState (κ ι : Type) where
  request : ι → SftpRequest κ
  rows : ℕ → List ι
  receiver : κ → SftpReceiver

namespace SftpState

variable {κ ι : Type} [DecidableEq κ] [DecidableEq ι] (s : SftpState κ ι)

def setRow (hash : ℕ) (row : List ι) : SftpState κ ι :=
  { s with rows := Function.update s.rows hash row }

def setRequest (p : ι) (r : SftpRequest κ) : SftpState κ ι :=
  { s with request := Function.update s.request p r }

def addRequestHashtable (p : ι) : SftpState κ ι :=
  let hash := (s.request p).id % hashsize
  s.setRow hash (s.rows hash ++ [p])

def removeRequestHashtable (p : ι) : SftpState κ ι :=
  let hash := (s.request p).id % hashsize
  s.setRow hash ((s.rows hash).erase p)

/-- The first request of the row with this id, whichever client has sent it. -/
def find (id : ℕ) : Option ι := (s.rows (id % hashsize)).find? fun p => (s.request p).id = id

/-- A request that is found is taken from the table. The client is not used. -/
def lookupRequestHashtable (_client : κ) (id : ℕ) : Option ι × SftpState κ ι :=
  match s.find id with
  | none => (none, s)
  | some p => (some p, s.setRow (id % hashsize) ((s.rows (id % hashsize)).erase p))

def getSftpRequest (client : κ) (id : ℕ) : Option ι × SftpState κ ι :=
  match s.lookupRequestHashtable client id with
  | (none, s) => (none, s)
  | (some p, s) =>
    let r := s.request p
    (some p, s.setRequest p { r with status.waiting := false, status.response := true })

/-- The request is finished, and its thread woken up. -/
def signalSftpReceivedId (p : ι) : SftpState κ ι :=
  let r := s.request p
  if r.status.response then
    s.setRequest p { r with status.response := false, status.finish := true }
  else s.setRequest p { r with status.error := true }

def signalSftpReceivedIdError (p : ι) : SftpState κ ι :=
  let r := s.request p
  s.setRequest p { r with status.error := true }

end SftpState

/-! ## Errors of a status reply -/

variable (table : List (Option LinuxError))

/-- `map_sftp_error` with the table of a version. -/
def mapSftpError (code : ℕ) : Option LinuxError := table.getD code (some .eio)

def linuxErrorMapV03 : List (Option LinuxError) :=
  [none, some .enodata, some .enoent, some .eperm, some .eio, some .ebadmsg, some .enotconn,
    some .eshutdown, some .eopnotsupp]

def linuxErrorMapV04 : List (Option LinuxError) :=
  linuxErrorMapV03 ++ [some .einval, some .enoent, some .eexist, some .eacces, some .enodev]

def linuxErrorMapV05 : List (Option LinuxError) :=
  linuxErrorMapV04 ++ [some .enospc, some .edquot, some .eio, some .ewouldblock]

def linuxErrorMapV06 : List (Option LinuxError) :=
  linuxErrorMapV05 ++ [some .enotempty, some .enotdir, some .einval, some .eloop, some .eperm,
    some .einval, some .eisdir, some .eperm, some .eperm, some .einprogress, some .eio,
    some .einval, some .einval, some .enolck]

/-! ## Readers -/

/-- Bytes of a message that are read. -/
structure Access where
  off : ℕ
  len : ℕ
  deriving DecidableEq, Repr

/-- `struct sftp_header_s`, with the whole buffer behind its pointer. -/
structure SftpHeader where
  len : ℕ
  type : UInt8
  id : ℕ
  buffer : Bytes

/-- The reply that a reader leaves, whether it signals success, and the bytes of the body that it has
read. -/
structure SftpRead where
  reply : SftpReply
  received : Bool
  reads : List Access

def readUint32 (buffer : Bytes) (pos : ℕ) : Except Fault ℕ := do
  let bytes ← inBounds (Buffer.load buffer pos 4)
  return getUint32 bytes

/-- The bytes from `pos` on moved to the start of the buffer. -/
def memmoveFront (buffer : Bytes) (pos size : ℕ) : Except Fault Bytes := do
  let bytes ← inBounds (Buffer.load buffer pos size)
  inBounds (Buffer.store buffer 0 bytes)

/-- `receive_sftp_status_v03` and `receive_sftp_status_v04`. -/
def receiveSftpStatusV03 (header : SftpHeader) (reply : SftpReply) : Except Fault SftpRead := do
  let code ← readUint32 header.buffer 0
  return {
    reply := { reply with type := header.type, response := .status code (mapSftpError table code) }
    received := true
    reads := [⟨0, 4⟩] }

variable (header : SftpHeader) (reply : SftpReply)

def receiveSftpHandleV03 : Except Fault SftpRead := do
  let size ← readUint32 header.buffer 0
  let reply := { reply with type := header.type, size }
  if size ≤ 255 ∧ u32 (size + 4) ≤ header.len then
    let buffer ← memmoveFront header.buffer 4 size
    return {
      reply := { reply with data := some buffer }
      received := true
      reads := [⟨0, 4⟩, ⟨4, size⟩] }
  else return { reply, received := false, reads := [⟨0, 4⟩] }

def receiveSftpDataV03 (reply : SftpReply) : Except Fault SftpRead := do
  let size ← readUint32 header.buffer 0
  let buffer ← memmoveFront header.buffer 4 size
  return {
    reply := { reply with
      type := header.type
      response := .data false false
      size
      data := some buffer }
    received := true
    reads := [⟨0, 4⟩, ⟨4, size⟩] }

/-- The count, and the names as they are. Only the flags differ between the versions. -/
def receiveSftpName (eofSupported : Bool) (header : SftpHeader) (reply : SftpReply) :
    Except Fault SftpRead := do
  let count ← readUint32 header.buffer 0
  let size := u32Sub header.len 4
  let buffer ← memmoveFront header.buffer 4 size
  return {
    reply := { reply with
      type := header.type
      response := .name eofSupported count
      size
      data := some buffer }
    received := true
    reads := [⟨0, 4⟩, ⟨4, size⟩] }

def receiveSftpNameV03 : SftpHeader → SftpReply → Except Fault SftpRead := receiveSftpName false

def receiveSftpNameV06 : SftpHeader → SftpReply → Except Fault SftpRead := receiveSftpName true

/-- `receive_sftp_attr_v03` and `receive_sftp_extension_reply_v03`: the body as it is. -/
def receiveSftpAttrV03 : Except Fault SftpRead :=
  .ok {
    reply := { reply with type := header.type, size := header.len, data := some header.buffer }
    received := true
    reads := [] }

/-- The error message is copied to the stack; the language tag is skipped. -/
def receiveSftpStatusV05 (header : SftpHeader) (reply : SftpReply) : Except Fault SftpRead := do
  let code ← readUint32 header.buffer 0
  let reply :=
    { reply with type := header.type, response := .status code (mapSftpError table code) }
  let len ← readUint32 header.buffer 4
  let _ ← inBounds (Buffer.load header.buffer 8 len)
  let pos := u32 (8 + len)
  let reads := [⟨0, 4⟩, ⟨4, 4⟩, ⟨8, len⟩]
  if u32 (pos + 4) < header.len then
    let len ← readUint32 header.buffer pos
    let reads := reads ++ [⟨pos, 4⟩]
    let pos := u32 (pos + 4)
    if u32 (pos + len) < header.len then
      let pos := u32 (pos + len)
      let size := u32Sub header.len pos
      let buffer ← memmoveFront header.buffer pos size
      return {
        reply := { reply with size, data := some buffer }
        received := true
        reads := reads ++ [⟨pos, size⟩] }
    else return { reply, received := true, reads }
  else return { reply, received := true, reads }

/-- The byte behind the data, if there is one. -/
def readEof (last : ℕ) : Except Fault (Bool × List Access) :=
  if last < header.len then do
    let bytes ← inBounds (Buffer.load header.buffer last 1)
    return (decide (bytes ≠ [0]), [⟨last, 1⟩])
  else return (false, [])

def receiveSftpDataV06 (reply : SftpReply) : Except Fault SftpRead := do
  let size ← readUint32 header.buffer 0
  let (eof, reads) ← readEof header (u32 (size + 4))
  let buffer ← memmoveFront header.buffer 4 size
  return {
    reply := { reply with
      type := header.type
      response := .data true eof
      size
      data := some buffer }
    received := true
    reads := [⟨0, 4⟩] ++ reads ++ [⟨4, size⟩] }

/-! ## Versions -/

inductive SftpVersion
  | v03
  | v04
  | v05
  | v06
  deriving DecidableEq, Repr

def fxpVersion : UInt8 := 2

/-- The types of replies. `SSH_FXP_EXTENDED` is not one: its reader does nothing. -/
inductive ReplyType
  | status
  | handle
  | data
  | name
  | attrs
  | extended
  | extendedReply
  | unknown
  deriving DecidableEq, Repr

/-- The cases of the switch. -/
def replyType (type : UInt8) : ReplyType :=
  if type = 101 then .status
  else if type = 102 then .handle
  else if type = 103 then .data
  else if type = 104 then .name
  else if type = 105 then .attrs
  else if type = 200 then .extended
  else if type = 201 then .extendedReply
  else .unknown

/-- The reader of a type in `recv_ops`, once the request has been found. An unknown type sets the type
and signals an error. -/
def readReply (version : SftpVersion) (header : SftpHeader) (reply : SftpReply) :
    Except Fault SftpRead :=
  match replyType header.type with
  | .status =>
    match version with
    | .v03 => receiveSftpStatusV03 linuxErrorMapV03 header reply
    | .v04 => receiveSftpStatusV03 linuxErrorMapV04 header reply
    | .v05 => receiveSftpStatusV05 linuxErrorMapV05 header reply
    | .v06 => receiveSftpStatusV05 linuxErrorMapV06 header reply
  | .handle => receiveSftpHandleV03 header reply
  | .data =>
    match version with
    | .v06 => receiveSftpDataV06 header reply
    | _ => receiveSftpDataV03 header reply
  | .name =>
    match version with
    | .v06 => receiveSftpNameV06 header reply
    | _ => receiveSftpNameV03 header reply
  | .attrs | .extendedReply => receiveSftpAttrV03 header reply
  | .extended | .unknown =>
    .ok { reply := { reply with type := header.type }, received := false, reads := [] }

/-! ## Messages -/

/-- What a message leads to: the bytes of it that are read, and the requests that are signalled, with
success or with an error. -/
structure Receipt (κ ι : Type) where
  state : SftpState κ ι
  reads : List Access
  signals : List (ι × Bool)

section Receive

variable {κ ι : Type} [DecidableEq κ] [DecidableEq ι] (s : SftpState κ ι) (client : κ)

/-- The request that is informed, if it is found. -/
def signalSftpReplyInvalid (id : ℕ) (type : UInt8) : Option ι × SftpState κ ι :=
  match s.getSftpRequest client id with
  | (none, s) => (none, s)
  | (some p, s) =>
    let r := s.request p
    (some p, (s.setRequest p { r with reply.type := type }).signalSftpReceivedIdError p)

/-- The sequence number is left for the waiting threads. -/
def setSignalSeq (seq : ℕ) (type : UInt8) : SftpState κ ι :=
  let receiver := { s.receiver client with seq, seqtype := type }
  { s with receiver := Function.update s.receiver client receiver }

def processReceiveSftpReplyError (buffer : Bytes) (seq : ℕ) : Receipt κ ι :=
  if 9 ≤ buffer.length then
    let type := buffer.getD 4 0
    match signalSftpReplyInvalid s client (getUint32 (buffer.drop 5)) type with
    | (some p, s) => { state := s, reads := [⟨4, 1⟩, ⟨5, 4⟩], signals := [(p, false)] }
    | (none, s) =>
      { state := setSignalSeq s client seq type, reads := [⟨4, 1⟩, ⟨5, 4⟩], signals := [] }
  else if 5 ≤ buffer.length then
    { state := setSignalSeq s client seq (buffer.getD 4 0), reads := [⟨4, 1⟩], signals := [] }
  else { state := setSignalSeq s client seq 0, reads := [], signals := [] }

/-- A reply whose header has been read: the request with its id gets what the reader makes of it.
Reads of the body are counted from the start of the message. -/
def deliverReply (version : SftpVersion) (s : SftpState κ ι) (client : κ) (header : SftpHeader) :
    Except Fault (Receipt κ ι) :=
  if replyType header.type = .extended then .ok { state := s, reads := [], signals := [] }
  else
    match s.getSftpRequest client header.id with
    | (none, s) => .ok { state := s, reads := [], signals := [] }
    | (some p, s) => do
      let r := s.request p
      let read ← readReply version header r.reply
      let s := s.setRequest p { r with reply := read.reply }
      return {
        state := if read.received then s.signalSftpReceivedId p else s.signalSftpReceivedIdError p
        reads := read.reads.map fun access => { access with off := access.off + 9 }
        signals := [(p, read.received)] }

def receiveSftpReply (version : SftpVersion) (s : SftpState κ ι) (client : κ) (buffer : Bytes)
    (seq : ℕ) : Except Fault (Receipt κ ι) :=
  let size := buffer.length
  if size < 9 then .ok (processReceiveSftpReplyError s client buffer seq)
  else
    let len := getUint32 buffer
    if size < u32 (4 + len) then .ok (processReceiveSftpReplyError s client buffer seq)
    else do
      let type := buffer.getD 4 0
      let id := getUint32 (buffer.drop 5)
      let len := u32Sub (u32Sub len 1) 4
      let moved ← memmoveFront buffer 9 len
      let cleared ← inBounds (Buffer.store moved len (List.replicate (u32Sub size len) 0))
      let receipt ← deliverReply version s client { len, type, id, buffer := cleared }
      return { receipt with reads := [⟨0, 4⟩, ⟨4, 1⟩, ⟨5, 4⟩, ⟨9, len⟩] ++ receipt.reads }

/-- The id of the request for the version: `(uint32_t) -1`. -/
def initId : ℕ := 2 ^ 32 - 1

/-- The next message of the client is a reply. -/
def setSession : SftpState κ ι :=
  let receiver := { s.receiver client with session := true }
  { s with receiver := Function.update s.receiver client receiver }

/-- A version of `len` bytes, moved to the start of the buffer. Without a request the signal is sent
through a null pointer. -/
def deliverVersion (len : ℕ) (moved : Bytes) : Except Fault (Receipt κ ι) :=
  match s.getSftpRequest client initId with
  | (none, _) => .error .overrun
  | (some p, s) =>
    let r := s.request p
    let reply := { r.reply with type := fxpVersion, size := len, data := some moved }
    .ok {
      state := (s.setRequest p { r with reply }).signalSftpReceivedId p
      reads := [⟨0, 4⟩, ⟨4, 1⟩, ⟨5, len⟩]
      signals := [(p, true)] }

def receiveSftpInit (buffer : Bytes) (seq : ℕ) : Except Fault (Receipt κ ι) :=
  let size := buffer.length
  let s := setSession s client
  if 5 ≤ size then
    let len := u32Sub (getUint32 buffer) 1
    let type := buffer.getD 4 0
    if u32 (5 + len) ≤ size ∧ type = fxpVersion then do
      let moved ← memmoveFront buffer 5 len
      deliverVersion s client len moved
    else .ok { state := s, reads := [⟨0, 4⟩, ⟨4, 1⟩], signals := [] }
  else do
    -- The argument of the call is the first byte and not the buffer.
    let _ ← inBounds (Buffer.load buffer 0 1)
    let receipt := processReceiveSftpReplyError s client buffer seq
    return { receipt with reads := ⟨0, 1⟩ :: receipt.reads }

def receiveSftpData (version : SftpVersion) (s : SftpState κ ι) (client : κ) (buffer : Bytes)
    (seq : ℕ) : Except Fault (Receipt κ ι) :=
  if (s.receiver client).session then receiveSftpReply version s client buffer seq
  else receiveSftpInit s client buffer seq

end Receive

/-! ## Histories -/

/-- What happens in a process: a request is sent and put into the table, a message arrives on the
channel of a client, or a request is given up. -/
inductive SftpEvent (κ ι : Type)
  | send (p : ι) (client : κ) (id : ℕ)
  | receive (client : κ) (version : SftpVersion) (buffer : Bytes) (seq : ℕ)
  | leave (p : ι)

section Histories

variable {κ ι : Type} [DecidableEq κ] [DecidableEq ι]

/-- A request as `init_sftp_request` leaves it, with its id. -/
def initSftpRequest (client : κ) (id : ℕ) : SftpRequest κ where
  client
  id
  status := { waiting := true, response := false, finish := false, error := false }
  reply := { type := 0, response := .unset, data := none, size := 0 }

def SftpState.Pending (s : SftpState κ ι) (p : ι) : Prop := p ∈ s.rows ((s.request p).id % hashsize)

instance (s : SftpState κ ι) (p : ι) : Decidable (s.Pending p) :=
  inferInstanceAs (Decidable (p ∈ _))

/-- There is no next state after undefined behaviour. The memory of a pending request is not used
again. -/
def sftpStep (s : SftpState κ ι) : SftpEvent κ ι → Option (SftpState κ ι)
  | .send p client id =>
    if s.Pending p then none
    else some ((s.setRequest p (initSftpRequest client id)).addRequestHashtable p)
  | .receive client version buffer seq =>
    match receiveSftpData version s client buffer seq with
    | .ok receipt => some receipt.state
    | .error _ => none
  | .leave p => some (s.removeRequestHashtable p)

end Histories

end Osns
