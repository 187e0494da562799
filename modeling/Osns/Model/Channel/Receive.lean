import Osns.Library.Chains
import Osns.Model.MsgReader
import Osns.Model.Packet

/-! The channels of all connections of a process in one table, after `table.c`, and the handlers of
received channel messages, after `msg-channel.c` of `receive`. A handler finds a local channel number in its
payload and a callback, which is then applied to the channel with that number. -/

namespace Osns

/-- A payload with the code of extended data. -/
structure ChannelPayload extends Payload where
  code : ℕ
  deriving DecidableEq, Repr

/-- The callbacks of a channel, `SSH_CHANNEL_IOCB_RECV_DATA` and so on. -/
inductive Iocb
  | recvData
  | recvXdata
  | recvRequest
  | recvOpen
  deriving DecidableEq, Repr

/-- A `struct ssh_channel_s`: which one it is, the connection it is opened on, what received messages
change, and what has been given to its callbacks. -/
structure Channel where
  id : ℕ
  connection : ℕ
  lcnr : ℕ
  flags : UInt32
  rwindowsize : ℕ
  exitStatus : ℕ
  exitSignal : ℕ
  received : List (Iocb × ChannelPayload)
  deriving DecidableEq, Repr

/-- `SSH_CHANNEL_FLAG_TABLE`. -/
def flagTable : UInt32 := 2

/-- The static variables of `table.c`. -/
structure ChannelsTable where
  tablehash : ℕ → List Channel
  channelctr : ℕ
  tablecount : ℕ

def initSshChannelsTable : ChannelsTable where
  tablehash := fun _ => []
  channelctr := 0
  tablecount := 0

/-- The row of a local channel number. -/
def channelHash (lcnr : ℕ) : ℕ := lcnr % 64

namespace ChannelsTable

variable (t : ChannelsTable)

/-- The numbers are taken from one counter for all connections. -/
def tableAddSshChannel (c : Channel) : ChannelsTable :=
  if c.flags &&& flagTable ≠ 0 then t
  else
    { tablehash := Chains.add channelHash Channel.lcnr t.tablehash
        { c with lcnr := t.channelctr, flags := c.flags ||| flagTable }
      channelctr := u32 (t.channelctr + 1)
      tablecount := u32 (t.tablecount + 1) }

/-- The channel itself is taken out of the row of its number. -/
def tableRemoveSshChannel (id lcnr : ℕ) : ChannelsTable :=
  if (t.tablehash (channelHash lcnr)).any (·.id = id) then
    { t with
        tablehash := Function.update t.tablehash (channelHash lcnr)
          ((t.tablehash (channelHash lcnr)).eraseP (·.id = id))
        tablecount := u32Sub t.tablecount 1 }
  else t

/-- Every row is emptied, and its channels are freed. -/
def clearSshChannelsTable : ChannelsTable :=
  { t with tablehash := fun row => if row < 64 then [] else t.tablehash row }

/-- The channel that a number stands for, on whichever connection it is opened. -/
def findSshChannel (lcnr : ℕ) : Option Channel :=
  Chains.lookup channelHash Channel.lcnr t.tablehash lcnr

def lookupSshChannelForCb (lcnr : ℕ) (cb : Channel → Channel) : ChannelsTable :=
  { t with tablehash := Chains.modify channelHash Channel.lcnr t.tablehash lcnr cb }

end ChannelsTable


/-! ## Callbacks -/

/-- The callbacks that are applied to a channel: `doiocb`, `set_window_size_cb` and
`set_channel_flag_cb`. -/
inductive ChannelCb
  | doiocb (iocbnr : Iocb) (payload : ChannelPayload)
  | setWindowSize (size : ℕ)
  | setChannelFlag (flags status : UInt32) (exitStatus exitSignal : ℕ) (payload : ChannelPayload)
  deriving DecidableEq, Repr

def Channel.receive (c : Channel) (iocbnr : Iocb) (payload : ChannelPayload) : Channel :=
  { c with received := c.received ++ [(iocbnr, payload)] }

def Channel.setStatus (c : Channel) (status : UInt32) (exitStatus exitSignal : ℕ) : Channel :=
  { c with
      flags := c.flags ||| status
      exitStatus := if exitStatus = 0 then c.exitStatus else exitStatus
      exitSignal := if exitSignal = 0 then c.exitSignal else exitSignal }

def ChannelCb.apply : ChannelCb → Channel → Channel
  | .doiocb iocbnr payload, c => c.receive iocbnr payload
  | .setWindowSize size, c => { c with rwindowsize := u32 (c.rwindowsize + size) }
  | .setChannelFlag flags status exitStatus exitSignal payload, c =>
    let c := c.setStatus status exitStatus exitSignal
    if c.flags &&& flags ≠ 0 then c.receive .recvOpen payload else c

/-! ## Handlers -/

/-- A channel number and the callback for it, or nothing when the message is dropped. -/
abbrev Dispatch := Except Fault (Option (ℕ × ChannelCb))

variable (p : ChannelPayload)

def ChannelPayload.getUint32At (pos : ℕ) : Except Fault ℕ :=
  getUint32 <$> inBounds (Buffer.load p.buffer pos 4)

/-- `memmove` of `len` bytes from `pos` to the front, which are the payload from then on. -/
def ChannelPayload.moveToFront (pos len : ℕ) : Except Fault ChannelPayload := do
  let buffer ← inBounds (Buffer.load p.buffer pos len)
  return { p with buffer }

def receiveMsgChannelOpen (_p : ChannelPayload) : Dispatch := return none

/-- The answers to an open message, which are handed over as they are. -/
def receiveMsgOpenReply : Dispatch :=
  if p.buffer.length < 17 then return none
  else do
    let lcnr ← p.getUint32At 1
    return some (lcnr, .doiocb .recvOpen p)

def receiveMsgChannelOpenConfirmation : Dispatch := receiveMsgOpenReply p

def receiveMsgChannelOpenFailure : Dispatch := receiveMsgOpenReply p

def receiveMsgChannelWindowAdjust : Dispatch :=
  if p.buffer.length < 9 then return none
  else do
    let lcnr ← p.getUint32At 1
    let size ← p.getUint32At 5
    return some (lcnr, .setWindowSize size)

/-- The sum of length and position is an `unsigned int`. -/
def receiveMsgChannelData : Dispatch :=
  if 8 < p.buffer.length then do
    let lcnr ← p.getUint32At 1
    let len ← p.getUint32At 5
    if u32 (len + 9) ≤ p.buffer.length then do
      let p ← p.moveToFront 9 len
      return some (lcnr, .doiocb .recvData p)
    else return none
  else return none

def receiveMsgChannelExtendedData : Dispatch :=
  if 13 < p.buffer.length then do
    let lcnr ← p.getUint32At 1
    let code ← p.getUint32At 5
    let len ← p.getUint32At 9
    if u32 (len + 13) ≤ p.buffer.length then do
      let p ← p.moveToFront 13 len
      return some (lcnr, .doiocb .recvXdata { p with code })
    else return none
  else return none

/-- `SSH_CHANNEL_FLAG_SERVER_EOF` and so on. -/
def flagServerEof : UInt32 := 16
def flagServerClose : UInt32 := 32
def flagQueueEof : UInt32 := 8192
def flagQueueClose : UInt32 := 16384
def flagQueueExitStatus : UInt32 := 32768
def flagQueueExitSignal : UInt32 := 65536

def receiveMsgChannelOpenStatus (flag status : UInt32) : Dispatch :=
  if p.buffer.length < 5 then return none
  else do
    let lcnr ← p.getUint32At 1
    return some (lcnr, .setChannelFlag flag status 0 0 p)

def receiveMsgChannelEof : Dispatch := receiveMsgChannelOpenStatus p flagQueueEof flagServerEof

def receiveMsgChannelClose : Dispatch :=
  receiveMsgChannelOpenStatus p flagQueueClose flagServerClose

def receiveMsgChannelRequestS : Dispatch :=
  if 10 < p.buffer.length then do
    let lcnr ← p.getUint32At 1
    let (n, _) ← readSshStringSized (p.buffer.drop 5) (u32Sub p.buffer.length 5)
    if 0 < n then do
      let p ← p.moveToFront 5 (u32Sub p.buffer.length 5)
      return some (lcnr, .doiocb .recvRequest p)
    else return none
  else return none

/-- "exit-status". -/
def exitStatusText : Bytes := [101, 120, 105, 116, 45, 115, 116, 97, 116, 117, 115]

/-- "exit-signal". -/
def exitSignalText : Bytes := [101, 120, 105, 116, 45, 115, 105, 103, 110, 97, 108]

/-- "ABRT", "ALRM", "FPE", "HUP", "ILL", "INT", "KILL", "PIPE", "QUIT", "SEGV", "TERM", "USR1" and
"USR2", with their numbers. -/
def exitSignals : List (Bytes × ℕ) :=
  [([65, 66, 82, 84], 1), ([65, 76, 82, 77], 2), ([70, 80, 69], 3), ([72, 85, 80], 4),
    ([73, 76, 76], 5), ([73, 78, 84], 6), ([75, 73, 76, 76], 7), ([80, 73, 80, 69], 8),
    ([81, 85, 73, 84], 9), ([83, 69, 71, 86], 10), ([84, 69, 82, 77], 11), ([85, 83, 82, 49], 12),
    ([85, 83, 82, 50], 13)]

def getSshChannelExitSignal (name : SshString) : List (Bytes × ℕ) → Except Fault ℕ
  | [] => return 0
  | (text, number) :: signals => do
    if ← name.compareC text then return number else getSshChannelExitSignal name signals

/-- The status behind the byte about a reply, when the message is long enough for it. -/
def readExitStatus (tmp : ℕ) : Except Fault ℕ :=
  if u32 (tmp + 4) ≤ p.buffer.length then p.getUint32At tmp else return 0

/-- The name of the signal is read from the position of the request, not from behind it, and so is the
message. -/
def readExitSignal (pos tmp : ℕ) : Except Fault ℕ :=
  if u32 (tmp + 13) ≤ p.buffer.length then do
    let name ← readSshStringSized (p.buffer.drop pos) (u32Sub p.buffer.length tmp)
    let _ ← readSshStringSized (p.buffer.drop pos) (u32Sub p.buffer.length (u32 (tmp + name.1 + 1)))
    getSshChannelExitSignal name.2 exitSignals
  else return 0

/-- The request as a client receives it, which has to be one of two. -/
def receiveMsgChannelRequestC : Dispatch :=
  if 10 < p.buffer.length then do
    let lcnr ← p.getUint32At 1
    let (n, request) ← readSshStringSized (p.buffer.drop 5) (u32Sub p.buffer.length 5)
    if 0 < n then do
      let tmp := u32 (5 + u32 (4 + request.len) + 1)
      let isStatus ← request.compareC exitStatusText
      let isSignal ← request.compareC exitSignalText
      if isStatus then do
        let exitStatus ← readExitStatus p tmp
        let p ← p.moveToFront 5 (u32Sub p.buffer.length 5)
        return some (lcnr, .setChannelFlag flagQueueExitStatus 0 exitStatus 0 p)
      else if isSignal then do
        let exitSignal ← readExitSignal p 5 tmp
        let p ← p.moveToFront 5 (u32Sub p.buffer.length 5)
        return some (lcnr, .setChannelFlag flagQueueExitSignal 0 0 exitSignal p)
      else return none
    else return none
  else return none

def receiveMsgChannelRequestReply : Dispatch :=
  if p.buffer.length < 5 then return none
  else do
    let lcnr ← p.getUint32At 1
    let p ← p.moveToFront 5 (u32Sub p.buffer.length 5)
    return some (lcnr, .doiocb .recvRequest p)

/-! ## Answers to an open message -/

/-- The handlers that `register_channel_cb` registers for a server and for a client, by the type of the
message. -/
def processChannelMsg (server : Bool) (p : ChannelPayload) : Dispatch :=
  if p.type = 90 ∧ server then receiveMsgChannelOpen p
  else if p.type = 91 ∧ ¬ server then receiveMsgChannelOpenConfirmation p
  else if p.type = 92 ∧ ¬ server then receiveMsgChannelOpenFailure p
  else if p.type = 93 then receiveMsgChannelWindowAdjust p
  else if p.type = 94 then receiveMsgChannelData p
  else if p.type = 95 then receiveMsgChannelExtendedData p
  else if p.type = 96 then receiveMsgChannelEof p
  else if p.type = 97 then receiveMsgChannelClose p
  else if p.type = 98 then
    if server then receiveMsgChannelRequestS p else receiveMsgChannelRequestC p
  else if p.type = 99 ∨ p.type = 100 then receiveMsgChannelRequestReply p
  else return none

/-- A message received on some connection, which none of the handlers looks at. -/
def receiveChannelMsg (t : ChannelsTable) (_connection : ℕ) (server : Bool) (p : ChannelPayload) :
    Except Fault ChannelsTable := do
  match ← processChannelMsg server p with
  | none => return t
  | some (lcnr, cb) => return t.lookupSshChannelForCb lcnr cb.apply

/-! ## The life of the table -/

/-- What changes the table: a channel that is added or removed, and a message that arrives on a connection
of a server or a client. -/
inductive TableOp
  | add (c : Channel)
  | remove (id lcnr : ℕ)
  | receive (connection : ℕ) (server : Bool) (p : ChannelPayload)

def ChannelsTable.step (t : ChannelsTable) : TableOp → Option ChannelsTable
  | .add c => some (t.tableAddSshChannel c)
  | .remove id lcnr => some (t.tableRemoveSshChannel id lcnr)
  | .receive connection server p => (receiveChannelMsg t connection server p).toOption

end Osns
