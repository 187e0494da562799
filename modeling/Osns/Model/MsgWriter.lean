import Osns.Model.MsgReader

/-! Strings, numbers and sequences of writes in message buffers, after the writing half of
`ssh-msg-buffer.c` and `ssh-mpint.c`. -/

namespace Osns

namespace MsgBuffer

variable (mb : MsgBuffer)

/-- The string has to end before the end of the buffer: a buffer that it fills has no room for it. -/
def msgWriteSshString (bytes : Bytes) : MsgBuffer :=
  mb.write (u32 (mb.pos + (4 + bytes.length)) < mb.len) (sshString bytes)

/-- The position of the length, which is written as zero, and the buffer behind it. -/
def startSshString : ℕ × MsgBuffer := (mb.pos, mb.write (u32 (mb.pos + 4) < mb.len) (storeUint32 0))

/-- The length is stored without a test for room. -/
def completeSshString (pos : ℕ) : MsgBuffer :=
  if mb.writing then
    { mb with data := Memory.write mb.data pos (storeUint32 (u32Sub (u32Sub mb.pos pos) 4)) }
  else mb

def msgStoreUint32 (value : UInt32) : MsgBuffer :=
  mb.write (u32 (mb.pos + 4) ≤ mb.len) (storeUint32 value.toNat)

def msgStoreUint64 (value : UInt64) : MsgBuffer :=
  mb.write (u32 (mb.pos + 8) ≤ mb.len) (storeUint64 value.toNat)

/-- `msg_write_ssh_mpint`. The bits of a negative integer are those of its absolute value. -/
def msgWriteSshMpi (mp : ℤ) : MsgBuffer :=
  let len := 4 + getNbytes mp.natAbs
  if mb.null then mb.skip len
  else if u32 (mb.pos + len) ≤ mb.len then
    if (mpi mp).length ≤ u32Sub mb.len mb.pos then (mb.copy (mpi mp)).skip (mpi mp).length
    else (mb.setFatalError .eio).skip len
  else (mb.setFatalError .enobufs).skip len

end MsgBuffer

/-! ## Sequences of writes -/

inductive MsgItem
  | byte (b : UInt8)
  | uint32 (value : UInt32)
  | uint64 (value : UInt64)
  | bytes (bs : Bytes)
  | string (text : Bytes)
  | mpint (mp : ℤ)
  deriving DecidableEq, Repr

/-- Writes one after the other. What is written between the start and the completion of a string is a
sequence of its own. -/
inductive MsgProgram
  | done
  | item (i : MsgItem) (next : MsgProgram)
  | nested (body next : MsgProgram)
  deriving DecidableEq, Repr

def MsgItem.write (mb : MsgBuffer) : MsgItem → MsgBuffer
  | .byte b => mb.msgWriteByte b
  | .uint32 value => mb.msgStoreUint32 value
  | .uint64 value => mb.msgStoreUint64 value
  | .bytes bs => mb.msgWriteBytes bs
  | .string text => mb.msgWriteSshString text
  | .mpint mp => mb.msgWriteSshMpi mp

def MsgProgram.run : MsgProgram → MsgBuffer → MsgBuffer
  | .done, mb => mb
  | .item i next, mb => next.run (i.write mb)
  | .nested body next, mb =>
    let (pos, mb) := mb.startSshString
    next.run ((body.run mb).completeSshString pos)

/-- The read for a write. -/
def MsgItem.read : MsgItem → MsgRead
  | .byte _ => .byte
  | .uint32 _ => .uint32
  | .uint64 _ => .uint64
  | .bytes bs => .bytes bs.length
  | .string _ => .string
  | .mpint _ => .mpint none

/-- A nested string is read as its length and what is in it. -/
def MsgProgram.reads : MsgProgram → List MsgRead
  | .done => []
  | .item i next => i.read :: next.reads
  | .nested body next => .header :: (body.reads ++ next.reads)

/-- The buffer as it is read by whoever gets it. -/
def MsgBuffer.reader (mb : MsgBuffer) : MsgReader where
  data := Memory.read mb.data 0 mb.len
  len := mb.len
  pos := 0
  error := none

end Osns
