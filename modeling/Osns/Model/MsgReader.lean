import Mathlib.Algebra.Group.Int.Defs
import Osns.Model.MsgBuffer
import Osns.Model.SshString

/-! Reading received messages, after the `msg_read` functions of `ssh-msg-buffer.c` and
`ssh-mpint.c`. -/

namespace Osns

open Buffer

/-- `read_ssh_string` when the buffer claims `size` bytes and `avail` are there. -/
def readSshStringSized (avail : Bytes) (size : ℕ) : Except Fault (ℕ × SshString) :=
  if 4 ≤ size then do
    let header ← inBounds (load avail 0 4)
    let len := getUint32 header
    if u32 (4 + len) ≤ size then return (u32 (4 + len), { len, ptr := some (avail.drop 4) })
    else return (0, { len, ptr := none })
  else return (0, { len := 0, ptr := none })

def SshString.init : SshString := { len := 0, ptr := none }

/-- A message buffer that is read: the bytes that are there, the length it claims, the position
and the error. -/
structure MsgReader where
  data : Bytes
  len : ℕ
  pos : ℕ
  error : Option BufferError

namespace MsgReader

def setMsgBufferPayload (payload : Payload) : MsgReader where
  data := payload.buffer
  len := payload.buffer.length
  pos := 0
  error := none

def setMsgBufferString (s : SshString) : MsgReader :=
  match s.ptr with
  | some data => { data, len := s.len, pos := 0, error := none }
  | none => { data := [], len := 0, pos := 0, error := none }

variable (mb : MsgReader)

def rest : SshString where
  len := u32Sub mb.len mb.pos
  ptr := some (mb.data.drop mb.pos)

/-- The byte is none when the caller's variable keeps its value. -/
def msgReadByte : Except Fault (Option UInt8 × MsgReader) :=
  if mb.error.isSome then return (none, mb)
  else if mb.pos < mb.len then do
    let b ← inBounds mb.data[mb.pos]?
    return (some b, { mb with pos := mb.pos + 1 })
  else return (none, { mb with error := some .eio })

/-- The bytes that are copied, which are fewer than `n` when the buffer has no more. -/
def msgReadBytes (n : ℕ) : Except Fault (Bytes × MsgReader) :=
  if mb.error.isSome then return ([], mb)
  else if mb.pos < mb.len then do
    let left := mb.len - mb.pos
    if left < n then do
      let bytes ← inBounds (load mb.data mb.pos left)
      return (bytes, { mb with pos := u32 (mb.pos + left), error := some .eio })
    else do
      let bytes ← inBounds (load mb.data mb.pos n)
      return (bytes, { mb with pos := u32 (mb.pos + n) })
  else return ([], { mb with error := some .eio })

/-- The length of the buffer is not looked at. -/
def msgReadUint32 : Except Fault (Option ℕ × MsgReader) :=
  if mb.error.isSome then return (none, mb)
  else do
    let bytes ← inBounds (load mb.data mb.pos 4)
    return (some (getUint32 bytes), { mb with pos := u32 (mb.pos + 4) })

/-- The length of the buffer is not looked at. -/
def msgReadUint64 : Except Fault (Option ℕ × MsgReader) :=
  if mb.error.isSome then return (none, mb)
  else do
    let bytes ← inBounds (load mb.data mb.pos 8)
    return (some (getUint64 bytes), { mb with pos := u32 (mb.pos + 8) })

/-- Without four bytes there is no length, and no error. -/
def msgReadSshStringHeader : Except Fault (Option ℕ × MsgReader) :=
  if mb.error.isNone ∧ mb.pos < mb.len ∧ 4 ≤ u32Sub mb.len mb.pos then do
    let header ← inBounds (load mb.data mb.pos 4)
    return (some (getUint32 header), { mb with pos := u32 (mb.pos + 4) })
  else return (none, mb)

/-- At the end of the buffer the string keeps its value, and there is no error. -/
def msgReadSshString (s : SshString) : Except Fault (SshString × MsgReader) :=
  if mb.error.isNone ∧ mb.pos < mb.len then do
    let (n, s) ← readSshStringSized (mb.data.drop mb.pos) (u32Sub mb.len mb.pos)
    return (s, { mb with pos := u32 (mb.pos + n) })
  else return (s, mb)

end MsgReader

/-! ## Big integers and points -/

/-- An integer in SSH form; a negative one as two's complement. -/
def mpi : ℤ → Bytes
  | .ofNat n => mpint n
  | .negSucc n =>
    let bytes := getNbits n / 8 + 1
    storeUint32 bytes ++ BigEndian.encode bytes (2 ^ (8 * bytes) - (n + 1))

/-- What is not in the sources. `mpiScan` is `gcry_mpi_scan` in SSH form, on the bytes from an address on
and with the length that the caller claims: the value and the number of bytes of it, or nothing for an
error. -/
structure MsgLib where
  malloc : ℕ → Bool
  mpiScan : Bytes → ℕ → Except Fault (Option (ℤ × ℕ))

namespace MsgReader

variable (lib : MsgLib)

/-- Also reads after an error. -/
def scanMpint (mb : MsgReader) (len : ℕ) : Except Fault (Option ℤ × ℕ × MsgReader) := do
  let scanned ← lib.mpiScan (mb.data.drop mb.pos) len
  match scanned with
  | some (value, scanned) => return (some value, scanned, { mb with pos := u32 (mb.pos + scanned) })
  | none => return (none, 0, { mb with error := some .eio })

def msgReadSshMpint (mb : MsgReader) : Except Fault (Option ℤ × MsgReader) := do
  let (value, _, mb) ← mb.scanMpint lib (u32Sub mb.len mb.pos)
  return (value, mb)

/-- With a length, which may be more than what is left. -/
def msgReadSshMpintSized (mb : MsgReader) (plen : ℕ) : Except Fault (Option ℤ × ℕ × MsgReader) := do
  let (value, scanned, mb) ← mb.scanMpint lib plen
  return (value, u32Sub plen scanned, mb)

/-- A point is a string. With four bytes or fewer left nothing is read, and there is no error. -/
def msgReadSshMpoint (mb : MsgReader) : Except Fault (Option Bytes × MsgReader) :=
  if 4 < u32Sub mb.len mb.pos then do
    let header ← inBounds (load mb.data mb.pos 4)
    let len := getUint32 header
    let pos := u32 (mb.pos + 4)
    if u32 (pos + len) ≤ mb.len then
      if lib.malloc len then do
        let point ← inBounds (load mb.data pos len)
        return (some point, { mb with pos := u32 (pos + len) })
      else return (none, { mb with pos := u32 (pos + len), error := some .enomem })
    else return (none, { mb with pos := u32 (pos + len), error := some .enobufs })
  else return (none, mb)

/-- With a length, which has to be enough for the point. -/
def msgReadSshMpointSized (mb : MsgReader) (plen : ℕ) :
    Except Fault (Option Bytes × ℕ × MsgReader) :=
  if 4 < u32Sub mb.len mb.pos then do
    let header ← inBounds (load mb.data mb.pos 4)
    let len := u32 (getUint32 header + 4)
    if plen < len then return (none, plen, { mb with error := some .enobufs })
    else do
      let (point, mb) ← mb.msgReadSshMpoint lib
      return (point, u32Sub plen len, mb)
  else return (none, plen, mb)

end MsgReader

/-! ## Sequences of reads -/

/-- The `msg_read` functions. The last two may get a length. -/
inductive MsgRead
  | byte
  | bytes (n : ℕ)
  | uint32
  | uint64
  | string
  | header
  | mpint (plen : Option ℕ)
  | mpoint (plen : Option ℕ)
  deriving DecidableEq, Repr

inductive MsgValue
  | byte (b : UInt8)
  | bytes (bs : Bytes)
  | uint32 (n : ℕ)
  | uint64 (n : ℕ)
  | string (text : Bytes)
  | header (len : ℕ)
  | mpint (value : ℤ)
  | mpoint (point : Bytes)
  deriving DecidableEq, Repr

namespace MsgReader

/-- What a read hands to its caller, if it is complete. A string is looked at up to its end. -/
def msgRead (lib : MsgLib) (mb : MsgReader) : MsgRead → Except Fault (Option MsgValue × MsgReader)
  | .byte => do
    let (b, mb) ← mb.msgReadByte
    return (b.map .byte, mb)
  | .bytes n => do
    let (bs, mb) ← mb.msgReadBytes n
    return (if bs.length = n then some (.bytes bs) else none, mb)
  | .uint32 => do
    let (n, mb) ← mb.msgReadUint32
    return (n.map .uint32, mb)
  | .uint64 => do
    let (n, mb) ← mb.msgReadUint64
    return (n.map .uint64, mb)
  | .string => do
    let (s, mb) ← mb.msgReadSshString .init
    if s.ptr.isSome then do
      let text ← s.bytes
      return (some (.string text), mb)
    else return (none, mb)
  | .header => do
    let (len, mb) ← mb.msgReadSshStringHeader
    return (len.map .header, mb)
  | .mpint none => do
    let (value, mb) ← mb.msgReadSshMpint lib
    return (value.map .mpint, mb)
  | .mpint (some plen) => do
    let (value, _, mb) ← mb.msgReadSshMpintSized lib plen
    return (value.map .mpint, mb)
  | .mpoint none => do
    let (point, mb) ← mb.msgReadSshMpoint lib
    return (point.map .mpoint, mb)
  | .mpoint (some plen) => do
    let (point, _, mb) ← mb.msgReadSshMpointSized lib plen
    return (point.map .mpoint, mb)

def msgReads (lib : MsgLib) :
    MsgReader → List MsgRead → Except Fault (List (Option MsgValue) × MsgReader)
  | mb, [] => return ([], mb)
  | mb, op :: ops => do
    let (value, mb) ← mb.msgRead lib op
    let (values, mb) ← mb.msgReads lib ops
    return (value :: values, mb)

end MsgReader

end Osns
