import Mathlib.Data.Nat.Size
import Osns.Library.Memory
import Osns.Model.Word

/-! The message buffers of `ssh-msg-buffer.c` and the big integers of `ssh-mpint.c`. -/

namespace Osns

/-- The error codes of a message buffer. -/
inductive BufferError
  | enobufs
  | eio
  | einval
  | enomem
  deriving DecidableEq, Repr

/-- A buffer that is written front to back. `null` is a buffer without data, which only counts;
`data` is the memory from the start of the buffer on, `writing` tells the `dowrite` functions
from the `nowrite` functions. -/
structure MsgBuffer where
  null : Bool
  data : ℕ → UInt8
  len : ℕ
  pos : ℕ
  error : Option BufferError
  writing : Bool

namespace MsgBuffer

/-- `init_msg_buffer`. -/
def init : MsgBuffer where
  null := true
  data := fun _ => 0
  len := 0
  pos := 0
  error := none
  writing := false

def setMsgBuffer (data : ℕ → UInt8) (len : ℕ) : MsgBuffer where
  null := false
  data := data
  len := len
  pos := 0
  error := none
  writing := true

variable (mb : MsgBuffer)

def setFatalError (error : BufferError) : MsgBuffer :=
  { mb with error := some error, writing := false }

def skip (n : ℕ) : MsgBuffer := { mb with pos := u32 (mb.pos + n) }

def contents : Bytes := Memory.read mb.data 0 mb.pos

def copy (xs : Bytes) : MsgBuffer := { mb with data := Memory.write mb.data mb.pos xs }

/-- What the writers have in common: bytes are copied when the writer's own test finds room,
and the position moves in any case. -/
def write (room : Bool) (xs : Bytes) : MsgBuffer :=
  if mb.writing then
    if room then (mb.copy xs).skip xs.length else (mb.setFatalError .enobufs).skip xs.length
  else mb.skip xs.length

def msgWriteByte (b : UInt8) : MsgBuffer := mb.write (mb.pos < mb.len) [b]

def msgWriteBytes (bytes : Bytes) : MsgBuffer :=
  mb.write (u32 (mb.pos + bytes.length) ≤ mb.len) bytes

end MsgBuffer

/-! ## Big integers -/

def getNbits (mp : ℕ) : ℕ := mp.size

/-- The test in the source is on the bit behind the highest one. -/
def getNbytes (mp : ℕ) : ℕ :=
  let bits := getNbits mp
  if bits % 8 = 0 then if mp.testBit bits then bits / 8 + 1 else bits / 8
  else bits / 8 + 1

/-- An integer in SSH form, as `gcry_mpi_print` writes it: a length and the bytes with the
highest first, with a zero byte in front when they would read as a negative number. -/
def mpint (mp : ℕ) : Bytes :=
  if mp = 0 then storeUint32 0
  else storeUint32 (getNbits mp / 8 + 1) ++ BigEndian.encode (getNbits mp / 8 + 1) mp

def MsgBuffer.msgWriteSshMpint (mb : MsgBuffer) (mp : ℕ) : MsgBuffer :=
  let len := 4 + getNbytes mp
  if mb.null then mb.skip len
  else if u32 (mb.pos + len) ≤ mb.len then
    if (mpint mp).length ≤ u32Sub mb.len mb.pos then (mb.copy (mpint mp)).skip (mpint mp).length
    else (mb.setFatalError .eio).skip len
  else (mb.setFatalError .enobufs).skip len

end Osns
