import Osns.Model.Socket

/-! How the SFTP server cuts its input into requests: the callbacks of its socket, after
`ssh/subsystem/sftp/receive.c`. -/

namespace Osns

/-- The byte order of the host, which a `uint32_t` in a `struct` has. -/
inductive HostOrder
  | little
  | big
  deriving DecidableEq, Repr

variable (order : HostOrder)

/-- A `uint32_t` at the start of some memory; none when not all of its bytes have a value. -/
def hostUint32 : Cells → Option ℕ
  | some b0 :: some b1 :: some b2 :: some b3 :: _ =>
    match order with
    | .little => some (b0.toNat + b1.toNat * 2 ^ 8 + b2.toNat * 2 ^ 16 + b3.toNat * 2 ^ 24)
    | .big => some (b0.toNat * 2 ^ 24 + b1.toNat * 2 ^ 16 + b2.toNat * 2 ^ 8 + b3.toNat)
  | _ => none

/-- `sizeof(struct sftp_in_header_s)`: the length at offset 0, the type at 4, and the id at 8, since it
is aligned. -/
def getSftpMsgHeaderSize : ℕ := 12

/-- The length field is read in the byte order of the host. -/
def getSftpMsgSize (buffer : Cells) : Except Fault ℕ := do
  let len ← inBounds (hostUint32 order buffer)
  return u32 (len + 4)

/-- A call of an operation callback: `inh` with the bytes behind `data`. -/
structure SftpCallback where
  type : Option UInt8
  id : Option ℕ
  len : ℕ
  data : Cells
  deriving DecidableEq, Repr

/-- The callback of the type of the header is called. -/
def processSftpData (header : Cells) (len : ℕ) (data : Cells) : SftpCallback where
  type := header.getD 4 none
  id := hostUint32 order (header.drop 8)
  len := len
  data := data

def sftpCallbacks : SocketCallbacks SftpCallback where
  getMsgHeaderSize := getSftpMsgHeaderSize
  getMsgSize := getSftpMsgSize order
  processData := processSftpData order

abbrev FramingState := SocketState SftpCallback

def framingStep : FramingState → SocketAction → Option FramingState := socketStep (sftpCallbacks order)

end Osns
