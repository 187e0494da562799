import Osns.Model.Pk
import Osns.Model.Sftp.Send

/-! The version message of the SFTP server, after `send_sftp_init` in `ssh/subsystem/sftp/init.c` and
`supported.c`. -/

namespace Osns

variable (version : UInt8)

/-- Version 6 when none has been set. -/
def getSftpProtocolVersion : UInt8 := if version > 0 then version else 6

def getSupportedOpenFlags : ℕ := 0x7 ||| 0x8 ||| 0x10 ||| 0x40 ||| 0x80 ||| 0x100
def getSupportedOpenAccess : ℕ := 0x1 ||| 0x80 ||| 0x2 ||| 0x100 ||| 0x4 ||| 0x10000
def getSupportedMaxReadsize : ℕ := 8192

def storeUint16 (value : ℕ) : Bytes := [UInt8.ofNat (value / 2 ^ 8), UInt8.ofNat value]

/-- The stores of `write_ssh_string` of a C string, whose length is put in an `unsigned int`. The size
that comes with the buffer is not looked at. -/
def writeSshStringC (text : Bytes) : List Bytes :=
  [storeUint32 (u32 text.length), text.take (u32 text.length)]

def supported2Name : Bytes := ascii ['s', 'u', 'p', 'p', 'o', 'r', 't', 'e', 'd', '2']

def aclSupportedName : Bytes :=
  ascii ['a', 'c', 'l', '-', 's', 'u', 'p', 'p', 'o', 'r', 't', 'e', 'd']

/-- `get_sftp_protocol_extensions` without a buffer: the space for the names, with their number. -/
def getSftpProtocolExtensions : List Bytes → ℕ × ℕ
  | [] => (0, 0)
  | name :: names =>
    let rest := getSftpProtocolExtensions names
    (u32 (u32 (4 + name.length) + rest.1), rest.2 + 1)

/-- `len_hs`, the size of the structure of supported2. There are no attribute extensions. -/
def supported2Size (names : List Bytes) : ℕ := u32 (32 + (getSftpProtocolExtensions names).1)

/-- `len`, the size of the buffer for the message: `len_h` is 14, `len_a` is 17 and `len_as` is 4. -/
def initSize (names : List Bytes) : ℕ := u32 (9 + 14 + supported2Size names + 17 + 4)

/-- The stores of `send_sftp_init` from the front up to the name acl-supported. `rValid` is what the
attribute context can read, its mask and its flags; `names` are the extensions in the order of their
table. -/
def initFront (rValid : UInt32) (names : List Bytes) : List Bytes :=
  [storeUint32 (u32Sub (initSize names) 4), [2], storeUint32 (getSftpProtocolVersion version).toNat]
  ++ writeSshStringC supported2Name
  ++ [storeUint32 (supported2Size names), storeUint32 rValid.toNat, storeUint32 0,
    storeUint32 getSupportedOpenFlags, storeUint32 getSupportedOpenAccess,
    storeUint32 getSupportedMaxReadsize, storeUint16 1, storeUint16 1, storeUint32 0,
    storeUint32 (getSftpProtocolExtensions names).2]
  ++ names.flatMap writeSshStringC
  ++ writeSshStringC aclSupportedName

/-- Behind the name come `len_as` and the capabilities. -/
def initStores (rValid : UInt32) (names : List Bytes) : List Bytes :=
  initFront version rValid names ++ [storeUint32 4, storeUint32 0]

/-- `send_sftp_init` with a `char data[size]`: the length field is stored again at the end. -/
def sendSftpInitIn (size : ℕ) (stores : List Bytes) : Except Fault Bytes := do
  let out ← inBounds (Output.putAll (2 ^ 32) (stackBuffer size) stores)
  let data ← inBounds (Buffer.store out.buf 0 (storeUint32 (u32Sub out.pos 4)))
  return data.take out.pos

def sendSftpInit (rValid : UInt32) (names : List Bytes) : Except Fault Bytes :=
  sendSftpInitIn (initSize names) (initStores version rValid names)

end Osns
