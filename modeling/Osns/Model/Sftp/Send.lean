import Osns.Library.Output
import Osns.Model.Sftp.Receive

/-! Requests of an SFTP client, after `send-v03.c` to `send-v06.c` in `sftp/send`. -/

namespace Osns

/-- The calls of `struct sftp_request_s` with their arguments. -/
inductive SftpCall
  | openFile (path : Bytes) (posixFlags : UInt32) (attrs : Bytes)
  | opendir (path : Bytes)
  | readdir (handle : Bytes)
  | close (handle : Bytes)
  | read (handle : Bytes) (offset size : UInt64)
  | write (handle : Bytes) (offset : UInt64) (data : Bytes)
  | stat (path : Bytes) (valid : UInt32)
  | lstat (path : Bytes) (valid : UInt32)
  | fstat (handle : Bytes) (valid : UInt32)
  | setstat (path attrs : Bytes)
  | fsetstat (handle attrs : Bytes)
  | mkdir (path attrs : Bytes)
  | rmdir (path : Bytes)
  | remove (path : Bytes)
  | rename (path target : Bytes) (posixFlags : UInt32)
  | readlink (path : Bytes)
  | symlink (path target : Bytes)
  | block (handle : Bytes) (offset size : UInt64) (type : UInt32)
  | unblock (handle : Bytes) (offset size : UInt64)
  | realpath (path : Bytes)
  | extension (name data : Bytes)
  | custom (nr : UInt8) (data : Bytes)

/-! ## Flags -/

/-- `flags & mask` as a condition. -/
def hasBits (flags mask : UInt32) : Bool := flags &&& mask != 0

def bitsIf (condition : Bool) (bits : UInt32) : UInt32 := if condition then bits else 0

def oWronly : UInt32 := 0x1
def oRdwr : UInt32 := 0x2
def oCreat : UInt32 := 0x40
def oExcl : UInt32 := 0x80
def oTrunc : UInt32 := 0x200
def oAppend : UInt32 := 0x400
def renameNoreplace : UInt32 := 0x1
def lockSh : UInt32 := 0x1
def lockEx : UInt32 := 0x2

def getSftpOpenmodeV03 (posixFlags : UInt32) : UInt32 :=
  (if hasBits posixFlags oWronly then 0x2
    else if hasBits posixFlags oRdwr then 0x3
    else 0x1)
  ||| bitsIf (hasBits posixFlags oAppend) 0x4
  ||| bitsIf (hasBits posixFlags oCreat)
    (0x8 ||| (if hasBits posixFlags oExcl then 0x20
      else bitsIf (hasBits posixFlags oTrunc) 0x10))

/-- The access and the flags of `get_sftp_openmode`. -/
def getSftpOpenmode (posixFlags : UInt32) : UInt32 × UInt32 :=
  let access :=
    (if hasBits posixFlags oRdwr then 0x183
      else if hasBits posixFlags oWronly then 0x102
      else 0x81)
    ||| bitsIf (hasBits posixFlags oAppend) 0x106
  let flags :=
    bitsIf (hasBits posixFlags oAppend) 0x10
    ||| (if hasBits posixFlags oCreat && hasBits posixFlags oTrunc then 0x1
      else if hasBits posixFlags oCreat then if hasBits posixFlags oExcl then 0x0 else 0x3
      else if hasBits posixFlags oTrunc then 0x4
      else 0x2)
  (access, flags)

def getSftpRenameflags (posixFlags : UInt32) : UInt32 :=
  0x4 ||| bitsIf (!hasBits posixFlags renameNoreplace) 0x1

def getSftpLockflagsFlock (type : UInt32) : UInt32 :=
  0x200 ||| (if hasBits type lockSh then 0x180 else bitsIf (hasBits type lockEx) 0x40)

/-! ## Messages -/

/-- A `char data[size]` that the stores of a sender go to. -/
def stackBuffer (size : ℕ) : Output.State UInt8 := ⟨List.replicate size 0, 0⟩

/-- The bytes that are handed to the channel after these stores to a `char data[size]`. The position
is an `unsigned int`. -/
def sendStores (size : ℕ) (stores : List Bytes) : Except Fault Bytes := do
  let out ← inBounds (Output.putAll (2 ^ 32) (stackBuffer size) stores)
  return out.buf.take out.pos

/-- The length field, the type and the id in front of every request. -/
def sftpRequestHead (length : ℕ) (type : UInt8) (id : UInt32) : List Bytes :=
  [storeUint32 length, [type], storeUint32 id.toNat]

def sftpStringStores (s : Bytes) : List Bytes := [storeUint32 s.length, s]

/-- The senders of a request with one path or handle. -/
def sendSftpString (type : UInt8) (id : UInt32) (s : Bytes) : Except Fault Bytes :=
  sendStores (u32 (13 + s.length)) (sftpRequestHead (9 + s.length) type id ++ sftpStringStores s)

def sendSftpOpendirV03 := sendSftpString 11
def sendSftpReaddirV03 := sendSftpString 12
def sendSftpCloseV03 := sendSftpString 4
def sendSftpRemoveV03 := sendSftpString 13
def sendSftpRmdirV03 := sendSftpString 15
def sendSftpStatV03 := sendSftpString 17
def sendSftpLstatV03 := sendSftpString 7
def sendSftpFstatV03 := sendSftpString 8
def sendSftpReadlinkV03 := sendSftpString 19
def sendSftpRealpathV03 := sendSftpString 16

/-- The senders of a request with a path or handle and an attribute block. -/
def sendSftpAttrs (type : UInt8) (id : UInt32) (s attrs : Bytes) : Except Fault Bytes :=
  sendStores (u32 (13 + s.length + attrs.length))
    (sftpRequestHead (9 + s.length + attrs.length) type id ++ sftpStringStores s ++ [attrs])

def sendSftpMkdirV03 := sendSftpAttrs 14
def sendSftpSetstatV03 := sendSftpAttrs 9
def sendSftpFsetstatV03 := sendSftpAttrs 10

/-- `send_sftp_extension_v03` stores its name and data the same way. -/
def sendSftpExtensionV03 := sendSftpAttrs 200

/-- The senders that ask for attributes from version 4 on. -/
def sendSftpStatGeneric (type : UInt8) (id : UInt32) (s : Bytes) (flags : UInt32) :
    Except Fault Bytes :=
  sendStores (u32 (17 + s.length))
    (sftpRequestHead (13 + s.length) type id ++ sftpStringStores s ++ [storeUint32 flags.toNat])

def sendSftpStatV04Generic := sendSftpStatGeneric 17
def sendSftpLstatV04Generic := sendSftpStatGeneric 7
def sendSftpFstatV04Generic := sendSftpStatGeneric 8

/-- The senders of a request with two paths. -/
def sendSftpTwoPaths (type : UInt8) (id : UInt32) (path target : Bytes) : Except Fault Bytes :=
  sendStores (u32 (17 + path.length + target.length))
    (sftpRequestHead (13 + path.length + target.length) type id ++ sftpStringStores path
      ++ sftpStringStores target)

def sendSftpRenameV03 := sendSftpTwoPaths 18
def sendSftpSymlinkV03 := sendSftpTwoPaths 20

variable (id : UInt32) (path : Bytes)

def sendSftpRenameV05 (target : Bytes) (posixFlags : UInt32) : Except Fault Bytes :=
  sendStores (u32 (21 + path.length + target.length))
    (sftpRequestHead (17 + path.length + target.length) 18 id ++ sftpStringStores path
      ++ sftpStringStores target ++ [storeUint32 (getSftpRenameflags posixFlags).toNat])

def sendSftpSymlinkV06 (target : Bytes) : Except Fault Bytes :=
  sendStores (u32 (18 + path.length + target.length))
    (sftpRequestHead (14 + path.length + target.length) 21 id ++ sftpStringStores path
      ++ sftpStringStores target ++ [[1]])

def sendSftpRealpathV06 : Except Fault Bytes :=
  sendStores (u32 (14 + path.length))
    (sftpRequestHead (10 + path.length) 16 id ++ sftpStringStores path ++ [[3]])

variable (handle : Bytes)

/-- The size of a read is an `uint64_t` that is stored in four bytes. -/
def sendSftpReadV03 (offset size : UInt64) : Except Fault Bytes :=
  sendStores (u32 (25 + handle.length))
    (sftpRequestHead (21 + handle.length) 5 id ++ sftpStringStores handle
      ++ [storeUint64 offset.toNat, storeUint32 size.toNat])

/-- The size of a write is an `uint64_t`, so the size of the buffer is one, too. -/
def sendSftpWriteV03 (offset : UInt64) (data : Bytes) : Except Fault Bytes :=
  sendStores ((u32 (25 + handle.length) + data.length) % 2 ^ 64)
    (sftpRequestHead (21 + handle.length + data.length) 6 id ++ sftpStringStores handle
      ++ [storeUint64 offset.toNat] ++ sftpStringStores data)

def sendSftpBlockV06 (offset size : UInt64) (type : UInt32) : Except Fault Bytes :=
  sendStores (u32 (33 + handle.length))
    (sftpRequestHead (29 + handle.length) 22 id ++ sftpStringStores handle
      ++ [storeUint64 offset.toNat, storeUint64 size.toNat,
        storeUint32 (getSftpLockflagsFlock type).toNat])

def sendSftpUnblockV06 (offset size : UInt64) : Except Fault Bytes :=
  sendStores (u32 (29 + handle.length))
    (sftpRequestHead (25 + handle.length) 23 id ++ sftpStringStores handle
      ++ [storeUint64 offset.toNat, storeUint64 size.toNat])

/-- The length field holds the size of the whole message. -/
def sendSftpCustomV03 (nr : UInt8) (data : Bytes) : Except Fault Bytes :=
  sendStores (u32 (9 + data.length)) (sftpRequestHead (9 + data.length) nr id ++ [data])

/-- The attribute block of an open request. Without one a valid word and the type of a regular file
are stored. -/
def openAttrsStores (attrs : Bytes) : List Bytes :=
  if attrs.length > 0 then [attrs] else [storeUint32 0, [1]]

/-- The open requests: their length field is stored last. -/
def sendSftpOpen (base : ℕ) (id : UInt32) (path : Bytes) (words : List UInt32) (attrs : Bytes) :
    Except Fault Bytes := do
  let out ← inBounds (Output.putAll (2 ^ 32)
    (stackBuffer (u32 (base + path.length + attrs.length + 5)))
    (sftpRequestHead 0 3 id ++ sftpStringStores path
      ++ words.map (fun word => storeUint32 word.toNat) ++ openAttrsStores attrs))
  let data ← inBounds (Buffer.store out.buf 0 (storeUint32 (u32Sub out.pos 4)))
  return data.take out.pos

def sendSftpOpenV03 (posixFlags : UInt32) (attrs : Bytes) : Except Fault Bytes :=
  sendSftpOpen 17 id path [getSftpOpenmodeV03 posixFlags] attrs

def sendSftpOpenV05 (posixFlags : UInt32) (attrs : Bytes) : Except Fault Bytes :=
  let openmode := getSftpOpenmode posixFlags
  sendSftpOpen 21 id path [openmode.1, openmode.2] attrs

/-- The `struct sftp_send_ops_s` of a version. `wValid` is what the attribute context of the client
can write, its mask and its flags. There is no message for a call that the version does not have: the
sender sets `ENOSYS` and returns -1. -/
def SftpCall.send (version : SftpVersion) (wValid id : UInt32) :
    SftpCall → Except Fault (Option Bytes)
  | .openFile path posixFlags attrs =>
    some <$> match version with
      | .v03 | .v04 => sendSftpOpenV03 id path posixFlags attrs
      | .v05 | .v06 => sendSftpOpenV05 id path posixFlags attrs
  | .opendir path => some <$> sendSftpOpendirV03 id path
  | .readdir handle => some <$> sendSftpReaddirV03 id handle
  | .close handle => some <$> sendSftpCloseV03 id handle
  | .read handle offset size => some <$> sendSftpReadV03 id handle offset size
  | .write handle offset data => some <$> sendSftpWriteV03 id handle offset data
  | .stat path _ =>
    some <$> match version with
      | .v03 => sendSftpStatV03 id path
      | .v04 | .v05 | .v06 => sendSftpStatV04Generic id path wValid
  | .lstat path _ =>
    some <$> match version with
      | .v03 => sendSftpLstatV03 id path
      | .v04 | .v05 | .v06 => sendSftpLstatV04Generic id path wValid
  | .fstat handle _ =>
    some <$> match version with
      | .v03 => sendSftpFstatV03 id handle
      | .v04 | .v05 | .v06 => sendSftpFstatV04Generic id handle wValid
  | .setstat path attrs => some <$> sendSftpSetstatV03 id path attrs
  | .fsetstat handle attrs => some <$> sendSftpFsetstatV03 id handle attrs
  | .mkdir path attrs => some <$> sendSftpMkdirV03 id path attrs
  | .rmdir path => some <$> sendSftpRmdirV03 id path
  | .remove path => some <$> sendSftpRemoveV03 id path
  | .rename path target posixFlags =>
    some <$> match version with
      | .v03 | .v04 => sendSftpRenameV03 id path target
      | .v05 | .v06 => sendSftpRenameV05 id path target posixFlags
  | .readlink path => some <$> sendSftpReadlinkV03 id path
  | .symlink path target =>
    some <$> match version with
      | .v03 | .v04 | .v05 => sendSftpSymlinkV03 id path target
      | .v06 => sendSftpSymlinkV06 id path target
  | .block handle offset size type =>
    match version with
    | .v03 | .v04 | .v05 => .ok none
    | .v06 => some <$> sendSftpBlockV06 id handle offset size type
  | .unblock handle offset size =>
    match version with
    | .v03 | .v04 | .v05 => .ok none
    | .v06 => some <$> sendSftpUnblockV06 id handle offset size
  | .realpath path =>
    some <$> match version with
      | .v03 | .v04 | .v05 => sendSftpRealpathV03 id path
      | .v06 => sendSftpRealpathV06 id path
  | .extension name data => some <$> sendSftpExtensionV03 id name data
  | .custom nr data => some <$> sendSftpCustomV03 id nr data

end Osns
