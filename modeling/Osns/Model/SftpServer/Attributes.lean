import Mathlib.Algebra.Group.Int.Defs
import Mathlib.Algebra.GroupWithZero.Nat
import Osns.Model.SftpServer.Reply

/-! Attributes of files in requests and replies of the server, after `rw-attr-generic.c` and the tables,
readers and writers in `lib/sftp/attr`. -/

namespace Osns

/-- The fields of `struct system_stat_s` that the server uses. -/
structure SystemStat where
  mode : ℕ
  size : UInt64
  uid : UInt32
  gid : UInt32
  atime : ℤ
  atimeNsec : UInt32
  mtime : ℤ
  mtimeNsec : UInt32
  ctime : ℤ
  ctimeNsec : UInt32
  devMajor : UInt32
  devMinor : UInt32
  ino : UInt64
  deriving DecidableEq, Repr

/-- `get_type_system_stat` -/
def SystemStat.type (stat : SystemStat) : ℕ := stat.mode &&& 0o170000

def SystemStat.isDir (stat : SystemStat) : Bool := stat.type == 0o040000

def SystemStat.isLink (stat : SystemStat) : Bool := stat.type == 0o120000

/-! ## The tables -/

/-- The rows of `attrcb`. -/
inductive Attr
  | type
  | size
  | allocationSize
  | uidgid
  | ownergroup
  | permissions
  | acmodtime
  | accesstime
  | nsecAtime
  | createtime
  | nsecBtime
  | modifytime
  | nsecMtime
  | changetime
  | nsecCtime
  | acl
  | bits
  | textHint
  | mimeType
  | linkCount
  | untranslatedName
  | extended
  deriving DecidableEq, Repr

variable (version : SftpVersion)

/-- Owner and group get 32 bytes for each name, 253 for each domain and ten more. -/
def Attr.maxlength : Attr → ℕ
  | .type => 1
  | .size => 8
  | .allocationSize => 8
  | .uidgid => 8
  | .ownergroup => 32 + 5 + 32 + 5 + 2 * 253
  | .permissions => 4
  | .acmodtime => 8
  | .accesstime => 8
  | .nsecAtime => 4
  | .createtime => 8
  | .nsecBtime => 4
  | .modifytime => 8
  | .nsecMtime => 4
  | .changetime => 8
  | .nsecCtime => 4
  | .acl => 0
  | .bits => if version = .v06 then 8 else 4
  | .textHint => 1
  | .mimeType => 0
  | .linkCount => 4
  | .untranslatedName => 0
  | .extended => 0

structure SftpValid where
  mask : UInt32
  flags : UInt32
  deriving DecidableEq, Repr

/-- `SSH_FILEXFER_ATTR_SUBSECOND_TIMES` -/
def subsecondTimes : UInt32 := 0x100

def wValid : SftpVersion → SftpValid
  | .v03 => { mask := 0x0000000f, flags := 0 }
  | .v04 | .v05 => { mask := 0x000000ad, flags := subsecondTimes }
  | .v06 => { mask := 0x000080ad, flags := subsecondTimes }

/-- `r_valid`; only version 6 has the creation time. -/
def rValid : SftpVersion → SftpValid
  | .v03 => { mask := 0x8000000f, flags := 0 }
  | .v04 => { mask := 0x800000ed, flags := subsecondTimes }
  | .v05 => { mask := 0x800002ed, flags := subsecondTimes }
  | .v06 => { mask := 0x8000fefd, flags := subsecondTimes }

variable (valid : SftpValid)

def SftpValid.restrict (supported : SftpValid) : SftpValid where
  mask := valid.mask &&& supported.mask
  flags := valid.flags &&& supported.flags

def attrIf (bits bit : UInt32) (attrs : List Attr) : List Attr :=
  if hasBits bits bit then attrs else []

def timeIf (bit : UInt32) (time nsec : Attr) : List Attr :=
  attrIf valid.mask bit (time :: attrIf valid.flags subsecondTimes [nsec])

def parseAttributesV03 : List Attr :=
  attrIf valid.mask 0x1 [.size] ++ attrIf valid.mask 0x2 [.uidgid]
    ++ attrIf valid.mask 0x4 [.permissions] ++ attrIf valid.mask 0x8 [.acmodtime]
    ++ attrIf valid.mask 0x80000000 [.extended]

def parseAttributesV04 : List Attr :=
  .type :: (attrIf valid.mask 0x1 [.size] ++ attrIf valid.mask 0x80 [.ownergroup]
    ++ attrIf valid.mask 0x4 [.permissions] ++ timeIf valid 0x8 .accesstime .nsecAtime
    ++ timeIf valid 0x10 .createtime .nsecBtime ++ timeIf valid 0x20 .modifytime .nsecMtime
    ++ attrIf valid.mask 0x40 [.acl] ++ attrIf valid.mask 0x80000000 [.extended])

def parseAttributesV05 : List Attr :=
  .type :: (attrIf valid.mask 0x1 [.size] ++ attrIf valid.mask 0x80 [.ownergroup]
    ++ attrIf valid.mask 0x4 [.permissions] ++ timeIf valid 0x8 .accesstime .nsecAtime
    ++ timeIf valid 0x10 .createtime .nsecBtime ++ timeIf valid 0x20 .modifytime .nsecMtime
    ++ attrIf valid.mask 0x40 [.acl] ++ attrIf valid.mask 0x200 [.bits]
    ++ attrIf valid.mask 0x80000000 [.extended])

def parseAttributesV06 : List Attr :=
  .type :: (attrIf valid.mask 0x1 [.size] ++ attrIf valid.mask 0x400 [.allocationSize]
    ++ attrIf valid.mask 0x80 [.ownergroup] ++ attrIf valid.mask 0x4 [.permissions]
    ++ timeIf valid 0x8 .accesstime .nsecAtime ++ timeIf valid 0x10 .createtime .nsecBtime
    ++ timeIf valid 0x20 .modifytime .nsecMtime ++ timeIf valid 0x8000 .changetime .nsecCtime
    ++ attrIf valid.mask 0x40 [.acl] ++ attrIf valid.mask 0x200 [.bits]
    ++ attrIf valid.mask 0x800 [.textHint] ++ attrIf valid.mask 0x1000 [.mimeType]
    ++ attrIf valid.mask 0x2000 [.linkCount] ++ attrIf valid.mask 0x4000 [.untranslatedName]
    ++ attrIf valid.mask 0x80000000 [.extended])

/-- The rows that `parse_attributes_generic` visits for what is supported of `valid`, in this order. A
list of rows in the cache is one that has been made this way. -/
def parseAttributes (supported valid : SftpValid) : List Attr :=
  let valid := valid.restrict supported
  match version with
  | .v03 => parseAttributesV03 valid
  | .v04 => parseAttributesV04 valid
  | .v05 => parseAttributesV05 valid
  | .v06 => parseAttributesV06 valid

/-! ## Writing -/

/-- The ids in the mapping, which is one by id: the server does not change it after
`init_net_idmapping`. -/
structure IdMapping where
  uid : UInt32
  gid : UInt32
  deriving DecidableEq, Repr

/-- `get_user_l2p_byid` and `get_group_l2p_byid` set the id, and leave the name as it is. -/
def l2pById (mapped localId : UInt32) : UInt32 := if localId = 0 then 0 else mapped

/-- `copy_buffer_data`, which has no check. -/
def copyBufferData (out : Output.State UInt8) (bytes : Bytes) :
    Except ServerFault (Output.State UInt8) :=
  match Output.put (2 ^ 32) out bytes with
  | some out => .ok out
  | none => .error .memory

def storeInt64 (value : ℤ) : Bytes := storeUint64 (value % 2 ^ 64).toNat

def typeReverse (type : ℕ) : UInt8 :=
  let special := fun code : UInt8 => if version = .v04 then 0 else code
  match type / 2 ^ 12 with
  | 1 => special 9
  | 2 => special 7
  | 4 => 2
  | 6 => special 8
  | 8 => 1
  | 10 => 3
  | 12 => special 6
  | _ => 5

/-- Half of `write_attr_ownergroup_v04`. The length of the name is all the space that is left, and the
mapping does not change it. -/
def writeName (out : Output.State UInt8) : Except ServerFault (Output.State UInt8) := do
  let len := u32Sub (u32Sub out.buf.length out.pos) 4
  let out ← copyBufferData out (storeUint32 len)
  return { out with pos := u32 (out.pos + len) }

/-- The writers of a version. The one for the nanoseconds of the access time is a reader in version 4
and 5, and there is none for what is never asked for. -/
def writeAttr (mapping : IdMapping) (stat : SystemStat) (out : Output.State UInt8) :
    Attr → Except ServerFault (Output.State UInt8)
  | .type => copyBufferData out [typeReverse version stat.type]
  | .size => copyBufferData out (storeUint64 stat.size.toNat)
  | .uidgid => do
    let out ← copyBufferData out (storeUint32 (l2pById mapping.uid stat.uid).toNat)
    copyBufferData out (storeUint32 (l2pById mapping.gid stat.gid).toNat)
  | .ownergroup => do
    let out ← writeName out
    writeName out
  | .permissions =>
    let type := if version = .v03 then stat.type else 0
    copyBufferData out (storeUint32 (stat.mode &&& 0o777 ||| type))
  | .acmodtime => do
    let out ← copyBufferData out (storeUint32 (stat.atime % 2 ^ 32).toNat)
    copyBufferData out (storeUint32 (stat.mtime % 2 ^ 32).toNat)
  | .accesstime => copyBufferData out (storeInt64 stat.atime)
  | .nsecAtime =>
    match version with
    | .v06 => copyBufferData out (storeUint32 stat.atimeNsec.toNat)
    | _ => .error .callback
  | .modifytime => copyBufferData out (storeInt64 stat.mtime)
  | .nsecMtime => copyBufferData out (storeUint32 stat.mtimeNsec.toNat)
  | .changetime => copyBufferData out (storeInt64 stat.ctime)
  | .nsecCtime => copyBufferData out (storeUint32 stat.ctimeNsec.toNat)
  | _ => .error .null

/-- Half of `write_attr_ownergroup_v04`, for the name that `get_user_l2p_byname_server` or
`get_group_l2p_byname_server` finds; it is empty when none is found. -/
def writeNameByname (name : Bytes) (out : Output.State UInt8) :
    Except ServerFault (Output.State UInt8) := do
  let out ← copyBufferData out (storeUint32 name.length)
  copyBufferData out name

def writeAttrByname (mapping : IdMapping) (owner group : Bytes) (stat : SystemStat)
    (out : Output.State UInt8) : Attr → Except ServerFault (Output.State UInt8)
  | .ownergroup => do
    let out ← writeNameByname owner out
    writeNameByname group out
  | attr => writeAttr version mapping stat out attr

def writeAttributes (version : SftpVersion) (mapping : IdMapping) (stat : SystemStat) :
    Output.State UInt8 → List Attr → Except ServerFault (Output.State UInt8)
  | out, [] => .ok out
  | out, attr :: attrs => do
    let out ← writeAttr version mapping stat out attr
    writeAttributes version mapping stat out attrs

def getSizeBufferWriteAttributes : ℕ :=
  ((parseAttributes version (wValid version) valid).map (Attr.maxlength version)).sum

/-- The buffer that `reply_sftp_attr_from_stat` and `sftp_op_fstat` fill: the valid word and the
attributes. -/
def attrsFromStat (mapping : IdMapping) (valid : SftpValid) (stat : SystemStat) :
    Except ServerFault Bytes := do
  let written := valid.restrict (wValid version)
  let out ← copyBufferData (stackBuffer (getSizeBufferWriteAttributes version valid))
    (storeUint32 (written.mask ||| written.flags).toNat)
  let out ← writeAttributes version mapping stat out (parseAttributes version (wValid version) valid)
  return out.buf

/-- The whole buffer is sent. -/
def replySftpAttrFromStat (mapping : IdMapping) (id : UInt32) (valid : SftpValid)
    (stat : SystemStat) : Except ServerFault Bytes := do
  let attrs ← attrsFromStat version mapping valid stat
  replySftpAttrs id attrs

/-! ## Reading -/

/-- What is left of a buffer of attributes, and the mode that has been read. -/
structure AttrReader where
  rest : Bytes
  mode : ℕ

def attrReadBytes (n : ℕ) (rest : Bytes) : Except ServerFault (Bytes × Bytes) :=
  if n ≤ rest.length then .ok (rest.take n, rest.drop n) else .error .body

def attrReadUint32 (rest : Bytes) : Except ServerFault (ℕ × Bytes) := do
  let (bytes, rest) ← attrReadBytes 4 rest
  return (getUint32 bytes, rest)

/-- Bytes that no operation uses. -/
def attrSkip (n : ℕ) (reader : AttrReader) : Except ServerFault AttrReader := do
  let (_, rest) ← attrReadBytes n reader.rest
  return { reader with rest }

/-- `read_string`: a string that does not fit is not skipped. `callback` gets the bytes from its start
on. -/
def attrReadString (callback : Bytes → Except ServerFault Unit) (rest : Bytes) :
    Except ServerFault Bytes := do
  let (len, rest) ← attrReadUint32 rest
  if 0 < len ∧ len ≤ rest.length then
    callback rest
    return rest.drop len
  else return rest

/-- `read_int64` shifts an `int` by more than its width. -/
def attrReadInt64 (reader : AttrReader) : Except ServerFault AttrReader := do
  let _ ← attrReadBytes 8 reader.rest
  .error .shift

/-- `convert_int64_2c`; the negation of the smallest value is not defined. -/
def convertInt642c (value : ℤ) : Option ℕ :=
  if 0 ≤ value then some value.toNat
  else if value = -2 ^ 63 then none
  else some ((2 ^ 64 - 1 - (-value).toNat + 1) % 2 ^ 64)

/-- The bytes that `write_int64` copies into the buffer. -/
def writeInt64 (value : ℤ) : Option Bytes := (convertInt642c value).map storeUint64

def convert2cInt64 (value : ℕ) : ℤ :=
  if 2 ^ 63 ≤ value then -(2 ^ 64 - 1 - (value - 1) : ℕ) else value

/-- Bytes are shifted as values of type `int`. -/
def shiftBytes (bytes : Bytes) (shifts : List ℕ) : Except ServerFault ℕ :=
  (bytes.zip shifts).foldlM
    (fun a b => if 32 ≤ b.2 then .error .shift else .ok (a ||| b.1.toNat <<< b.2)) 0

/-- `read_int64`, for the eight bytes at the position. -/
def readInt64 (bytes : Bytes) : Except ServerFault ℤ := do
  let high ← shiftBytes bytes [56, 48, 40, 32]
  let low ← shiftBytes (bytes.drop 4) [24, 16, 8, 0]
  return convert2cInt64 (high ||| low)

/-- The entries of an acl, in `_attr_acl_string_cb`. -/
def aclEntries : ℕ → Bytes → Except ServerFault Unit
  | 0, _ => .ok ()
  | count + 1, rest => do
    let (_, rest) ← attrReadBytes 12 rest
    let (len, rest) ← attrReadUint32 rest
    aclEntries count (rest.drop len)

/-- `_attr_acl_string_cb` does not look at the length of the acl. -/
def attrAclStringCb (rest : Bytes) : Except ServerFault Unit := do
  let (count, rest) ← attrReadUint32 rest
  aclEntries count rest

def attrNoCb (_ : Bytes) : Except ServerFault Unit := .ok ()

def attrString (callback : Bytes → Except ServerFault Unit) (reader : AttrReader) :
    Except ServerFault AttrReader := do
  let rest ← attrReadString callback reader.rest
  return { reader with rest }

/-- The pairs of `read_attr_extensions_v03`. -/
def attrExtensions : ℕ → Bytes → Except ServerFault Bytes
  | 0, rest => .ok rest
  | count + 1, rest => do
    let rest ← attrReadString attrNoCb rest
    let rest ← attrReadString attrNoCb rest
    attrExtensions count rest

/-- The readers of a version. There is none for the nanoseconds of the access time and of the creation
time in version 4 and 5. -/
def readAttr (reader : AttrReader) : Attr → Except ServerFault AttrReader
  | .type => attrSkip 1 reader
  | .size => attrSkip 8 reader
  | .allocationSize => attrSkip 8 reader
  | .uidgid => attrSkip 8 reader
  | .ownergroup => do
    let reader ← attrString attrNoCb reader
    attrString attrNoCb reader
  | .permissions => do
    let (mode, rest) ← attrReadUint32 reader.rest
    return { rest, mode := mode &&& 0o777 }
  | .acmodtime => attrSkip 8 reader
  | .accesstime => attrReadInt64 reader
  | .nsecAtime => if version = .v06 then attrSkip 4 reader else .ok reader
  | .createtime => attrReadInt64 reader
  | .nsecBtime => if version = .v06 then attrSkip 4 reader else .ok reader
  | .modifytime => attrReadInt64 reader
  | .nsecMtime => attrSkip 4 reader
  | .changetime => attrReadInt64 reader
  | .nsecCtime => attrSkip 4 reader
  | .acl => attrString attrAclStringCb reader
  | .bits => attrSkip (if version = .v06 then 8 else 4) reader
  | .textHint => attrSkip 1 reader
  | .mimeType => attrString attrNoCb reader
  | .linkCount => attrSkip 4 reader
  | .untranslatedName => attrString attrNoCb reader
  | .extended => do
    let (count, rest) ← attrReadUint32 reader.rest
    let rest ← attrExtensions count rest
    return { reader with rest }

def readAttrs (version : SftpVersion) : AttrReader → List Attr → Except ServerFault AttrReader
  | reader, [] => .ok reader
  | reader, attr :: attrs => do
    let reader ← readAttr version reader attr
    readAttrs version reader attrs

def splitValid (bits : ℕ) : SftpValid where
  mask := UInt32.ofNat bits &&& ~~~subsecondTimes
  flags := UInt32.ofNat bits &&& subsecondTimes

/-- `read_uint32` of the valid word and `read_attributes_generic`: the mode, which is `mode` when there
is none in the block. -/
def readAttributes (mode : ℕ) (block : Bytes) : Except ServerFault ℕ := do
  let (bits, rest) ← attrReadUint32 block
  let reader ← readAttrs version { rest, mode }
    (parseAttributes version (rValid version) (splitValid bits))
  return reader.mode

end Osns
