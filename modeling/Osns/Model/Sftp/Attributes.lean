import Osns.Model.SftpServer.Attributes

/-! Attributes and names in replies as the client reads them, after `lib/datatypes/buffer.c`, the readers
in `lib/sftp/attr` and the mapping of users and groups in `lib/users`. -/

namespace Osns

/-! ## The record of a file -/

/-- `struct system_stat_s` with the creation time, which the server does not send. -/
structure StatRecord extends SystemStat where
  btime : ℤ
  btimeNsec : UInt32
  deriving DecidableEq, Repr

/-- `get_mode_system_stat` -/
def SystemStat.perm (stat : SystemStat) : ℕ := stat.mode &&& 0o7777

/-- `set_type_system_stat` -/
def StatRecord.setType (stat : StatRecord) (type : ℕ) : StatRecord :=
  { stat with mode := type &&& 0o170000 ||| stat.perm }

/-- `set_mode_system_stat` -/
def StatRecord.setMode (stat : StatRecord) (mode : ℕ) : StatRecord :=
  { stat with mode := stat.type ||| mode &&& 0o7777 }

/-! ## Users and groups -/

/-- The users or the groups of `struct net_idmapping_s`: whether both sides share them, the id and the
name that the connecting one has on the server, its id here, the id for an unknown one, and what the
`lookup` functions find. -/
structure NetIds where
  shared : Bool
  remoteId : UInt32
  remoteName : Bytes
  localId : UInt32
  unknown : UInt32
  lookupId : UInt32 → Option UInt32
  lookupName : Bytes → Option UInt32

structure NetMapping where
  users : NetIds
  groups : NetIds

def rootName : Bytes := [114, 111, 111, 116]

namespace NetIds

/-- `get_user_p2l_shared_byid`, `get_user_p2l_nonshared_byid` and the same for groups. A shared id is
taken as it is. -/
def p2lById (ids : NetIds) (id : UInt32) : UInt32 :=
  if ids.shared then id
  else if id = ids.remoteId then ids.localId
  else if id = 0 then 0
  else (ids.lookupId id).getD ids.unknown

def findName (ids : NetIds) (name : Bytes) : UInt32 := (ids.lookupName name).getD ids.unknown

/-- A name without a domain. The obvious ones are tried first, when they are not shared. -/
def plainName (ids : NetIds) (name : Bytes) : UInt32 :=
  if ids.shared then ids.findName name
  else if name = ids.remoteName then ids.localId
  else if name = rootName then 0
  else ids.findName name

end NetIds

/-- `memchr` on `n` bytes, which stops at the first byte that it looks for. -/
def memchr (c : UInt8) : ℕ → Bytes → Except ServerFault (Option ℕ)
  | 0, _ => .ok none
  | _ + 1, [] => .error .body
  | n + 1, b :: bytes =>
    if b = c then .ok (some 0)
    else do
      let found ← memchr c n bytes
      return found.map (· + 1)

/-- The search for the `@` in a name of `len` bytes at the front of `bytes`. The last two arguments of
`memchr` are exchanged: it looks for the length in as many bytes as the code of the character, which are
64. -/
def findDomain (len : ℕ) (bytes : Bytes) : Except ServerFault (Option ℕ) :=
  memchr (UInt8.ofNat len) 64 bytes

/-- `get_user_p2l_shared_byname`, `get_user_p2l_nonshared_byname` and the same for groups. What is found
is overwritten, and the domain is ignored. -/
def NetIds.p2lByName (ids : NetIds) (len : ℕ) (bytes : Bytes) :
    Except ServerFault (Bytes × UInt32) := do
  let found ← findDomain len bytes
  match found with
  | some i => return (bytes.set i 0, ids.findName (bytes.take i))
  | none => return (bytes, ids.plainName (bytes.take len))

/-- The name and the domain of a string that `NetIds.p2lByName` gets. -/
def splitName (text : Bytes) : Except ServerFault (Bytes × Option Bytes) := do
  let found ← findDomain text.length text
  match found with
  | some i => return (text.take i, some (text.drop (i + 1)))
  | none => return (text, none)

/-- `get_user_l2p_byname_client` and `get_group_l2p_byname_client`. -/
def NetIds.l2pByNameClient (ids : NetIds) (localid : UInt32) : Bytes :=
  if localid = 0 then rootName else ids.remoteName

/-! ## The readers -/

/-- `struct attr_buffer_s` of a reply: its flags, none of which is for an error, and what is left. -/
structure AttrBuffer where
  flags : UInt32
  rest : Bytes
  deriving DecidableEq, Repr

/-- A buffer and the record that is filled from it. -/
structure AttrReading extends AttrBuffer where
  stat : StatRecord
  deriving DecidableEq, Repr

namespace AttrReading

/-- A number of `n` bytes, without a check of what is left. -/
def readFixed (n : ℕ) (set : StatRecord → Bytes → StatRecord) (r : AttrReading) :
    Except ServerFault AttrReading := do
  let (bytes, rest) ← attrReadBytes n r.rest
  return { r with
    rest := rest
    stat := set r.stat bytes }

/-- A number that is not used. -/
def skipFixed (n : ℕ) (r : AttrReading) : Except ServerFault AttrReading :=
  r.readFixed n fun stat _ => stat

/-- `read_int64` shifts an `int` by more than its width. -/
def readInt64 (r : AttrReading) : Except ServerFault AttrReading := do
  let _ ← attrReadBytes 8 r.rest
  .error .shift

/-- `callback` gets the length of the string and the bytes from its start on, and may change them.
-/
def readString (callback : ℕ → Bytes → StatRecord → Except ServerFault (Bytes × StatRecord))
    (r : AttrReading) : Except ServerFault AttrReading := do
  let (len, rest) ← attrReadUint32 r.rest
  if 0 < len ∧ len ≤ rest.length then
    let (rest, stat) ← callback len rest r.stat
    return { r with
      rest := rest.drop len
      stat := stat }
  else return { r with rest := rest }

end AttrReading

def attrCbLook (look : Bytes → Except ServerFault Unit) (_ : ℕ) (bytes : Bytes) (stat : StatRecord) :
    Except ServerFault (Bytes × StatRecord) := do
  look bytes
  return (bytes, stat)

def attrCbUser (mapping : NetMapping) (len : ℕ) (bytes : Bytes) (stat : StatRecord) :
    Except ServerFault (Bytes × StatRecord) := do
  let (bytes, uid) ← mapping.users.p2lByName len bytes
  return (bytes, { stat with uid := uid })

def attrCbGroup (mapping : NetMapping) (len : ℕ) (bytes : Bytes) (stat : StatRecord) :
    Except ServerFault (Bytes × StatRecord) := do
  let (bytes, gid) ← mapping.groups.p2lByName len bytes
  return (bytes, { stat with gid := gid })

variable (version : SftpVersion)

def typeMapping (code : UInt8) : ℕ :=
  let special := fun type : ℕ => if version = .v03 ∨ version = .v04 then 0 else type
  match code.toNat with
  | 1 => 0o100000
  | 2 => 0o040000
  | 3 => 0o120000
  | 6 => special 0o140000
  | 7 => special 0o020000
  | 8 => special 0o060000
  | 9 => special 0o010000
  | _ => 0

variable (mapping : NetMapping)

/-- The readers of a version. The client maps ids in version 3 and names in the others. -/
def readStatAttr (r : AttrReading) : Attr → Except ServerFault AttrReading
  | .type => r.readFixed 1 fun stat bytes => stat.setType (typeMapping version (bytes.headD 0))
  | .size => r.readFixed 8 fun stat bytes => { stat with size := UInt64.ofNat (getUint64 bytes) }
  | .allocationSize => r.skipFixed 8
  | .uidgid => do
    let r ← r.readFixed 4 fun stat bytes =>
      { stat with uid := mapping.users.p2lById (UInt32.ofNat (getUint32 bytes)) }
    r.readFixed 4 fun stat bytes =>
      { stat with gid := mapping.groups.p2lById (UInt32.ofNat (getUint32 bytes)) }
  | .ownergroup => do
    let r ← r.readString (attrCbUser mapping)
    r.readString (attrCbGroup mapping)
  | .permissions => r.readFixed 4 fun stat bytes =>
    let mode := getUint32 bytes
    let stat := if version = .v03 then stat.setType (mode &&& 0o170000) else stat
    stat.setMode (mode &&& 0o777)
  | .acmodtime => do
    let r ← r.readFixed 4 fun stat bytes =>
      { stat with
        atime := getUint32 bytes
        atimeNsec := 0 }
    r.readFixed 4 fun stat bytes =>
      { stat with
        mtime := getUint32 bytes
        mtimeNsec := 0 }
  | .accesstime => r.readInt64
  | .nsecAtime =>
    if version = .v06 then
      r.readFixed 4 fun stat bytes => { stat with atimeNsec := UInt32.ofNat (getUint32 bytes) }
    else .ok r
  | .createtime => r.readInt64
  | .nsecBtime =>
    if version = .v06 then
      r.readFixed 4 fun stat bytes => { stat with btimeNsec := UInt32.ofNat (getUint32 bytes) }
    else .ok r
  | .modifytime => r.readInt64
  | .nsecMtime =>
    r.readFixed 4 fun stat bytes => { stat with mtimeNsec := UInt32.ofNat (getUint32 bytes) }
  | .changetime => r.readInt64
  | .nsecCtime =>
    r.readFixed 4 fun stat bytes => { stat with ctimeNsec := UInt32.ofNat (getUint32 bytes) }
  | .acl => r.readString (attrCbLook attrAclStringCb)
  | .bits => r.skipFixed (if version = .v06 then 8 else 4)
  | .textHint => r.skipFixed 1
  | .mimeType => r.readString (attrCbLook attrNoCb)
  | .linkCount => r.skipFixed 4
  | .untranslatedName => r.readString (attrCbLook attrNoCb)
  | .extended => do
    let (count, rest) ← attrReadUint32 r.rest
    let rest ← attrExtensions count rest
    return { r with rest := rest }

def readStatAttrs (version : SftpVersion) (mapping : NetMapping) :
    AttrReading → List Attr → Except ServerFault AttrReading
  | r, [] => .ok r
  | r, attr :: attrs => do
    let r ← readStatAttr version mapping r attr
    readStatAttrs version mapping r attrs

def readAttributesGeneric (bits : ℕ) (r : AttrReading) : Except ServerFault AttrReading :=
  readStatAttrs version mapping r (parseAttributes version (rValid version) (splitValid bits))

def readSftpAttributes (r : AttrReading) : Except ServerFault AttrReading := do
  let (bits, rest) ← attrReadUint32 r.rest
  readAttributesGeneric version mapping bits { r with rest := rest }

/-! ## Names -/

/-- `read_string` of a name; one that does not fit has no bytes. -/
def AttrBuffer.readName (buffer : AttrBuffer) : Except ServerFault (Bytes × AttrBuffer) := do
  let (len, rest) ← attrReadUint32 buffer.rest
  if 0 < len ∧ len ≤ rest.length then
    return (rest.take len, { buffer with rest := rest.drop len })
  else return ([], { buffer with rest := rest })

/-- `read_name_name_response`; in version 3 the long name comes second and is ignored. -/
def readNameNameResponse (buffer : AttrBuffer) : Except ServerFault (Bytes × AttrBuffer) := do
  let (name, buffer) ← buffer.readName
  if version = .v03 then
    let (_, buffer) ← buffer.readName
    return (name, buffer)
  else return (name, buffer)

/-- The name and the attributes of one entry. What the attributes do not set is taken from `start`. -/
def readNameEntry (start : StatRecord) (buffer : AttrBuffer) :
    Except ServerFault ((Bytes × StatRecord) × AttrBuffer) := do
  let (name, buffer) ← readNameNameResponse version buffer
  let r ← readSftpAttributes version mapping { buffer with stat := start }
  return ((name, r.stat), r.toAttrBuffer)

/-- The entries of a name response, as `do_sftp_readdir_background` reads them as long as `count` is
not zero. -/
def readNameEntries (version : SftpVersion) (mapping : NetMapping) (start : StatRecord) :
    ℕ → AttrBuffer → Except ServerFault (List (Bytes × StatRecord) × AttrBuffer)
  | 0, buffer => .ok ([], buffer)
  | count + 1, buffer => do
    let (entry, buffer) ← readNameEntry version mapping start buffer
    let (entries, buffer) ← readNameEntries version mapping start count buffer
    return (entry :: entries, buffer)

end Osns
