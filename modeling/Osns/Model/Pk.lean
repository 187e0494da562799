import Osns.Model.MsgReader

/-! Public key algorithms, keys and signatures in messages, after `pk-types.c` and
`pk-readwrite-public.c`, and the list of host key algorithms, after `keyx.c`. -/

namespace Osns

def ascii (text : List Char) : Bytes := text.map fun c => UInt8.ofNat c.toNat

inductive PkScheme
  | rsa
  | dss
  | ecc
  deriving DecidableEq, Repr

/-- The table `available_algos`. -/
inductive Pkalgo
  | rsa
  | dss
  | ed25519
  | rsaSha2256
  | rsaSha2512
  | rsaCert
  | dssCert
  | ed25519Cert
  deriving DecidableEq, Repr

namespace Pkalgo

def all : List Pkalgo :=
  [.rsa, .dss, .ed25519, .rsaSha2256, .rsaSha2512, .rsaCert, .dssCert, .ed25519Cert]

def scheme : Pkalgo → PkScheme
  | .rsa | .rsaSha2256 | .rsaSha2512 | .rsaCert => .rsa
  | .dss | .dssCert => .dss
  | .ed25519 | .ed25519Cert => .ecc

/-- The end of the names of certificates, `-cert-v01@openssh.com`. -/
def certSuffix : Bytes :=
  ascii ['-', 'c', 'e', 'r', 't', '-', 'v', '0', '1', '@', 'o', 'p', 'e', 'n', 's', 's', 'h', '.',
    'c', 'o', 'm']

def name : Pkalgo → Bytes
  | .rsa => ascii ['s', 's', 'h', '-', 'r', 's', 'a']
  | .dss => ascii ['s', 's', 'h', '-', 'd', 's', 's']
  | .ed25519 => ascii ['s', 's', 'h', '-', 'e', 'd', '2', '5', '5', '1', '9']
  | .rsaSha2256 => ascii ['r', 's', 'a', '-', 's', 'h', 'a', '2', '-', '2', '5', '6']
  | .rsaSha2512 => ascii ['r', 's', 'a', '-', 's', 'h', 'a', '2', '-', '5', '1', '2']
  | .rsaCert => ascii ['s', 's', 'h', '-', 'r', 's', 'a'] ++ certSuffix
  | .dssCert => ascii ['s', 's', 'h', '-', 'd', 's', 's'] ++ certSuffix
  | .ed25519Cert => ascii ['s', 's', 'h', '-', 'e', 'd', '2', '5', '5', '1', '9'] ++ certSuffix

def sshname : Pkalgo → Bytes
  | .rsaSha2256 | .rsaSha2512 => name .rsa
  | algo => algo.name

end Pkalgo

def getPkalgo (name : Bytes) : Option Pkalgo := Pkalgo.all.find? (·.name = name)

/-- `get_pkalgo_string` and `read_pkalgo_string`; the names are compared after the lengths. -/
def getPkalgoString (s : SshString) : Except Fault (Option Pkalgo) :=
  if Pkalgo.all.all (·.name.length ≠ s.len) then return none
  else do
    let name ← s.bytes
    return getPkalgo name

/-! ## Keys -/

/-- The public parameters of a scheme. -/
inductive KeyParam : PkScheme → Type
  | rsa (e n : ℤ) : KeyParam .rsa
  | dss (p q g y : ℤ) : KeyParam .dss
  | ecc (q : Bytes) : KeyParam .ecc

structure PublicKey where
  algo : Pkalgo
  param : KeyParam algo.scheme

/-- `PK_DATA_FORMAT_PARAM`, `PK_DATA_FORMAT_SSH` and `PK_DATA_FORMAT_SSH_STRING`. -/
inductive PkFormat
  | param
  | ssh
  | sshString
  deriving DecidableEq, Repr

/-- What `msg_write_pkalgo` writes. -/
def msgWritePkalgo (algo : Pkalgo) : Bytes := sshString algo.name

def KeyParam.write {scheme : PkScheme} : KeyParam scheme → Bytes
  | .rsa e n => mpi e ++ mpi n
  | .dss p q g y => mpi p ++ mpi q ++ mpi g ++ mpi y
  | .ecc q => sshString q

/-- What `msg_write_pkey` writes to a buffer with room for it. -/
def msgWritePkey (key : PublicKey) : PkFormat → Bytes
  | .param => key.param.write
  | .ssh => msgWritePkalgo key.algo ++ key.param.write
  | .sshString => sshString (msgWritePkalgo key.algo ++ key.param.write)

/-- What `msg_write_pksignature` writes for a pointer to a string with or without data. -/
def msgWritePksignature (algo : Pkalgo) (signature : Option (Option Bytes)) : Bytes :=
  match signature.join with
  | none => []
  | some signature => sshString (sshString algo.name ++ sshString signature)

/-- The parameters are none when one of them has not been read. -/
def KeyParam.read (lib : MsgLib) (mb : MsgReader) :
    (scheme : PkScheme) → Except Fault (Option (KeyParam scheme) × MsgReader)
  | .rsa => do
    let (e, mb) ← mb.msgReadSshMpint lib
    let (n, mb) ← mb.msgReadSshMpint lib
    return (do return .rsa (← e) (← n), mb)
  | .dss => do
    let (p, mb) ← mb.msgReadSshMpint lib
    let (q, mb) ← mb.msgReadSshMpint lib
    let (g, mb) ← mb.msgReadSshMpint lib
    let (y, mb) ← mb.msgReadSshMpint lib
    return (do return .dss (← p) (← q) (← g) (← y), mb)
  | .ecc => do
    let (q, mb) ← mb.msgReadSshMpoint lib
    return (q.map .ecc, mb)

/-- `msg_read_pkey` with `PK_DATA_FORMAT_SSH`, for a key of the given algorithm. -/
def msgReadPkeySsh (lib : MsgLib) (mb : MsgReader) (algo : Pkalgo) :
    Except Fault (Option PublicKey × MsgReader) :=
  if mb.error.isSome then return (none, mb)
  else do
    let (name, mb) ← mb.msgReadSshString .init
    let found ← getPkalgoString name
    if found = some algo then do
      let (param, mb) ← KeyParam.read lib mb algo.scheme
      return (param.map (⟨algo, ·⟩), mb)
    else do
      -- The reader for RSA keys copies a short name to its log line.
      if algo.scheme = .rsa ∧ 0 < name.len ∧ name.len < 65 then
        let _ ← name.bytes
      return (none, { mb with error := some .einval })

/-- The algorithm and the blob of a signature; the blob is only read from more than 8 bytes. -/
def msgReadPksignature (mb : MsgReader) : Except Fault (Option Pkalgo × SshString × MsgReader) := do
  let (outer, mb) ← mb.msgReadSshString .init
  if 8 < outer.len then do
    let inner := MsgReader.setMsgBufferString outer
    let (algo, inner) ← inner.msgReadSshString .init
    let (signature, _) ← inner.msgReadSshString .init
    let found ← getPkalgoString algo
    return (found, signature, mb)
  else return (none, .init, mb)

/-! ## Host key algorithms -/

/-- `struct ssh_pkalgo_s`, with two of its flags. The end marker of a table has the id zero. -/
structure PkalgoRow where
  id : ℕ
  pkc : Bool
  pka : Bool
  name : Bytes
  sshname : Bytes
  deriving DecidableEq, Repr

/-- `sizeof(struct ssh_pkalgo_s)` -/
def sizeofPkalgo : ℕ := 48

/-- What `build_hostkey_list` asks for: the configuration of a name, and whether
`lookup_hostkey_pk_list_server` finds a key. -/
structure HostkeySession where
  server : Bool
  certificates : Bool
  support : Bytes → ℤ
  present : PkalgoRow → Bool

variable (table : List PkalgoRow) (session : HostkeySession)

/-- A pointer into the table is an index. Distances are numbers of rows, and compared with bytes. -/
def getNextPkalgo : Option ℕ → Except Fault (Option ℕ)
  | none => return some 0
  | some tmp =>
    if 0 < tmp ∧ tmp < table.length * sizeofPkalgo ∧ tmp % sizeofPkalgo = 0 then do
      let row ← inBounds table[tmp + 1]?
      return if row.id = 0 then none else some (tmp + 1)
    else return none

def HostkeySession.takes (row : PkalgoRow) : Bool :=
  (if row.pkc then session.certificates else !row.pka || session.support row.sshname != -1)
    && (!session.server || session.present row)

/-- The rows of the list, in the loop from a pointer on. -/
def hostkeyRows : ℕ → Option ℕ → Except Fault (List PkalgoRow)
  | _, none => return []
  | 0, some _ => .error .failed
  | fuel + 1, some i => do
    let row ← inBounds table[i]?
    let rows ← hostkeyRows fuel (← getNextPkalgo table (some i))
    return if session.takes row then row :: rows else rows

def buildHostkeyList : Except Fault (List PkalgoRow) := do
  hostkeyRows table session table.length (← getNextPkalgo table none)

end Osns
