import Mathlib.Data.UInt
import Osns.Library.Wire
import Osns.Model.Sftp.Send

/-! The requests of an SFTP client against the message formats of the protocol versions: which calls
arrive as what they are. -/

namespace Osns

open List Option Output Result SftpCall Wire

open Wire (Field Value)

/-! ## Message formats -/

/-- The fields behind the id of a request, in the draft of the version. An attribute block and the
data of an extension are what is left of the message. -/
def requestFormat (version : SftpVersion) (type : UInt8) : Option (List Field) :=
  match type.toNat, version with
  | 3, .v03 | 3, .v04 => some [.string, .word 4, .rest]
  | 3, .v05 | 3, .v06 => some [.string, .word 4, .word 4, .rest]
  | 5, _ => some [.string, .word 8, .word 4]
  | 6, _ => some [.string, .word 8, .string]
  | 7, .v03 | 8, .v03 | 17, .v03 => some [.string]
  | 7, _ | 8, _ | 17, _ => some [.string, .word 4]
  | 9, _ | 10, _ | 14, _ | 200, _ => some [.string, .rest]
  | 4, _ | 11, _ | 12, _ | 13, _ | 15, _ | 19, _ => some [.string]
  | 16, .v06 => some [.string, .rest]
  | 16, _ => some [.string]
  | 18, .v03 | 18, .v04 => some [.string, .string]
  | 18, _ => some [.string, .string, .word 4]
  | 20, .v06 => none
  | 20, _ => some [.string, .string]
  | 21, .v06 => some [.string, .string, .word 1]
  | 22, .v06 => some [.string, .word 8, .word 8, .word 4]
  | 23, .v06 => some [.string, .word 8, .word 8]
  | n, _ => if 210 ≤ n then some [.rest] else none

/-- An attribute block that announces no attributes; from version 4 on it has a type. -/
def emptyAttrs : SftpVersion → Bytes
  | .v03 => [0, 0, 0, 0]
  | .v04 | .v05 | .v06 => [0, 0, 0, 0, 1]

def openAttrs (version : SftpVersion) (attrs : Bytes) : Bytes :=
  if attrs = [] then emptyAttrs version else attrs

def wordValue (word : UInt32) : Value := .number word.toNat
variable (long : UInt64)

def longValue : Value := .number long.toNat

section

variable (version : SftpVersion)

/-- The message that asks for a call: its type and its fields. Flags are those of the protocol. -/
def SftpCall.request : SftpCall → Option (UInt8 × List Value)
  | .openFile path posixFlags attrs =>
    match version with
    | .v03 | .v04 =>
      some (3, [.bytes path, wordValue (getSftpOpenmodeV03 posixFlags),
        .bytes (openAttrs version attrs)])
    | .v05 | .v06 =>
      some (3, [.bytes path, wordValue (getSftpOpenmode posixFlags).1,
        wordValue (getSftpOpenmode posixFlags).2, .bytes (openAttrs version attrs)])
  | .opendir path => some (11, [.bytes path])
  | .readdir handle => some (12, [.bytes handle])
  | .close handle => some (4, [.bytes handle])
  | .read handle offset size => some (5, [.bytes handle, longValue offset, longValue size])
  | .write handle offset data => some (6, [.bytes handle, longValue offset, .bytes data])
  | .stat path valid =>
    match version with
    | .v03 => some (17, [.bytes path])
    | .v04 | .v05 | .v06 => some (17, [.bytes path, wordValue valid])
  | .lstat path valid =>
    match version with
    | .v03 => some (7, [.bytes path])
    | .v04 | .v05 | .v06 => some (7, [.bytes path, wordValue valid])
  | .fstat handle valid =>
    match version with
    | .v03 => some (8, [.bytes handle])
    | .v04 | .v05 | .v06 => some (8, [.bytes handle, wordValue valid])
  | .setstat path attrs => some (9, [.bytes path, .bytes attrs])
  | .fsetstat handle attrs => some (10, [.bytes handle, .bytes attrs])
  | .mkdir path attrs => some (14, [.bytes path, .bytes attrs])
  | .rmdir path => some (15, [.bytes path])
  | .remove path => some (13, [.bytes path])
  | .rename path target posixFlags =>
    match version with
    | .v03 | .v04 => some (18, [.bytes path, .bytes target])
    | .v05 | .v06 =>
      some (18, [.bytes path, .bytes target, wordValue (getSftpRenameflags posixFlags)])
  | .readlink path => some (19, [.bytes path])
  | .symlink path target =>
    match version with
    | .v03 | .v04 | .v05 => some (20, [.bytes path, .bytes target])
    | .v06 => some (21, [.bytes path, .bytes target, .number 1])
  | .block handle offset size type =>
    match version with
    | .v03 | .v04 | .v05 => none
    | .v06 =>
      some (22, [.bytes handle, longValue offset, longValue size,
        wordValue (getSftpLockflagsFlock type)])
  | .unblock handle offset size =>
    match version with
    | .v03 | .v04 | .v05 => none
    | .v06 => some (23, [.bytes handle, longValue offset, longValue size])
  | .realpath path =>
    match version with
    | .v03 | .v04 | .v05 => some (16, [.bytes path])
    | .v06 => some (16, [.bytes path, .bytes [3]])
  | .extension name data => some (200, [.bytes name, .bytes data])
  | .custom nr data => some (nr, [.bytes data])

def SftpCall.bufferSize : SftpCall → ℕ
  | .openFile path _ attrs =>
    match version with
    | .v03 | .v04 => 22 + path.length + attrs.length
    | .v05 | .v06 => 26 + path.length + attrs.length
  | .opendir s | .readdir s | .close s | .rmdir s | .remove s | .readlink s => 13 + s.length
  | .read handle _ _ => 25 + handle.length
  | .write handle _ data => 25 + handle.length + data.length
  | .stat s _ | .lstat s _ | .fstat s _ =>
    match version with
    | .v03 => 13 + s.length
    | .v04 | .v05 | .v06 => 17 + s.length
  | .setstat s attrs | .fsetstat s attrs | .mkdir s attrs | .extension s attrs =>
    13 + s.length + attrs.length
  | .rename path target _ =>
    match version with
    | .v03 | .v04 => 17 + path.length + target.length
    | .v05 | .v06 => 21 + path.length + target.length
  | .symlink path target =>
    match version with
    | .v03 | .v04 | .v05 => 17 + path.length + target.length
    | .v06 => 18 + path.length + target.length
  | .block handle _ _ _ =>
    match version with
    | .v03 | .v04 | .v05 => 0
    | .v06 => 33 + handle.length
  | .unblock handle _ _ =>
    match version with
    | .v03 | .v04 | .v05 => 0
    | .v06 => 29 + handle.length
  | .realpath path =>
    match version with
    | .v03 | .v04 | .v05 => 13 + path.length
    | .v06 => 14 + path.length
  | .custom _ data => 9 + data.length

end

def SftpCall.stored (wValid : UInt32) : SftpCall → SftpCall
  | .openFile path posixFlags attrs =>
    .openFile path posixFlags (if attrs = [] then [0, 0, 0, 0, 1] else attrs)
  | .read handle offset size => .read handle offset (size % 2 ^ 32)
  | .stat path _ => .stat path wValid
  | .lstat path _ => .lstat path wValid
  | .fstat handle _ => .fstat handle wValid
  | call => call

def requestMessage (type : UInt8) (id : ℕ) (body : Bytes) : Bytes :=
  storeUint32 (5 + body.length) ++ type :: (storeUint32 id ++ body)

def SftpCall.message (version : SftpVersion) (wValid id : UInt32) (call : SftpCall) :
    Option Bytes :=
  ((call.stored wValid).request version).map fun request =>
    requestMessage request.1 id.toNat
      (encode ((requestFormat version request.1).getD []) request.2)

/-! ## What the senders store -/

variable {size length : ℕ} {type : UInt8} {id : UInt32} {stores : List Bytes} {body message : Bytes}
  {fields : List Field} {values : List Value}

@[simp] theorem length_write_longValue (width : ℕ) (long : UInt64) :
    (write (.word width) (longValue long)).length = width :=
  BigEndian.length_encode _ _

@[simp] theorem write_one : write (.word 1) (.number 1) = [1] := by decide

variable {s attrs path target : Bytes} {posixFlags : UInt32} {handle : Bytes} {offset : UInt64} {n base : ℕ}
  {words : List UInt32}

theorem length_requestMessage (n : ℕ) : (requestMessage type n body).length = 9 + body.length := by
  simp [requestMessage]
  omega

variable {version : SftpVersion} {wValid : UInt32} {call : SftpCall}

@[simp] theorem suits_string : Wire.Suits .string (.bytes s) ↔ s.length < 2 ^ 32 := Iff.rfl

@[simp] theorem suits_rest (s : Bytes) : Wire.Suits .rest (.bytes s) := trivial

@[simp] theorem suits_number {width : ℕ} : Wire.Suits (.word width) (.number n) ↔ n < 256 ^ width := Iff.rfl

@[simp] theorem suits_wordValue (word : UInt32) : Wire.Suits (.word 4) (wordValue word) := word.toNat_lt

@[simp] theorem suits_longValue : Wire.Suits (.word 8) (longValue long) := long.toNat_lt

@[simp] theorem suits_long_mod : Wire.Suits (.word 4) (longValue (long % 2 ^ 32)) := by
  rw [longValue, UInt64.toNat_mod]
  exact Nat.mod_lt _ (by decide)

end Osns
