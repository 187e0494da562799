import Osns.Library.Loop
import Osns.Model.Receive

/-! The lines that a server sends before its first packet, after `greeter.c`. -/

namespace Osns

/-! ## Versions -/

def isSpace (b : UInt8) : Bool := b = 32 ∨ (9 ≤ b ∧ b ≤ 13)

def isDigit (b : UInt8) : Bool := 48 ≤ b ∧ b ≤ 57

def decimal (digits : Bytes) : ℕ := digits.foldl (fun n b => 10 * n + (b.toNat - 48)) 0

def readSign : Bytes → ℤ × Bytes
  | 43 :: text => (1, text)
  | 45 :: text => (-1, text)
  | text => (1, text)

/-- Undefined for a number that is no `int`. -/
def atoi (text : Bytes) : Option ℤ :=
  let signed := readSign (text.dropWhile isSpace)
  let value := signed.1 * (decimal (signed.2.takeWhile isDigit) : ℤ)
  if -2147483648 ≤ value ∧ value ≤ 2147483647 then some value else none

/-- `remote_version_major` and `remote_version_minor`. -/
structure ProtocolVersion where
  major : ℕ
  minor : ℕ
  deriving DecidableEq, Repr

/-- "SSH-". -/
def greeterStart : Bytes := [83, 83, 72, 45]

/-- An `int` that is assigned to an `unsigned int`. -/
def toUnsigned (value : ℤ) : ℕ := (value % 4294967296).toNat

/-- What is behind the first '.', or zero without one. -/
def readMinor (tmp : Bytes) : Option ℤ :=
  if 46 ∈ tmp then atoi ((tmp.dropWhile (· ≠ 46)).drop 1) else some 0

/-- The value that is returned and the version. The version is what stands in front of the next '-'. -/
def readSshProtocolVersion (greeter : Bytes) : Option (ℤ × ProtocolVersion) :=
  let start := greeter.drop greeterStart.length
  if 45 ∈ start then do
    let tmp := start.takeWhile (· ≠ 45)
    let minor ← readMinor tmp
    let major ← atoi (tmp.takeWhile (· ≠ 46))
    return (major, { major := toUnsigned major, minor := toUnsigned minor })
  else return (-1, { major := 0, minor := 0 })

/-! ## Lines -/

def memmem (text : Bytes) : Bytes → Option ℕ
  | [] => none
  | b :: buffer =>
    if text.isPrefixOf (b :: buffer) then some 0 else (memmem text buffer).map (· + 1)

def termCrlf : Bytes := [13, 10]

/-- The read buffer of the socket, and the pieces that have not reached it yet. -/
structure GreeterState where
  rd : Bytes
  incoming : List Bytes
  deriving DecidableEq, Repr

/-- How the greeter ends: going on with packets, giving up without a version, closing the socket, or
with a number out of range. -/
inductive GreeterResult
  | session (greeter : Bytes) (version : ProtocolVersion) (left : GreeterState)
  | noVersion (greeter : Bytes) (left : GreeterState)
  | disconnect (errcode : Errno)
  | undefined
  deriving DecidableEq, Repr

/-- A line that starts with "SSH-" is saved and read. -/
def readGreeterLine (malloc : ℕ → Bool) (line : Bytes) (s : GreeterState) : GreeterResult :=
  if malloc line.length then
    match readSshProtocolVersion line with
    | none => .undefined
    | some (result, version) =>
      if result = -1 then .disconnect .eproto
      else if version.major = 0 then .noVersion line s
      else .session line version s
  else .disconnect .enomem

/-- One look at the buffer: without the end of a line there, more has to come before the connection
expires; a line ends at a zero byte, and one that does not start with "SSH-" is passed over. -/
def greeterPass (malloc : ℕ → Bool) (s : GreeterState) : Loop.Step GreeterState GreeterResult :=
  match memmem termCrlf s.rd with
  | none =>
    match s.incoming with
    | [] => .done (.disconnect .etimedout)
    | chunk :: incoming => .next { rd := s.rd ++ chunk, incoming }
  | some size =>
    if 253 < size then .done (.disconnect .eproto)
    else
      let line := (s.rd.take size).takeWhile (· ≠ 0)
      let s := { s with rd := s.rd.drop (size + 2) }
      if greeterStart.length < line.length ∧ line.take greeterStart.length = greeterStart then
        .done (readGreeterLine malloc line s)
      else .next s

/-- Every pass takes a piece or a line away. -/
def GreeterState.passes (s : GreeterState) : ℕ :=
  s.rd.length + s.incoming.flatten.length + s.incoming.length

def cbReadSocketSshGreeter (malloc : ℕ → Bool) (s : GreeterState) : Option GreeterResult :=
  Loop.run (greeterPass malloc) (s.passes + 1) s

end Osns
