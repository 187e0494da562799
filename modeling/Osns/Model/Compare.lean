import Mathlib.Data.List.Infix
import Osns.Model.SshString

/-! Choosing algorithms from two KEXINIT messages, after `compare.c`. -/

namespace Osns

/-- The `SSH_ALGO_TYPE` constants. -/
inductive AlgoType
  | kex
  | hostkey
  | cipherC2s
  | cipherS2c
  | hmacC2s
  | hmacS2c
  | compressC2s
  | compressS2c
  | langC2s
  | langS2c
  deriving DecidableEq, Repr

/-- The types in the order of their numbers, which is the order of the lists in a message. -/
def AlgoType.all : List AlgoType :=
  [.kex, .hostkey, .cipherC2s, .cipherS2c, .hmacC2s, .hmacS2c, .compressC2s, .compressS2c,
    .langC2s, .langS2c]

/-- Language tags may be ignored. -/
def AlgoType.optional : AlgoType → Bool
  | .langC2s | .langS2c => true
  | _ => false

/-- An entry of the local table, `struct algo_list_s`. -/
structure Algo (π : Type) where
  type : AlgoType
  sshname : Bytes
  ptr : π

/-! ## C strings -/

def comma : UInt8 := 44

/-- The characters in front of the terminating zero. -/
def cString (buffer : Bytes) : Bytes := buffer.takeWhile (· ≠ 0)

def strchr (s : Bytes) (c : UInt8) : Option Bytes :=
  match s.dropWhile (· ≠ c) with
  | [] => none
  | found => some found

def strstr (haystack needle : Bytes) : Bool := needle <:+: haystack

/-! ## The best guess -/

/-- The name buffer keeps its zeros when a name does not fit. -/
def copyName (size : ℕ) (name : Bytes) : Bytes := if name.length < size then name else []

/-- The loop at the label `findname` over the names of the client. `cName` starts with the comma in
front of a name; `strchr` finds no comma only in a list with a zero byte. -/
def findName (listS : Bytes) (size : ℕ) : ℕ → Bytes → Except Fault Bytes
  | 0, _ => .error .overrun
  | fuel + 1, cName =>
    match strchr (cName.drop 1) comma with
    | none => .error .overrun
    | some cSep =>
      let name := (cName.drop 1).take (cName.length - 1 - cSep.length)
      if strstr listS (comma :: (name ++ [comma])) then .ok (copyName size name)
      else if cSep.length ≤ 1 then .ok []
      else findName listS size fuel cSep

/-- Comparing the first names of both lists, then all names of the client. -/
def compareLists (listC listS : Bytes) (size : ℕ) : Except Fault Bytes :=
  match strchr (listC.drop 1) comma, strchr (listS.drop 1) comma with
  | some cSep, some sSep =>
    if listC.take (listC.length - cSep.length) = listS.take (listS.length - sSep.length) then
      .ok (copyName size ((listC.drop 1).take (listC.length - 1 - cSep.length)))
    else findName listS size listC.length listC
  | _, _ => .error .overrun

def getBestGuess (clistC clistS : SshString) (size : ℕ) : Except Fault Bytes :=
  if clistC.len = 0 ∨ clistC.ptr = none ∨ clistS.len = 0 then .ok []
  else do
    let c ← clistC.bytes
    let s ← clistS.bytes
    compareLists (cString ([comma] ++ c ++ [comma])) (cString ([comma] ++ s ++ [comma])) size

/-! ## The comparison -/

variable {π : Type} (algos : List (Algo π))

def getIndexAlgo (name : Bytes) (type : AlgoType) : Option ℕ :=
  algos.findIdx? fun algo => algo.type = type ∧ algo.sshname = name

abbrev Chosen := AlgoType → Option ℕ

/-- What becomes of one type: no result when its list ends the comparison. -/
def chooseAlgo (type : AlgoType) (name : Bytes) : Option (Option ℕ) :=
  if name ≠ [] then (getIndexAlgo algos name type).map some
  else if type.optional then some none
  else none

def compareTypes (algos : List (Algo π)) :
    List AlgoType → Bytes → Bytes → Chosen → Except Fault (Bool × Chosen)
  | [], _, _, chosen => .ok (true, chosen)
  | type :: types, client, server, chosen =>
    let (lenClient, clistClient) := readSshString client
    let (lenServer, clistServer) := readSshString server
    if lenClient = 0 ∨ lenServer = 0 then .ok (false, chosen)
    else do
      let name ← getBestGuess clistClient clistServer 65
      match chooseAlgo algos type name with
      | none => .ok (false, Function.update chosen type none)
      | some index =>
        compareTypes algos types (client.drop lenClient) (server.drop lenServer)
          (Function.update chosen type index)

/-- `compare_msg_kexinit` with the stored messages of both sides: whether it succeeds, and the
chosen indices. -/
def compareMsgKexinit (kexinitClient kexinitServer : Option Bytes) (chosen : Chosen) :
    Except Fault (Bool × Chosen) :=
  match kexinitClient, kexinitServer with
  | some client, some server =>
    if client.length ≤ 63 ∨ server.length ≤ 63 then .ok (false, chosen)
    else compareTypes algos AlgoType.all (client.drop 17) (server.drop 17) chosen
  | _, _ => .ok (false, chosen)

end Osns
