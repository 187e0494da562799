import Osns.Model.Compare

/-! Hosts and the patterns of a known_hosts file, after `_match_pattern_host` in `openssh-utils.c` and
`compare_host_openssh` in `openssh-localdb.c`. Strings are the bytes in front of the terminating
zero, and a pointer into a string is the rest of it. -/

namespace Osns

def question : UInt8 := 63

def asterisk : UInt8 := 42

def isWildcard (b : UInt8) : Bool := b = question ∨ b = asterisk

def isHostPattern (host : Bytes) : Bool := host.any isWildcard

/-- The rest of `pos` behind the first place where `strstr` finds `string`. -/
def behindStrstr (string : Bytes) : Bytes → Option Bytes
  | [] => if string = [] then some [] else none
  | b :: pos =>
    if string <+: b :: pos then some ((b :: pos).drop string.length) else behindStrstr string pos

/-- The loop at the label `findstring`. The search goes on behind the string that was found. -/
def findString (again : Bytes → Bool) (string : Bytes) : ℕ → Bytes → Bool
  | 0, _ => false
  | fuel + 1, pos =>
    match behindStrstr string pos with
    | none => false
    | some pos => again pos || findString again string fuel pos

/-- From the label `nextstring` on: wildcards that follow are skipped, whichever they are. -/
def matchAsterisk (again : Bytes → Bytes → Bool) (pos start : Bytes) : Bool :=
  let start := start.dropWhile isWildcard
  if start = [] then true
  else
    match start.dropWhile (!isWildcard ·) with
    | [] => start <:+ pos
    | help :: rest =>
      findString (again · (help :: rest)) (start.takeWhile (!isWildcard ·)) (pos.length + 1) pos

/-- The while loop, which ends with the host or with the wildcards, and the comparison behind it.
Every pass takes a wildcard from the pattern. -/
def matchWhile (again : Bytes → Bytes → Bool) : ℕ → Bytes → Bytes → Bool
  | 0, _, _ => false
  | fuel + 1, pos, start =>
    let bytes := start.takeWhile (!isWildcard ·)
    match start.dropWhile (!isWildcard ·) with
    | [] => pos ≠ [] ∧ start ≠ [] ∧ pos = start
    | wildcard :: start =>
      if pos = [] then false
      else if bytes <+: pos then
        let pos := pos.drop bytes.length
        if wildcard = question then
          match pos with
          -- Here `pos` has passed the end of the host, and every way on leads to -1.
          | [] => false
          | _ :: pos => if start = [] then pos = [] else matchWhile again fuel pos start
        else matchAsterisk again pos start
      else false

/-- `_match_pattern_host` with the number of levels that are left: 21 at level 0. -/
def matchPatternHost : ℕ → Bytes → Bytes → Bool
  | 0, _, _ => false
  | left + 1, host, hostpattern =>
    matchWhile (matchPatternHost left) (hostpattern.length + 1) host hostpattern

def compareHost (hostname ipv4 start : Bytes) : Bool :=
  if isHostPattern start then matchPatternHost 21 ipv4 start || matchPatternHost 21 hostname start
  else start = ipv4 || start = hostname

/-- The loop at the label `findhost`, with the specification up to the next comma. -/
def findHost (hostname ipv4 : Bytes) : Bytes → Bytes → Bool
  | start, [] => compareHost hostname ipv4 start
  | start, b :: bs =>
    if b = comma then compareHost hostname ipv4 start || findHost hostname ipv4 [] bs
    else findHost hostname ipv4 (start ++ [b]) bs

/-- Whether `compare_host_openssh` returns 0. -/
def compareHostOpenssh (host hostname ipv4 : Bytes) : Bool := findHost hostname ipv4 [] host

end Osns
