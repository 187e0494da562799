import Mathlib.Algebra.Group.Int.Defs
import Osns.Library.Buffer
import Osns.Model.Word

/-! The names of `name.c` with their index, and their order. There is no result where the behaviour of
the source is undefined: reads outside the memory, and products of `int` values that overflow. -/

namespace Osns

/-- A `struct name_s`: the memory from its start on, its length and its index. -/
structure Name where
  name : Bytes
  len : ℕ
  index : ℕ
  deriving DecidableEq, Repr

def Name.bytes (n : Name) : Bytes := n.name.take n.len

def nameindexRoot1 : ℕ := 92
def nameindexRoot2 : ℕ := 8464
def nameindexRoot3 : ℕ := 778688
def nameindexRoot4 : ℕ := 71639296
def nameindexRoot5 : ℕ := 6590815232

/-- Letters are counted from the space on, as an `unsigned char`. -/
def letter (b : UInt8) : ℕ := (b - 32).toNat

/-- The fourth root is still an `int`, and so is its product with the second letter; the fifth is not. -/
def calculateNameindexHlp : Bytes → Option ℕ
  | [first, second, third, fourth, fifth, sixth] =>
    if letter second * nameindexRoot4 < 2 ^ 31 then
      some (letter first * nameindexRoot5 + letter second * nameindexRoot4 +
        letter third * nameindexRoot3 + letter fourth * nameindexRoot2 +
        letter fifth * nameindexRoot1 + letter sixth)
    else none
  | _ => none

def calculateNameindex (n : Name) : Option Name := do
  let count := if 5 < n.len then 6 else n.len
  let letters ← Buffer.load n.name 0 count
  let buffer ← Buffer.store (List.replicate 6 32) 0 letters
  let index ← calculateNameindexHlp buffer
  return { n with index }

/-- The C function, on memory from the start of the strings on. -/
def strcmp : Bytes → Bytes → Option ℤ
  | x :: xs, y :: ys =>
    if x = y then if x = 0 then some 0 else strcmp xs ys else some (x.toNat - y.toNat)
  | _, _ => none

def compareNames (a b : Name) : Option ℤ :=
  if a.index = b.index then
    if 6 < b.len then
      if 6 < a.len then strcmp (a.name.drop 6) (b.name.drop 6) else some (-1)
    else if b.len = 6 then some (if 6 < a.len then 1 else 0)
    else some 0
  else some (if b.index < a.index then 1 else -1)

end Osns
