import Osns.Model.Compare
import Osns.Model.Sftp.Attributes

/-! Lists of names between commas, after `lib/datatypes/ssh-namelist.c`. Names are without the zero at
their end. -/

namespace Osns

/-- `struct commalist_s`: its buffer, and how much of it is used. -/
structure Commalist where
  list : Bytes
  len : ℕ

/-- What the call returns, and the list behind it. -/
def addNameToCommalist (name : Bytes) (clist : Commalist) : Except Fault (ℕ × Commalist) := do
  let lenname := u32 name.length
  if clist.list.length < u32 (clist.len + lenname + 1) then return (0, clist)
  else
    let text := if clist.len = 0 then name.take lenname else comma :: name.take lenname
    let list ← inBounds (Buffer.store clist.list clist.len text)
    return (text.length, { list, len := clist.len + text.length })

def stringFoundCommalist (list name : Bytes) : Bool :=
  strstr ([comma] ++ list.take (u32 list.length) ++ [comma])
    (comma :: (name.take (u32 name.length) ++ [comma]))

/-- The loop at the label `finditem`, for the memory from `start` on: what the callback gets, and the
memory behind it. The comma is not taken off the number of bytes that are left. -/
def findItems : ℕ → ℕ → Bytes → Except ServerFault (List Bytes × Bytes)
  | 0, _, _ => .error .body
  | fuel + 1, left, memory => do
    let sep ← memchr comma left memory
    match sep with
    | none => return ([memory.take left], memory)
    | some i =>
      let cut := memory.set i 0
      let restored := cut.set i comma
      if 0 < left - i then
        let (items, rest) ← findItems fuel (left - i) (restored.drop (i + 1))
        return (cut.take i :: items, restored.take (i + 1) ++ rest)
      else return ([cut.take i], restored)

/-- A size below `2 ^ 31`, or 0 for a string that ends in a zero. Every pass moves `start`. -/
def parseSshCommalist (memory : Bytes) (size : ℕ) : Except ServerFault (List Bytes × Bytes) :=
  match if 0 < size then some size else memory.findIdx? (· = 0) with
  | some left => findItems (memory.length + 1) left memory
  | none => .error .body

end Osns
