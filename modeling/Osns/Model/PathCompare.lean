import Osns.Model.Fuse.Names
import Osns.Model.SftpServer.Path
import Osns.Model.SshString

/-! Comparing a path with the front of it, after `lib/fspath/compare.c`. -/

namespace Osns

/-- What a path is compared with, by the value of `type`: an SSH string or the window of another path,
or a C string. -/
inductive PathArgument
  | string (s : SshString)
  | chars (s : Bytes)

def PathArgument.window : PathArgument → Except Fault SshString
  | string s => .ok s
  | chars s => do
    let len ← strlen s
    return { len := u32 len, ptr := some s }

/-- The last byte of `b` is looked at also when there is none. `sub` is set behind every part that is the
same, from a null pointer on when there is no boundary; `address` is that of the path. -/
def compareWindows (a b : Bytes) (sub : Option SshString) (address : ℕ) :
    Except Fault (ℕ × Option SshString) :=
  if a.length = b.length then return (if a = b then 1 else 0, sub)
  else if b.length < a.length ∧ a.take b.length = b then do
    let last ← inBounds b[u32Sub b.length 1]?
    if last = slash then
      return (2, sub.map fun _ => ⟨a.length - (b.length - 1), some (a.drop (b.length - 1))⟩)
    else if a[b.length]? = some slash then
      return (2, sub.map fun _ => ⟨a.length - b.length, some (a.drop b.length)⟩)
    else return (0, sub.map fun _ => ⟨u32 (address + a.length), none⟩)
  else return (0, sub)

def fsPathCompare (path : SshString) (arg : PathArgument) (sub : Option SshString) (address : ℕ) :
    Except Fault (ℕ × Option SshString) := do
  let pre ← arg.window
  if path.ptr.isSome ∧ pre.ptr.isSome then do
    let a ← path.bytes
    let b ← pre.bytes
    compareWindows a b sub address
  else return (0, sub)

end Osns
