import Osns.Model.MsgReader

/-! Reading into a given string and writing one, after `read_ssh_string` and `write_ssh_string` of
`ssh-string.c`. -/

namespace Osns

/-- `read_ssh_string` into a string that may have room for data of its own, its `size`; such a string
keeps its value. -/
def readSshStringInto (size : ℕ) (s : SshString) (avail : Bytes) (n : ℕ) :
    Except Fault (ℕ × SshString) :=
  if size = 0 then readSshStringSized avail n else return (0, s)

/-- What `write_ssh_string` writes, by its type: 's' a string, 'c' a C string without its final zero,
'l' a length that may be missing. -/
inductive StringArg
  | s (string : SshString)
  | c (text : Bytes)
  | l (len : Option ℕ)
  | other
  deriving DecidableEq, Repr

/-- The data may be missing, then only the length is stored. How large the buffer is does not matter. -/
def copySshStringHlpr (buffer : Bytes) (pos : ℕ) (data : Option Bytes) (len : ℕ) :
    Except Fault Bytes := do
  let buffer ← inBounds (Buffer.store buffer pos (storeUint32 len))
  match data with
  | none => return buffer
  | some data => do
    let bytes ← inBounds (Buffer.load data 0 len)
    inBounds (Buffer.store buffer (pos + 4) bytes)

/-- The number of bytes that is returned, with and without a buffer. -/
def StringArg.count : StringArg → ℕ
  | .s string => u32 (4 + string.len)
  | .c text => u32 (4 + u32 text.length)
  | .l _ => 4
  | .other => 0

def StringArg.copy (buffer : Bytes) (pos : ℕ) : StringArg → Except Fault Bytes
  | .s string => copySshStringHlpr buffer pos string.ptr string.len
  | .c text => copySshStringHlpr buffer pos (some text) (u32 text.length)
  | .l len => inBounds (Buffer.store buffer pos (storeUint32 (len.getD 0)))
  | .other => return buffer

/-- The buffer is all memory of the caller from some address on, and `pos` the place in it that is
written to. The size of the buffer is handed on and never looked at. -/
def writeSshString (buffer : Option Bytes) (pos _size : ℕ) (arg : StringArg) :
    Except Fault (ℕ × Option Bytes) :=
  match buffer with
  | none => return (arg.count, none)
  | some buffer => do
    let buffer ← arg.copy buffer pos
    return (arg.count, some buffer)

/-- The bytes that are stored for a string with all its data. -/
theorem copySshStringHlpr_append (as free cs bytes tail : Bytes)
    (hfree : free.length = 4 + bytes.length) :
    copySshStringHlpr (as ++ free ++ cs) as.length (some (bytes ++ tail)) bytes.length =
      .ok (as ++ sshString bytes ++ cs) := by
  obtain ⟨front, back, rfl, hfront⟩ : ∃ front back, free = front ++ back ∧ front.length = 4 :=
    ⟨free.take 4, free.drop 4, (List.take_append_drop 4 free).symm,
      List.length_take_of_le (by omega)⟩
  rw [List.length_append, hfront] at hfree
  have hheader := Buffer.store_append as front (back ++ cs) (storeUint32 bytes.length) rfl
    (by rw [length_storeUint32, hfront])
  have hload := Buffer.load_append [] bytes tail rfl rfl
  have hpos : as.length + 4 = (as ++ storeUint32 bytes.length).length := by
    rw [List.length_append, length_storeUint32]
  have hdata := Buffer.store_append _ back cs bytes hpos (by omega)
  simp only [List.nil_append, List.length_nil] at hload
  simp only [List.append_assoc] at hheader hdata ⊢
  simp [copySshStringHlpr, hheader, hload, hdata, sshString]

end Osns
