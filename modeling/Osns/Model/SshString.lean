import Osns.Model.Packet

/-! Strings in received messages, after `ssh-string.c`. -/

namespace Osns

/-- A `struct ssh_string_s` that points into a buffer: its length, and the bytes from its start to
the end of the buffer. -/
structure SshString where
  len : ℕ
  ptr : Option Bytes
  deriving DecidableEq, Repr

/-- All bytes of a string, which may claim more than the buffer has. -/
def SshString.bytes (s : SshString) : Except Fault Bytes :=
  inBounds (s.ptr.bind fun ptr => Buffer.load ptr 0 s.len)

/-- The bytes of a string; one without bytes may lack a pointer. -/
def SshString.text (s : SshString) : Except Fault Bytes := if s.len = 0 then return [] else s.bytes

/-- `compare_ssh_string` with a C string. -/
def SshString.compareC (s : SshString) (text : Bytes) : Except Fault Bool :=
  if s.len = text.length then do
    let bytes ← s.text
    return bytes = text
  else return false

def SshString.compare (s t : SshString) : Except Fault Bool :=
  if s.len = t.len then do
    let text ← t.text
    s.compareC text
  else return false

def readSshString (buffer : Bytes) : ℕ × SshString :=
  if 4 ≤ buffer.length then
    let len := getUint32 buffer
    if u32 (4 + len) ≤ buffer.length then (u32 (4 + len), { len, ptr := some (buffer.drop 4) })
    else (0, { len, ptr := none })
  else (0, { len := 0, ptr := none })

/-- A string as `write_ssh_string` stores it. -/
def sshString (bytes : Bytes) : Bytes := storeUint32 bytes.length ++ bytes

@[simp] theorem length_sshString (bytes : Bytes) : (sshString bytes).length = 4 + bytes.length := by
  simp [sshString]

theorem getUint32_sshString {bytes rest : Bytes} (h : bytes.length < 2 ^ 32) :
    getUint32 (sshString bytes ++ rest) = bytes.length := by
  rw [sshString, List.append_assoc, getUint32_store, u32_of_lt h]

theorem drop_four_sshString (bytes rest : Bytes) : (sshString bytes ++ rest).drop 4 = bytes ++ rest := by
  rw [sshString, List.append_assoc]
  exact List.drop_left' (length_storeUint32 _)

theorem readSshString_sshString (bytes rest : Bytes) (h : 4 + bytes.length < 2 ^ 32) :
    readSshString (sshString bytes ++ rest) =
      (4 + bytes.length, { len := bytes.length, ptr := some (bytes ++ rest) }) := by
  have hget : getUint32 (sshString bytes ++ rest) = bytes.length := getUint32_sshString (by omega)
  have hlen : (sshString bytes ++ rest).length = 4 + bytes.length + rest.length := by
    rw [List.length_append, length_sshString]
  simp only [readSshString, hget, drop_four_sshString, u32_of_lt h, hlen]
  rw [if_pos (by omega), if_pos (by omega)]

theorem SshString.bytes_append (bytes rest : Bytes) :
    SshString.bytes { len := bytes.length, ptr := some (bytes ++ rest) } = .ok bytes := by
  have hload := Buffer.load_append [] bytes rest rfl rfl
  simp only [List.nil_append, List.length_nil] at hload
  simp [SshString.bytes, hload]

end Osns
