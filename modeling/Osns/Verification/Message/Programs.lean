import Osns.Verification.Message.Reader
import Osns.Verification.Message.Writer

/-! A sequence of writes is run on a buffer without data to get its size, and then on a buffer of that
size. -/

namespace Osns

open List Result MsgBuffer

/-! ## What is written -/

def MsgItem.encode : MsgItem → Bytes
  | .byte b => [b]
  | .uint32 value => storeUint32 value.toNat
  | .uint64 value => storeUint64 value.toNat
  | .bytes bs => bs
  | .string text => sshString text
  | .mpint mp => mpi mp

def MsgItem.value : MsgItem → MsgValue
  | .byte b => .byte b
  | .uint32 value => .uint32 value.toNat
  | .uint64 value => .uint64 value.toNat
  | .bytes bs => .bytes bs
  | .string text => .string text
  | .mpint mp => .mpint mp

namespace MsgProgram

def encode : MsgProgram → Bytes
  | .done => []
  | .item i next => i.encode ++ next.encode
  | .nested body next => sshString body.encode ++ next.encode

def values : MsgProgram → List MsgValue
  | .done => []
  | .item i next => i.value :: next.values
  | .nested body next => .header body.encode.length :: (body.values ++ next.values)

/-- Both runs agree: the second one has no error, ends where the first one did and changes nothing
behind, and all values are read back from its buffer. -/
structure Agrees (lib : MsgLib) (p : MsgProgram) (memory : ℕ → UInt8) : Prop where
  error : (p.run (.setMsgBuffer memory (p.run .init).pos)).error = none
  pos : (p.run (.setMsgBuffer memory (p.run .init).pos)).pos = (p.run .init).pos
  outside : ∀ i, (p.run .init).pos ≤ i →
    (p.run (.setMsgBuffer memory (p.run .init).pos)).data i = memory i
  values : ∃ mb, (p.run (.setMsgBuffer memory (p.run .init).pos)).reader.msgReads lib p.reads
    = .ok (p.values.map some, mb)

end MsgProgram

/-! ## The first run -/

def MsgItem.counted : MsgItem → ℕ
  | .mpint mp => 4 + getNbytes mp.natAbs
  | i => i.encode.length

def MsgProgram.counted : MsgProgram → ℕ
  | .done => 0
  | .item i next => i.counted + next.counted
  | .nested body next => 4 + body.counted + next.counted

/-- A buffer without data. -/
structure MsgBuffer.Dry (mb : MsgBuffer) : Prop where
  null : mb.null = true
  writing : mb.writing = false

namespace MsgBuffer

theorem Dry.skip {mb : MsgBuffer} (h : mb.Dry) (n : ℕ) : (mb.skip n).Dry := ⟨h.null, h.writing⟩

theorem Dry.write {mb : MsgBuffer} (h : mb.Dry) (room : Bool) (xs : Bytes) :
    mb.write room xs = mb.skip xs.length := by
  rw [MsgBuffer.write, h.writing, if_neg Bool.false_ne_true]

end MsgBuffer

/-- Every integer takes the bytes that are counted for it. -/
def MsgItem.Counted : MsgItem → Prop
  | .mpint mp => ByteCounted mp
  | _ => True

def MsgProgram.Counted : MsgProgram → Prop
  | .done => True
  | .item i next => i.Counted ∧ next.Counted
  | .nested body next => body.Counted ∧ next.Counted

/-- What an item needs: a string does not fit when it fills the buffer. -/
def MsgItem.need : MsgItem → ℕ
  | .string text => (sshString text).length + 1
  | i => i.encode.length

/-- From a position on everything finds room in a buffer of this size. The length of a nested string must
not fill the buffer either. -/
def MsgProgram.HasRoom (size : ℕ) : ℕ → MsgProgram → Prop
  | _, .done => True
  | pos, .item i next => pos + i.need ≤ size ∧ next.HasRoom size (pos + i.encode.length)
  | pos, .nested body next =>
    pos + 4 < size ∧ body.HasRoom size (pos + 4) ∧
      next.HasRoom size (pos + (sshString body.encode).length)

instance : (i : MsgItem) → Decidable i.Counted
  | .byte _ | .uint32 _ | .uint64 _ | .bytes _ | .string _ => inferInstanceAs (Decidable True)
  | .mpint mp => inferInstanceAs (Decidable (ByteCounted mp))

instance MsgProgram.decidableCounted : (p : MsgProgram) → Decidable p.Counted
  | .done => inferInstanceAs (Decidable True)
  | .item _ next =>
    have := MsgProgram.decidableCounted next
    inferInstanceAs (Decidable (_ ∧ _))
  | .nested body next =>
    have := MsgProgram.decidableCounted body
    have := MsgProgram.decidableCounted next
    inferInstanceAs (Decidable (_ ∧ _))

instance MsgProgram.decidableHasRoom (size : ℕ) :
    (pos : ℕ) → (p : MsgProgram) → Decidable (p.HasRoom size pos)
  | _, .done => inferInstanceAs (Decidable True)
  | pos, .item i next =>
    have := MsgProgram.decidableHasRoom size (pos + i.encode.length) next
    inferInstanceAs (Decidable (_ ∧ _))
  | pos, .nested body next =>
    have := MsgProgram.decidableHasRoom size (pos + 4) body
    have := MsgProgram.decidableHasRoom size (pos + (sshString body.encode).length) next
    inferInstanceAs (Decidable (_ ∧ _ ∧ _))

theorem MsgItem.length_le_need (i : MsgItem) : i.encode.length ≤ i.need := by
  cases i with
  | string text => exact Nat.le_succ _
  | _ => exact Nat.le_refl _

namespace MsgProgram

theorem HasRoom.le {size pos : ℕ} {p : MsgProgram} (h : p.HasRoom size pos) (hpos : pos ≤ size) :
    pos + p.encode.length ≤ size := by
  induction p generalizing pos with
  | done => exact hpos
  | item i next ih =>
    have hneed := i.length_le_need
    have hnext := ih h.2 (by have := h.1; omega)
    rw [encode, length_append]
    omega
  | nested body next ihbody ihnext =>
    obtain ⟨hroom, hbody, hnext⟩ := h
    have hinner := ihbody hbody (by omega)
    rw [length_sshString] at hnext
    have houter := ihnext hnext (by omega)
    rw [encode, length_append, length_sshString]
    omega

end MsgProgram

section

variable {memory : ℕ → UInt8} {size : ℕ} {xs : Bytes} {mb : MsgBuffer} {p : MsgProgram} {i : MsgItem}

open MsgBuffer (Sound)

end

section

variable {memory : ℕ → UInt8} {size : ℕ} {xs : Bytes} {mb : MsgBuffer} {p : MsgProgram}

open MsgBuffer (Sound)

end

/-! ## Reading back -/

/-- The reader is in front of these bytes, or there are none and it has an error. -/
def MsgReader.Near (mb : MsgReader) (rest : Bytes) : Prop :=
  mb.At rest ∨ rest = [] ∧ mb.error.isSome

section

variable {lib : MsgLib} {mb : MsgReader} {tail : Bytes} {p : MsgProgram} {i : MsgItem}

theorem MsgReader.Near.at (h : mb.Near tail) (hpos : 0 < tail.length) : mb.At tail :=
  h.resolve_right fun hnil => length_pos_iff.mp hpos hnil.1

variable {mb' : MsgReader}

end

/-! ## Both runs -/

end Osns
