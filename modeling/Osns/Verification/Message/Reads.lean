import Osns.Library.Transition
import Osns.Verification.Message.Reader

/-! Sequences of reads from a message buffer: where they stay inside it, and when they stop. -/

namespace Osns.MsgReader

open List Option Result Transition Buffer

variable (lib : MsgLib)

def next (mb : MsgReader) (op : MsgRead) : Option MsgReader :=
  (mb.msgRead lib op).toOption.map Prod.snd

/-- What a read may do: it stays inside the buffer, a read that fails leaves an error, and behind an
error nothing changes. -/
structure Keeps (mb : MsgReader) (value : Option MsgValue) (mb' : MsgReader) : Prop where
  data : mb'.data = mb.data
  len : mb'.len = mb.len
  pos : mb'.pos ≤ mb.len
  failed : value = none → mb'.error.isSome
  stays : mb.error.isSome → mb'.pos = mb.pos ∧ mb'.error.isSome

/-- No byte outside the buffer is read, neither by the read nor by a caller who uses all of the string
that it returns. -/
def ReadRight (mb : MsgReader) (op : MsgRead) : Prop :=
  ∃ value mb', mb.msgRead lib op = .ok (value, mb') ∧ mb.Keeps value mb'

/-- The length that stands at the position. -/
def announced (mb : MsgReader) : ℕ := getUint32 (mb.data.drop mb.pos)

/-- There is a length at the position, and as many bytes behind it. -/
def Complete (mb : MsgReader) : Prop :=
  mb.pos + 4 ≤ mb.len ∧ mb.pos + (4 + mb.announced) ≤ mb.len

/-- Where a read is right. Numbers and strings have to be in the buffer as a whole. Behind an error an
integer is still scanned, which must fail then, and a point is still skipped: that goes unnoticed when the
length of the caller is too small, or when its end wraps around to the position. -/
def Ready (mb : MsgReader) : MsgRead → Prop
  | .byte | .bytes _ => True
  | .uint32 | .header => mb.error.isSome ∨ mb.pos + 4 ≤ mb.len
  | .uint64 => mb.error.isSome ∨ mb.pos + 8 ≤ mb.len
  | .string => mb.error.isSome ∨ mb.Complete
  | .mpint plen =>
    mb.Complete ∧ (mb.error.isSome →
      (lib.mpiScan (mb.data.drop mb.pos) (plen.getD (mb.len - mb.pos))).toOption = some none)
  | .mpoint plen =>
    if 4 < mb.len - mb.pos then
      (∃ n ∈ plen, n < u32 (mb.announced + 4)) ∨
        u32 (mb.pos + (4 + mb.announced)) ≤ mb.len ∧
          (mb.pos + (4 + mb.announced) ≤ mb.len ∨ lib.malloc mb.announced = false) ∧
          (mb.error.isSome → u32 (mb.pos + (4 + mb.announced)) = mb.pos)
    else mb.error.isSome

instance (mb : MsgReader) : Decidable mb.Complete := inferInstanceAs (Decidable (_ ∧ _))

instance (mb : MsgReader) : (op : MsgRead) → Decidable (mb.Ready lib op)
  | .byte | .bytes _ => inferInstanceAs (Decidable True)
  | .uint32 | .header | .uint64 | .string => inferInstanceAs (Decidable (_ ∨ _))
  | .mpint _ => inferInstanceAs (Decidable (_ ∧ _))
  | .mpoint none | .mpoint (some _) => by
    unfold Ready
    infer_instance

/-- The position is inside a buffer that has all the bytes it claims. -/
structure Inside (mb : MsgReader) : Prop where
  data : mb.data.length = mb.len
  fits : mb.len < 2 ^ 32
  pos : mb.pos ≤ mb.len

variable {lib} {mb mb' : MsgReader} {op : MsgRead} {value : Option MsgValue}

theorem Keeps.inside (hkeeps : mb.Keeps value mb') (h : mb.Inside) : mb'.Inside where
  data := by rw [hkeeps.data, hkeeps.len, h.data]
  fits := by rw [hkeeps.len]; exact h.fits
  pos := by rw [hkeeps.len]; exact hkeeps.pos

/-! ## What a result says -/

theorem readRight_iff {pos : ℕ} {error : Option BufferError}
    (h : mb.msgRead lib op = .ok (value, { mb with pos, error })) :
    mb.ReadRight lib op ↔ pos ≤ mb.len ∧ (value = none → error.isSome) ∧
      (mb.error.isSome → pos = mb.pos ∧ error.isSome) := by
  constructor
  · rintro ⟨value', mb', hread, hkeeps⟩
    rw [h] at hread
    cases hread
    exact ⟨hkeeps.pos, hkeeps.failed, hkeeps.stays⟩
  · rintro ⟨hpos, hfailed, hstays⟩
    exact ⟨_, _, h, rfl, rfl, hpos, hfailed, hstays⟩

section

variable (h : mb.Inside)

include h

theorem Inside.load {n : ℕ} (hn : mb.pos + n ≤ mb.len) :
    load mb.data mb.pos n = some ((mb.data.drop mb.pos).take n) :=
  load_of_le (by rwa [h.data])

theorem Inside.u32Sub : u32Sub mb.len mb.pos = mb.len - mb.pos :=
  u32Sub_of_le h.fits h.pos

theorem Inside.readSshStringSized (hfour : mb.pos + 4 ≤ mb.len) :
    readSshStringSized (mb.data.drop mb.pos) (mb.len - mb.pos) =
      .ok (if u32 (4 + mb.announced) ≤ mb.len - mb.pos then
          (u32 (4 + mb.announced),
            { len := mb.announced, ptr := some ((mb.data.drop mb.pos).drop 4) })
        else (0, { len := mb.announced, ptr := none })) :=
  readSshStringSized_of_le (Nat.le_of_eq (by rw [length_drop, h.data])) (by omega)

end

/-! ## Integers and points -/

section

variable (h : mb.Inside)

include h

end

/-! ## Whole sequences -/

end Osns.MsgReader
