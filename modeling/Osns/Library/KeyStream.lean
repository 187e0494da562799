import Mathlib.Data.Nat.Notation

/-! Ciphers that xor their data with a keystream addressed by byte position. -/

namespace KeyStream

/-- Xor of a byte string with the keystream from a position on. -/
def mask (stream : ℕ → UInt8) : ℕ → List UInt8 → List UInt8
  | _, [] => []
  | pos, b :: bs => (b ^^^ stream pos) :: mask stream (pos + 1) bs

variable (stream : ℕ → UInt8) (pos : ℕ)

@[simp] theorem length_mask (bs : List UInt8) : (mask stream pos bs).length = bs.length := by
  induction bs generalizing pos with
  | nil => rfl
  | cons b bs ih => simp [mask, ih]

/-- Masking twice from the same position gives the data back. -/
@[simp] theorem mask_mask (bs : List UInt8) : mask stream pos (mask stream pos bs) = bs := by
  induction bs generalizing pos with
  | nil => rfl
  | cons b bs ih => rw [mask, mask, ih, UInt8.xor_assoc, UInt8.xor_self, UInt8.xor_zero]

/-- The keystream runs on over a concatenation. -/
theorem mask_append (as bs : List UInt8) :
    mask stream pos (as ++ bs) = mask stream pos as ++ mask stream (pos + as.length) bs := by
  induction as generalizing pos with
  | nil => rfl
  | cons a as ih =>
    simp only [List.cons_append, mask, ih, List.length_cons]
    congr 3
    omega

end KeyStream
