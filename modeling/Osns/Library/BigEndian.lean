import Mathlib.Algebra.Group.Nat.Defs

/-! Fixed-width big-endian byte strings and the numbers they denote. -/

namespace BigEndian

/-- The low `width` bytes of a number, most significant byte first. -/
def encode : ℕ → ℕ → List UInt8
  | 0, _ => []
  | width + 1, n => UInt8.ofNat (n / 256 ^ width) :: encode width n

/-- The number a byte string denotes, most significant byte first. -/
def decode : List UInt8 → ℕ
  | [] => 0
  | b :: bs => b.toNat * 256 ^ bs.length + decode bs

@[simp] theorem length_encode (width n : ℕ) : (encode width n).length = width := by
  induction width with
  | zero => rfl
  | succ width ih => simp [encode, ih]

/-- Decoding an encoded number keeps exactly the bytes that fit the width. -/
theorem decode_encode (width n : ℕ) : decode (encode width n) = n % 256 ^ width := by
  induction width with
  | zero => simp [encode, decode, Nat.mod_one]
  | succ width ih =>
    have hbyte : (UInt8.ofNat (n / 256 ^ width)).toNat = n / 256 ^ width % 256 := UInt8.toNat_ofNat'
    rw [encode, decode, length_encode, ih, hbyte, Nat.mod_pow_succ, Nat.add_comm, Nat.mul_comm]

theorem decode_lt (bs : List UInt8) : decode bs < 256 ^ bs.length := by
  induction bs with
  | nil => simp [decode]
  | cons b bs ih =>
    have hb : b.toNat < 256 := b.toNat_lt
    have htop : (b.toNat + 1) * 256 ^ bs.length ≤ 256 * 256 ^ bs.length := Nat.mul_le_mul_right _ hb
    rw [decode, List.length_cons, Nat.pow_succ']
    rw [Nat.add_one_mul] at htop
    omega

/-- What stands above the width is not seen. -/
theorem encode_mul_add (width k n : ℕ) : encode width (k * 256 ^ width + n) = encode width n := by
  induction width generalizing k with
  | zero => rfl
  | succ width ih =>
    have hk : k * 256 ^ (width + 1) = k * 256 * 256 ^ width := by
      rw [Nat.pow_succ', Nat.mul_assoc]
    have hbyte : UInt8.ofNat ((k * 256 * 256 ^ width + n) / 256 ^ width)
        = UInt8.ofNat (n / 256 ^ width) := by
      rw [Nat.add_comm, Nat.add_mul_div_right _ _ (Nat.pow_pos (by decide))]
      exact UInt8.toNat_inj.mp (by simp [UInt8.toNat_ofNat'])
    rw [hk, encode, encode, hbyte, ih]

/-- A byte string is the encoding of the number it denotes. -/
theorem encode_decode (bs : List UInt8) : encode bs.length (decode bs) = bs := by
  induction bs with
  | nil => rfl
  | cons b bs ih =>
    have hbyte : (b.toNat * 256 ^ bs.length + decode bs) / 256 ^ bs.length = b.toNat := by
      rw [Nat.mul_comm, Nat.mul_add_div (Nat.pow_pos (by decide)), Nat.div_eq_of_lt (decode_lt bs),
        Nat.add_zero]
    rw [decode, List.length_cons, encode, hbyte, encode_mul_add, ih, UInt8.ofNat_toNat]

end BigEndian
