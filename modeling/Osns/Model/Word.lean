import Osns.Library.BigEndian

/-! Bytes, the arithmetic of C's unsigned types and the network byte order of `ssh-uint.c`. -/

namespace Osns

open BigEndian List

abbrev Bytes := List UInt8

/-- A value assigned to an `unsigned char`. -/
def u8 (n : ℕ) : ℕ := n % 2 ^ 8

/-- A value assigned to an `unsigned int`. -/
def u32 (n : ℕ) : ℕ := n % 2 ^ 32

/-- Subtraction of `unsigned int` values, which wraps around below zero. -/
def u32Sub (a b : ℕ) : ℕ := (a + 2 ^ 32 - b) % 2 ^ 32

variable {n a b : ℕ}

theorem u8_of_lt (h : n < 2 ^ 8) : u8 n = n := Nat.mod_eq_of_lt h

theorem u32_of_lt (h : n < 2 ^ 32) : u32 n = n := Nat.mod_eq_of_lt h

theorem u32_lt (n : ℕ) : u32 n < 2 ^ 32 := Nat.mod_lt _ (by decide)

theorem u32_le (n : ℕ) : u32 n ≤ n := Nat.mod_le _ _

theorem u32Sub_of_le (ha : a < 2 ^ 32) (h : b ≤ a) : u32Sub a b = a - b := by
  unfold u32Sub
  omega

theorem u32Sub_of_lt (hb : b < 2 ^ 32) (h : a < b) : u32Sub a b = 2 ^ 32 + a - b := by
  unfold u32Sub
  omega

variable (value : ℕ)

def storeUint32 : Bytes :=
  [UInt8.ofNat (value / 2 ^ 24), UInt8.ofNat (value / 2 ^ 16), UInt8.ofNat (value / 2 ^ 8),
    UInt8.ofNat value]

def storeUint64 : Bytes := storeUint32 (value / 2 ^ 32) ++ storeUint32 value

/-- The callers always hold four bytes; the last case is never reached by them. -/
def getUint32 : Bytes → ℕ
  | b0 :: b1 :: b2 :: b3 :: _ =>
    b0.toNat * 2 ^ 24 + b1.toNat * 2 ^ 16 + b2.toNat * 2 ^ 8 + b3.toNat
  | _ => 0

/-- The callers always hold eight bytes. -/
def getUint64 (bytes : Bytes) : ℕ := getUint32 bytes * 2 ^ 32 + getUint32 (bytes.drop 4)

@[simp] theorem length_storeUint32 : (storeUint32 value).length = 4 := rfl

theorem storeUint32_eq : storeUint32 value = encode 4 value := by
  simp [storeUint32, encode]

@[simp] theorem length_storeUint64 : (storeUint64 value).length = 8 := rfl

theorem storeUint64_eq : storeUint64 value = encode 8 value := by
  simp [storeUint64, storeUint32, encode, Nat.div_div_eq_div_mul]

theorem getUint32_eq {bs : Bytes} (h : bs.length = 4) (rest : Bytes) :
    getUint32 (bs ++ rest) = decode bs := by
  match bs, h with
  | [b0, b1, b2, b3], _ =>
    simp only [cons_append, nil_append, getUint32, decode, length_cons,
      length_nil]
    omega

theorem getUint32_store (rest : Bytes) : getUint32 (storeUint32 value ++ rest) = u32 value := by
  rw [getUint32_eq (length_storeUint32 value), storeUint32_eq, decode_encode]
  rfl

theorem getUint32_store_of_lt (h : n < 2 ^ 32) (rest : Bytes) :
    getUint32 (storeUint32 n ++ rest) = n := by
  rw [getUint32_store, u32_of_lt h]

theorem getUint32_storeUint32 : getUint32 (storeUint32 value) = u32 value := by
  have hget := getUint32_store value []
  rwa [append_nil] at hget

theorem drop_storeUint32 (n : ℕ) (rest : Bytes) : (storeUint32 n ++ rest).drop 4 = rest :=
  drop_left' (length_storeUint32 n)

theorem getUint64_store (rest : Bytes) :
    getUint64 (storeUint64 value ++ rest) = value % 2 ^ 64 := by
  have hhigh : getUint32 (storeUint64 value ++ rest) = u32 (value / 2 ^ 32) := by
    rw [storeUint64, append_assoc, getUint32_store]
  have hlow : getUint32 ((storeUint64 value ++ rest).drop 4) = u32 value := by
    rw [storeUint64, append_assoc, drop_storeUint32, getUint32_store]
  rw [getUint64, hhigh, hlow, u32, u32]
  omega

theorem getUint64_storeUint64 : getUint64 (storeUint64 value) = value % 2 ^ 64 := by
  have hget := getUint64_store value []
  rwa [append_nil] at hget

theorem getUint32_lt (bs : Bytes) : getUint32 bs < 2 ^ 32 := by
  match bs with
  | b0 :: b1 :: b2 :: b3 :: _ =>
    have h0 := b0.toNat_lt
    have h1 := b1.toNat_lt
    have h2 := b2.toNat_lt
    have h3 := b3.toNat_lt
    simp only [getUint32]
    omega
  | [] | [_] | [_, _] | [_, _, _] => simp [getUint32]

/-- Only the first four bytes matter. -/
theorem getUint32_take (hn : 4 ≤ n) (bs : Bytes) : getUint32 (bs.take n) = getUint32 bs := by
  obtain ⟨k, rfl⟩ := Nat.exists_eq_add_of_le' hn
  match bs with
  | _ :: _ :: _ :: _ :: _ => simp [getUint32]
  | [] | [_] | [_, _] | [_, _, _] => simp [getUint32]

theorem getUint32_append {bs : Bytes} (h : 4 ≤ bs.length) (more : Bytes) :
    getUint32 (bs ++ more) = getUint32 bs := by
  rw [← getUint32_take (Nat.le_refl 4), take_append_of_le_length h,
    getUint32_take (Nat.le_refl 4)]

end Osns
