import Mathlib

/-!
# Strings of bytes

Numbers as lists of bytes, the most significant one in front: `toBe` writes a number in a given
number of bytes, leaving out what does not fit, and `ofBe` reads a list of any length. Reading what
was written gives the number back up to the modulus (`ofBe_toBe`).

Keyed hashing for message authentication is the construction of RFC 2104, over any hash function with
blocks of any size. The pads have the length of the block (`length_blockKey`), so that mixing one into a
key is mixing its byte into every byte of the key (`xor_replicate`).
-/

namespace BigEndian

/-- A number in `width` bytes. -/
def toBe : ℕ → ℕ → List UInt8
  | 0, _ => []
  | width + 1, n => UInt8.ofNat (n / 256 ^ width) :: toBe width n

/-- The number of a list of bytes. -/
def ofBe : List UInt8 → ℕ
  | [] => 0
  | byte :: bytes => byte.toNat * 256 ^ bytes.length + ofBe bytes

@[simp] theorem length_toBe (width n : ℕ) : (toBe width n).length = width := by
  induction width with
  | zero => rfl
  | succ width ih => rw [toBe, List.length_cons, ih]

theorem ofBe_toBe (width n : ℕ) : ofBe (toBe width n) = n % 256 ^ width := by
  induction width with
  | zero =>
    rw [pow_zero, Nat.mod_one]
    rfl
  | succ width ih =>
    -- the first byte is the digit above the others
    have hdigit : (UInt8.ofNat (n / 256 ^ width)).toNat = n / 256 ^ width % 256 := rfl
    rw [toBe, ofBe, hdigit, length_toBe, ih, Nat.mod_pow_succ, Nat.mul_comm, Nat.add_comm]

theorem ofBe_toBe_of_lt {width n : ℕ} (h : n < 256 ^ width) : ofBe (toBe width n) = n := by
  rw [ofBe_toBe, Nat.mod_eq_of_lt h]

theorem ofBe_lt (bytes : List UInt8) : ofBe bytes < 256 ^ bytes.length := by
  induction bytes with
  | nil => exact Nat.one_pos
  | cons byte bytes ih =>
    have hbyte : byte.toNat + 1 ≤ 256 := byte.toNat_lt
    calc ofBe (byte :: bytes) < byte.toNat * 256 ^ bytes.length + 256 ^ bytes.length :=
        Nat.add_lt_add_left ih _
      _ = (byte.toNat + 1) * 256 ^ bytes.length := (Nat.succ_mul _ _).symm
      _ ≤ 256 * 256 ^ bytes.length := Nat.mul_le_mul_right _ hbyte
      _ = 256 ^ (byte :: bytes).length := by rw [List.length_cons, Nat.pow_succ, Nat.mul_comm]

end BigEndian

namespace Hmac

/-- Two strings of bytes, byte by byte. -/
def xor (xs ys : List UInt8) : List UInt8 := List.zipWith (· ^^^ ·) xs ys

/-- A key of the length of a block: one that is longer is hashed first, one that is shorter is filled
up with zeros. -/
def blockKey (hash : List UInt8 → List UInt8) (blockLen : ℕ) (key : List UInt8) : List UInt8 :=
  let key := if blockLen < key.length then hash key else key
  key ++ List.replicate (blockLen - key.length) 0

/-- `H(K XOR opad, H(K XOR ipad, text))`. -/
def hmac (hash : List UInt8 → List UInt8) (blockLen : ℕ) (key text : List UInt8) : List UInt8 :=
  let block := blockKey hash blockLen key
  let ipad := List.replicate blockLen 0x36
  let opad := List.replicate blockLen 0x5C
  hash (xor block opad ++ hash (xor block ipad ++ text))

theorem length_blockKey {hash : List UInt8 → List UInt8} {blockLen : ℕ}
    (hhash : ∀ text, (hash text).length ≤ blockLen) (key : List UInt8) :
    (blockKey hash blockLen key).length = blockLen := by
  unfold blockKey
  rw [List.length_append, List.length_replicate]
  split
  · exact Nat.add_sub_of_le (hhash key)
  · next h => exact Nat.add_sub_of_le (Nat.not_lt.1 h)

theorem xor_replicate (xs : List UInt8) (byte : UInt8) :
    xor xs (List.replicate xs.length byte) = xs.map (· ^^^ byte) := by
  induction xs with
  | nil => rfl
  | cons x xs ih =>
    rw [List.length_cons, List.replicate_succ, xor, List.zipWith_cons_cons, List.map_cons]
    exact congrArg _ ih

end Hmac
