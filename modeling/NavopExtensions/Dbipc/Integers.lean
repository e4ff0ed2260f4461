import NavopExtensions.Dbipc.Cell

/-!
# Integers on the wire

An integer leaves as an exact decimal and comes back as the nearest `float64`. It survives exactly
when it has at most 53 significant bits (`integers_on_the_wire`); other integers come back as a
neighbour, and numbers that are negative or out of range for their type are mostly taken for others
instead of being rejected.
-/

namespace Navop
namespace Dbipc

open Float64

variable {go : GoLib}

/-- A value is sent as a cell, and the cell is sent back as a parameter. -/
def sendBack (go : GoLib) (value : Value) : Option Arg :=
  (decodeCell go (toCell go value)).bind (paramFromWire go)

/-- A parameter with a type and a number. -/
def numberParam (go : GoLib) (type : String) (x : ℚ) : Option Arg :=
  (decodeNumber x).bind fun value => paramFromWire go ⟨.string type, value⟩

/-! ### The number that comes back -/

theorem decodeNumber_eq {x : ℚ} {e : ℕ} (he : e ≤ 64) (h : |x| ≤ 2 ^ e) :
    decodeNumber x = some (.number (nearest x)) := by
  have hsmall : |nearest x| < 2 ^ 1024 := by
    refine (abs_nearest_le h).trans_lt ?_
    exact pow_lt_pow_right₀ (by norm_num) (by omega)
  rw [decodeNumber, ofRat, if_pos hsmall]
  rfl

theorem abs_toInt_le (n : Int64) : |(n.toInt : ℚ)| ≤ 2 ^ 63 := by
  have hlow := n.le_toInt
  have hhigh := n.toInt_lt
  exact_mod_cast abs_le.mpr ⟨hlow, hhigh.le⟩

theorem abs_toNat_le (n : UInt64) : |((n.toNat : ℤ) : ℚ)| ≤ 2 ^ 64 := by
  have hhigh := n.toNat_lt
  rw [Int.cast_natCast, Nat.abs_cast]
  exact_mod_cast hhigh.le

theorem paramFromWire_i64 {k : ℤ} :
    paramFromWire go ⟨.string "i64", .number k⟩ = some (.int64 (toInt64 go k)) := by
  have hlower : toLower "i64" = "i64" := by decide
  simp [paramFromWire, hlower, asInt64]

theorem paramFromWire_u64 {k : ℤ} :
    paramFromWire go ⟨.string "u64", .number k⟩ = some (uint64Arg (toUint64 go k)) := by
  have hlower : toLower "u64" = "u64" := by decide
  simp [paramFromWire, hlower, asUint64Param]

theorem sendBack_int (n : Int64) :
    sendBack go (.int n) = some (.int64 (toInt64 go (nearest n.toInt))) := by
  obtain ⟨k, hk⟩ := exists_int_nearest n.toInt
  simp only [sendBack, toCell, decodeCell, decodeNumber_eq (by norm_num) (abs_toInt_le n)]
  rw [hk]
  exact paramFromWire_i64

theorem sendBack_uint (n : UInt64) :
    sendBack go (.uint n) = some (uint64Arg (toUint64 go (nearest (n.toNat : ℤ)))) := by
  obtain ⟨k, hk⟩ := exists_int_nearest n.toNat
  simp only [sendBack, toCell, decodeCell, decodeNumber_eq (by norm_num) (abs_toNat_le n)]
  rw [hk]
  exact paramFromWire_u64

/-! ### The conversion -/

theorem toInt64_intCast {k : ℤ} (hlow : -2 ^ 63 ≤ k) (hhigh : k < 2 ^ 63) :
    toInt64 go k = Int64.ofInt k := by
  have hrange : (-2 ^ 63 : ℚ) ≤ k ∧ (k : ℚ) < 2 ^ 63 := by exact_mod_cast And.intro hlow hhigh
  rw [toInt64, if_pos hrange, Int.floor_intCast]

theorem toUint64_intCast {k : ℤ} (hlow : 0 ≤ k) (hhigh : k < 2 ^ 64) :
    toUint64 go k = UInt64.ofNat k.toNat := by
  have hrange : (0 : ℚ) ≤ k ∧ (k : ℚ) < 2 ^ 64 := by exact_mod_cast And.intro hlow hhigh
  rw [toUint64, if_pos hrange, Int.floor_intCast]

/-- An `int64` survives if it has at most 53 significant bits, or if it is rounded to `2 ^ 63`, which
the platform takes for it. -/
theorem toInt64_nearest_iff (n : Int64) :
    toInt64 go (nearest n.toInt) = n ↔
      Fits n.toInt ∨ (nearest n.toInt = 2 ^ 63 ∧ go.int64OutOfRange (2 ^ 63) = n) := by
  obtain ⟨k, hk⟩ := exists_int_nearest n.toInt
  have hbound : |(k : ℚ)| ≤ 2 ^ 63 := hk ▸ abs_nearest_le (abs_toInt_le n)
  obtain ⟨hlow, hhigh⟩ : -2 ^ 63 ≤ k ∧ k ≤ 2 ^ 63 := abs_le.mp (by exact_mod_cast hbound)
  rw [← nearest_eq_self_iff, hk]
  -- below 2^63 the conversion gives the nearest float itself, and that is the number only if the number
  -- is a float
  by_cases hrange : k < 2 ^ 63
  · have htop : (k : ℚ) ≠ 2 ^ 63 := by exact_mod_cast hrange.ne
    rw [toInt64_intCast hlow hrange, or_iff_left fun h => htop h.1]
    constructor
    · rintro rfl
      rw [Int64.toInt_ofInt_of_le (by omega) (by omega)]
    · intro hkept
      rw [Int.cast_inj.mp hkept, Int64.ofInt_toInt]
  -- the number is rounded up to 2^63, which is out of range
  · obtain rfl : k = 2 ^ 63 := le_antisymm hhigh (not_lt.mp hrange)
    have hcast : (((2 : ℤ) ^ 63 : ℤ) : ℚ) = 2 ^ 63 := by norm_num
    have hkept : ((2 : ℚ) ^ 63) ≠ n.toInt := by
      have hlt := n.toInt_lt
      intro heq
      have heq' : (2 : ℤ) ^ 63 = n.toInt := by exact_mod_cast heq
      omega
    rw [hcast, or_iff_right hkept, and_iff_right rfl, toInt64, if_neg (by norm_num)]

theorem uint64Arg_injective : Function.Injective uint64Arg := by
  intro m n h
  have hm := m.toNat_lt
  have hn := n.toNat_lt
  unfold uint64Arg at h
  split at h
  · next hsmall =>
    split at h
    · next hsmall' =>
      have heq := congrArg Int64.toInt (Arg.int64.inj h)
      rw [Int64.toInt_ofInt_of_le (by omega) (by omega),
        Int64.toInt_ofInt_of_le (by omega) (by omega)] at heq
      exact UInt64.toNat_inj.mp (by omega)
    · exact absurd h (by simp)
  · split at h
    · exact absurd h (by simp)
    · exact UInt64.toNat_inj.mp (Nat.repr_injective (Arg.string.inj h))

/-- A `uint64` survives if it has at most 53 significant bits, or if it is rounded to `2 ^ 64`, which
the platform takes for it. -/
theorem toUint64_nearest_iff (n : UInt64) :
    toUint64 go (nearest (n.toNat : ℤ)) = n ↔
      Fits n.toNat ∨ (nearest (n.toNat : ℤ) = 2 ^ 64 ∧ go.uint64OutOfRange (2 ^ 64) = n) := by
  obtain ⟨k, hk⟩ := exists_int_nearest n.toNat
  have hbound : |(k : ℚ)| ≤ 2 ^ 64 := hk ▸ abs_nearest_le (abs_toNat_le n)
  have hnonneg : (0 : ℚ) ≤ k := hk ▸ nearest_nonneg (by exact_mod_cast Nat.zero_le n.toNat)
  have hlow : 0 ≤ k := by exact_mod_cast hnonneg
  have hhigh : k ≤ 2 ^ 64 := (abs_le.mp (by exact_mod_cast hbound)).2
  rw [← nearest_eq_self_iff, hk]
  by_cases hrange : k < 2 ^ 64
  · have htop : (k : ℚ) ≠ 2 ^ 64 := by exact_mod_cast hrange.ne
    rw [toUint64_intCast hlow hrange, or_iff_left fun h => htop h.1, Int.cast_inj]
    constructor
    · rintro rfl
      have hsize : k.toNat < UInt64.size := by
        unfold UInt64.size
        omega
      rw [UInt64.toNat_ofNat_of_lt' hsize]
      omega
    · rintro rfl
      rw [Int.toNat_natCast, UInt64.ofNat_toNat]
  · obtain rfl : k = 2 ^ 64 := le_antisymm hhigh (not_lt.mp hrange)
    have hcast : (((2 : ℤ) ^ 64 : ℤ) : ℚ) = 2 ^ 64 := by norm_num
    have hkept : ((2 : ℚ) ^ 64) ≠ ((n.toNat : ℤ) : ℚ) := by
      have hlt := n.toNat_lt
      intro heq
      have heq' : (2 : ℤ) ^ 64 = (n.toNat : ℤ) := by exact_mod_cast heq
      omega
    rw [hcast, or_iff_right hkept, and_iff_right rfl, toUint64, if_neg (by norm_num)]

/-! ### Numbers out of range -/

/-- A number in an `i64` cell that is out of range is rejected if it is too large for a float. -/
theorem numberParam_i64_eq_none {x : ℚ} (h : x < -2 ^ 63 ∨ 2 ^ 63 - 1 < x) :
    numberParam go "i64" x = none ↔ ofRat x = none := by
  have hlarge : 2 ^ 52 ≤ |x| := by
    obtain hlow | hhigh := h
    · rw [abs_of_neg (by linarith)]
      linarith
    · rw [abs_of_pos (by linarith)]
      linarith
  obtain ⟨k, hk⟩ := exists_int_nearest_of_le hlarge
  rw [numberParam, decodeNumber, ofRat, hk]
  split
  · simp [paramFromWire_i64]
  · simp

/-- A number in a `u64` cell is rejected if it is too large for a float, or becomes none that is
whole. -/
theorem numberParam_u64_eq_none (x : ℚ) :
    numberParam go "u64" x = none ↔ ofRat x = none ∨ ∀ k : ℤ, nearest x ≠ k := by
  rw [numberParam, decodeNumber, ofRat]
  split
  · by_cases hwhole : ∃ k : ℤ, nearest x = k
    · obtain ⟨k, hk⟩ := hwhole
      rw [hk]
      simp [paramFromWire_u64]
    · have hlower : toLower "u64" = "u64" := by decide
      have hfloor : (⌊nearest x⌋ : ℚ) ≠ nearest x := fun heq => hwhole ⟨_, heq.symm⟩
      have hnone : ∀ k : ℤ, nearest x ≠ k := fun k hk => hwhole ⟨k, hk⟩
      simp [paramFromWire, hlower, asUint64Param, hfloor, hnone]
  · simp

/-- **Integers on the wire.** An `int64` that is sent as a cell and back as a parameter is itself
exactly when it has at most 53 significant bits, or is rounded to `2 ^ 63` and the platform takes that
for it; so is a `uint64`, which comes as its decimal text if it exceeds an `int64`, with `2 ^ 64`.
A number that is negative or out of range for its type is rejected exactly when it is too large for a
`float64`, or, if it can be small, when the nearest `float64` is not an integer. -/
theorem integers_on_the_wire (go : GoLib) :
    (∀ n : Int64, sendBack go (.int n) = some (.int64 n) ↔
      Fits n.toInt ∨ (nearest n.toInt = 2 ^ 63 ∧ go.int64OutOfRange (2 ^ 63) = n)) ∧
    (∀ n : UInt64, sendBack go (.uint n) = some (uint64Arg n) ↔
      Fits n.toNat ∨ (nearest (n.toNat : ℤ) = 2 ^ 64 ∧ go.uint64OutOfRange (2 ^ 64) = n)) ∧
    (∀ x : ℚ, x < -2 ^ 63 ∨ 2 ^ 63 - 1 < x →
      (numberParam go "i64" x = none ↔ ofRat x = none)) ∧
    (∀ x : ℚ, x < 0 ∨ 2 ^ 64 - 1 < x →
      (numberParam go "u64" x = none ↔ ofRat x = none ∨ ∀ k : ℤ, nearest x ≠ k)) := by
  refine ⟨fun n => ?_, fun n => ?_, fun x hx => numberParam_i64_eq_none hx,
    fun x _ => numberParam_u64_eq_none x⟩
  · rw [sendBack_int, ← toInt64_nearest_iff, Option.some_inj, Arg.int64.injEq]
  · rw [sendBack_uint, ← toUint64_nearest_iff, Option.some_inj, uint64Arg_injective.eq_iff]

/-- Go's library on x86-64, where a conversion to `int64` that is out of range has its own value, and a
negative float becomes a `uint64` through an `int64`. No text is read. -/
def amd64 : GoLib where
  parseFloat _ := none
  decodeJson _ := none
  encodeJson _ := none
  base64 _ := ""
  unbase64 _ := none
  sprint _ := ""
  int64OutOfRange _ := Int64.minValue
  uint64OutOfRange x :=
    if -2 ^ 63 ≤ x ∧ x < 0 then (Int64.ofInt ⌊x⌋).toUInt64 else 9223372036854775808

theorem integers_on_the_wire_amd64 :
    (sendBack amd64 (.int 9007199254740992) = some (.int64 9007199254740992) ↔
      Fits 9007199254740992 ∨ (nearest 9007199254740992 = 2 ^ 63 ∧
        Int64.minValue = 9007199254740992)) ∧
    (numberParam amd64 "i64" (2 ^ 63) = none ↔ ofRat (2 ^ 63) = none) :=
  ⟨(integers_on_the_wire amd64).1 9007199254740992,
    (integers_on_the_wire amd64).2.2.1 (2 ^ 63) (.inr (by norm_num))⟩

/-- `2 ^ 53 + 1` comes back as `2 ^ 53`, and `-1` is taken for the largest `uint64`. -/
theorem neighbouring_key :
    sendBack amd64 (.int 9007199254740993) = some (.int64 9007199254740992) ∧
      numberParam amd64 "u64" (-1) = some (.string "18446744073709551615") := by
  constructor
  · have hnearest : nearest (Int64.toInt 9007199254740993) = (9007199254740992 : ℤ) := by
      decide +kernel
    rw [sendBack_int, hnearest, toInt64_intCast (by norm_num) (by norm_num)]
    rfl
  · have hdecoded : decodeNumber (-1) = some (.number (-1 : ℤ)) := by
      rw [decodeNumber_eq (Nat.zero_le 64) (by norm_num)]
      have hnearest : nearest (-1) = (-1 : ℤ) := by decide +kernel
      rw [hnearest]
    have hvalue : toUint64 amd64 (-1 : ℤ) = 18446744073709551615 := by decide +kernel
    rw [numberParam, hdecoded, Option.bind_some, paramFromWire_u64, hvalue]
    rfl

end Dbipc
end Navop
