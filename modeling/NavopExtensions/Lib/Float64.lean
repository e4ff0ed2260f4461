import Mathlib

/-!
# Binary floating point numbers with 53 bits

The nearest number of the format to a rational one, ties to even, as IEEE 754 has it for its double
format. A finite number is given by its value; that zero has two signs is left out.

The main result is `nearest_eq_self_iff`: an integer is kept exactly when it has at most 53
significant bits.
-/

namespace Float64

/-- The exponent of the last bit of a number's mantissa. -/
def ulpExponent (x : ℚ) : ℤ := max (Int.log 2 |x| - 52) (-1074)

/-- The nearest integer, ties to even. -/
def roundEven (x : ℚ) : ℤ :=
  if x - ⌊x⌋ < 1 / 2 then ⌊x⌋
  else if 1 / 2 < x - ⌊x⌋ then ⌊x⌋ + 1
  else if ⌊x⌋ % 2 = 0 then ⌊x⌋
  else ⌊x⌋ + 1

/-- The nearest number with 53 bits, were there no largest one. -/
def nearest (x : ℚ) : ℚ := roundEven (x / 2 ^ ulpExponent x) * 2 ^ ulpExponent x

/-- The nearest number; `none` if it is too large. -/
def ofRat (x : ℚ) : Option ℚ := if |nearest x| < 2 ^ 1024 then some (nearest x) else none

/-- At most 53 significant bits. -/
def Fits (n : ℤ) : Prop := ∃ (m : ℤ) (e : ℕ), n = m * 2 ^ e ∧ |m| < 2 ^ 53

theorem roundEven_intCast (n : ℤ) : roundEven n = n := by
  have hfract : ((n : ℚ) - ⌊(n : ℚ)⌋) < 1 / 2 := by
    rw [Int.floor_intCast, sub_self]
    norm_num
  rw [roundEven, if_pos hfract, Int.floor_intCast]

/-- A nearest integer is less than one away, and on the same side. -/
theorem roundEven_eq (x : ℚ) : roundEven x = ⌊x⌋ ∨ roundEven x = ⌊x⌋ + 1 := by
  unfold roundEven
  split_ifs
  · exact .inl rfl
  · exact .inr rfl
  · exact .inl rfl
  · exact .inr rfl

theorem roundEven_le_of_le {x : ℚ} {k : ℤ} (h : x ≤ k) : roundEven x ≤ k := by
  have hfloor : ⌊x⌋ ≤ k := Int.floor_le_iff.mpr (h.trans_lt (by simp))
  obtain hround | hround := roundEven_eq x
  · rw [hround]
    exact hfloor
  · by_contra hlarge
    -- rounding up from `k` itself
    have hk : ⌊x⌋ = k := by omega
    have hx : x = k := le_antisymm h (hk ▸ Int.floor_le x)
    rw [hx, roundEven_intCast, Int.floor_intCast] at hround
    omega

theorem le_roundEven_of_le {x : ℚ} {k : ℤ} (h : k ≤ x) : k ≤ roundEven x := by
  have hfloor : k ≤ ⌊x⌋ := Int.le_floor.mpr h
  obtain hround | hround := roundEven_eq x
  · omega
  · omega

/-! ### The last bit -/

theorem ulpExponent_le {x : ℚ} (hx : x ≠ 0) {e : ℕ} (h : |x| < 2 ^ (e + 53)) :
    ulpExponent x ≤ e := by
  have hlog : Int.log 2 |x| < ((e + 53 : ℕ) : ℤ) := by
    rw [← Int.lt_zpow_iff_log_lt (by norm_num) (abs_pos.mpr hx)]
    exact_mod_cast h
  unfold ulpExponent
  omega

theorem le_ulpExponent {x : ℚ} {e : ℕ} (h : 2 ^ (e + 52) ≤ |x|) : (e : ℤ) ≤ ulpExponent x := by
  have hpos : 0 < |x| := lt_of_lt_of_le (by positivity) h
  have hlog : ((e + 52 : ℕ) : ℤ) ≤ Int.log 2 |x| := by
    rw [← Int.zpow_le_iff_le_log (by norm_num) hpos]
    exact_mod_cast h
  unfold ulpExponent
  omega

/-- A mantissa has 53 bits. -/
theorem abs_div_lt {x : ℚ} (hexp : -1074 < ulpExponent x) : |x| / 2 ^ ulpExponent x < 2 ^ 53 := by
  have hlog : Int.log 2 |x| = ulpExponent x + 52 := by
    unfold ulpExponent at hexp ⊢
    omega
  have hlt := Int.lt_zpow_succ_log_self (b := 2) (by norm_num) |x|
  rw [hlog] at hlt
  rw [div_lt_iff₀ (by positivity)]
  calc |x| < ((2 : ℕ) : ℚ) ^ (ulpExponent x + 52 + 1) := hlt
    _ = 2 ^ 53 * 2 ^ ulpExponent x := by
      rw [show ulpExponent x + 52 + 1 = ((53 : ℕ) : ℤ) + ulpExponent x by push_cast; ring,
        zpow_add₀ (by norm_num), zpow_natCast]
      norm_num

/-! ### Integers -/

/-- A number that is a multiple of its last bit is kept. -/
theorem nearest_eq_self {x : ℚ} {k : ℤ} (h : x / 2 ^ ulpExponent x = k) : nearest x = x := by
  rw [nearest, h, roundEven_intCast, ← h, div_mul_cancel₀ _ (by positivity)]

/-- A large number becomes an integer. -/
theorem exists_int_nearest_of_le {x : ℚ} (h : 2 ^ 52 ≤ |x|) : ∃ k : ℤ, nearest x = k := by
  have hexp : (0 : ℤ) ≤ ulpExponent x := le_ulpExponent (e := 0) (by simpa using h)
  obtain ⟨e, he⟩ := Int.eq_ofNat_of_zero_le hexp
  refine ⟨roundEven (x / 2 ^ ulpExponent x) * 2 ^ e, ?_⟩
  rw [nearest, he]
  push_cast
  rw [zpow_natCast]

theorem div_zpow_of_nonpos {e : ℤ} (he : e ≤ 0) (n : ℤ) :
    ∃ k : ℤ, (n : ℚ) / 2 ^ e = k := by
  obtain ⟨d, hd⟩ := Int.eq_ofNat_of_zero_le (Int.neg_nonneg_of_nonpos he)
  refine ⟨n * 2 ^ d, ?_⟩
  rw [div_eq_mul_inv, ← zpow_neg, hd]
  push_cast
  rw [zpow_natCast]

/-- The double nearest to an integer is an integer, however large it is. -/
theorem exists_int_nearest (n : ℤ) : ∃ k : ℤ, nearest n = k := by
  by_cases hlarge : (2 : ℚ) ^ 52 ≤ |(n : ℚ)|
  · exact exists_int_nearest_of_le hlarge
  · by_cases hzero : (n : ℚ) = 0
    · exact ⟨0, by simp [nearest, hzero, roundEven]⟩
    · have hexp : ulpExponent n ≤ (0 : ℕ) := by
        refine ulpExponent_le hzero (lt_trans (not_le.mp hlarge) ?_)
        norm_num
      obtain ⟨k, hk⟩ := div_zpow_of_nonpos hexp n
      exact ⟨n, nearest_eq_self hk⟩

/-- **An integer is kept exactly when it has at most 53 significant bits.** -/
theorem nearest_eq_self_iff (n : ℤ) : nearest n = n ↔ Fits n := by
  constructor
  · intro hkept
    -- on a grid of whole numbers every one is its own, and on a coarser one the number is a multiple
    by_cases hexp : ulpExponent n ≤ 0
    · -- below `2 ^ 53`
      refine ⟨n, 0, by simp, ?_⟩
      by_contra hlarge
      have hcast : (2 : ℚ) ^ (1 + 52) ≤ |(n : ℚ)| := by exact_mod_cast not_lt.mp hlarge
      have hle : ((1 : ℕ) : ℤ) ≤ ulpExponent n := le_ulpExponent hcast
      omega
    · obtain ⟨e, he⟩ := Int.eq_ofNat_of_zero_le (le_of_lt (not_le.mp hexp))
      have hmantissa := abs_div_lt (x := (n : ℚ)) (by omega)
      have hn : (n : ℚ) = roundEven (n / 2 ^ ulpExponent n) * 2 ^ e := by
        conv_lhs => rw [← hkept]
        rw [nearest, he, zpow_natCast]
      refine ⟨roundEven (n / 2 ^ ulpExponent n), e, by exact_mod_cast hn, ?_⟩
      have habs : |(n : ℚ)| = |(roundEven (n / 2 ^ ulpExponent n) : ℚ)| * 2 ^ e := by
        rw [← abs_of_pos (by positivity : (0 : ℚ) < 2 ^ e), ← abs_mul, ← hn]
      rw [he, zpow_natCast, div_lt_iff₀ (by positivity), habs] at hmantissa
      exact_mod_cast lt_of_mul_lt_mul_right hmantissa (by positivity)
  · rintro ⟨m, e, rfl, hm⟩
    by_cases hzero : m = 0
    · simp [hzero, nearest, roundEven]
    -- a mantissa below `2 ^ 53` leaves the grid at the exponent or finer
    · have hsmall : |((m * 2 ^ e : ℤ) : ℚ)| < 2 ^ (e + 53) := by
        push_cast
        rw [abs_mul, abs_of_pos (by positivity : (0 : ℚ) < 2 ^ e), pow_add, mul_comm]
        refine mul_lt_mul_of_pos_left ?_ (by positivity)
        exact_mod_cast hm
      have hne : ((m * 2 ^ e : ℤ) : ℚ) ≠ 0 := by
        push_cast
        exact mul_ne_zero (by exact_mod_cast hzero) (by positivity)
      have hexp := ulpExponent_le hne hsmall
      obtain ⟨k, hk⟩ := div_zpow_of_nonpos (Int.sub_nonpos_of_le hexp) m
      refine nearest_eq_self (k := k) ?_
      rw [← hk, zpow_sub₀ (by norm_num), zpow_natCast]
      push_cast
      rw [div_div_eq_mul_div]

/-- A number is not rounded past a power of two. -/
theorem abs_nearest_le {x : ℚ} {e : ℕ} (h : |x| ≤ 2 ^ e) : |nearest x| ≤ 2 ^ e := by
  by_cases hzero : x = 0
  · simp [hzero, nearest, roundEven]
  have hexp : ulpExponent x ≤ e := by
    refine ulpExponent_le hzero (h.trans_lt ?_)
    exact pow_lt_pow_right₀ (by norm_num) (by omega)
  -- the power of two is a multiple of the last bit
  obtain ⟨k, hk⟩ := div_zpow_of_nonpos (Int.sub_nonpos_of_le hexp) 1
  have hpower : (2 : ℚ) ^ e = k * 2 ^ ulpExponent x := by
    rw [← hk, zpow_sub₀ (by norm_num), zpow_natCast, Int.cast_one, one_div_div,
      div_mul_cancel₀ _ (by positivity)]
  rw [hpower] at h ⊢
  obtain ⟨hlow, hhigh⟩ := abs_le.mp h
  rw [nearest, abs_mul, abs_of_pos (by positivity : (0 : ℚ) < 2 ^ ulpExponent x)]
  refine mul_le_mul_of_nonneg_right (abs_le.mpr ⟨?_, ?_⟩) (by positivity)
  · have hle : ((-k : ℤ) : ℚ) ≤ x / 2 ^ ulpExponent x := by
      rw [le_div_iff₀ (by positivity)]
      push_cast
      linarith
    exact_mod_cast le_roundEven_of_le hle
  · have hle : x / 2 ^ ulpExponent x ≤ k := by
      rw [div_le_iff₀ (by positivity)]
      exact hhigh
    exact_mod_cast roundEven_le_of_le hle

theorem nearest_nonneg {x : ℚ} (h : 0 ≤ x) : 0 ≤ nearest x := by
  have hround : (0 : ℤ) ≤ roundEven (x / 2 ^ ulpExponent x) := by
    refine le_roundEven_of_le ?_
    rw [Int.cast_zero]
    positivity
  exact mul_nonneg (by exact_mod_cast hround) (by positivity)

end Float64
