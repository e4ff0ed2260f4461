import Mathlib

/-!
# Numbers of 64 bits that saturate

`usize::saturating_add` and its relatives stop at the greatest number of 64 bits. A program that adds
up sizes this way compares the sum with some limit, and what it learns is about the exact sum as long as
the limit is below the greatest number (`saturatingAdd_le_iff`). A counter that is increased one by one
is the number of increases, again up to the greatest number (`saturatingAdd_min`), which is why the
results about counters are about runs of fewer than `2 ^ 64` events.
-/

namespace Saturating

/-- `u64::saturating_add`, and `usize::saturating_add` where pointers have 64 bits. -/
def saturatingAdd (a b : ℕ) : ℕ := min (a + b) (2 ^ 64 - 1)

/-- `usize::saturating_mul`: the product, or the largest value if it is beyond that. -/
def saturatingMul (a b : ℕ) : ℕ := min (a * b) (2 ^ 64 - 1)

theorem saturatingAdd_of_lt {a b : ℕ} (h : a + b < 2 ^ 64) : saturatingAdd a b = a + b :=
  Nat.min_eq_left (by omega)

/-- A saturating sum is within a limit that is not the greatest number exactly when the sum is. -/
theorem saturatingAdd_le_iff {a b limit : ℕ} (h : limit < 2 ^ 64 - 1) :
    saturatingAdd a b ≤ limit ↔ a + b ≤ limit := by
  unfold saturatingAdd
  omega

/-- Saturating on the way is the same as saturating at the end. -/
theorem saturatingAdd_min (n k : ℕ) :
    saturatingAdd (min n (2 ^ 64 - 1)) k = min (n + k) (2 ^ 64 - 1) := by
  unfold saturatingAdd
  omega

theorem le_saturatingAdd {a : ℕ} (h : a < 2 ^ 64) (b : ℕ) : a ≤ saturatingAdd a b := by
  unfold saturatingAdd
  omega

end Saturating
