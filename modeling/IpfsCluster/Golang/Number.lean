import Mathlib.Data.Rat.Floor

/-! # Conversion of numbers

Floating point numbers are rational numbers here. Their conversion to an integer cuts off what is after the point.
Integers of 64 bits wrap around where that matters.
-/

namespace IpfsCluster.Golang

def toInt64 (x : ℚ) : ℤ := x.num.tdiv x.den

/-- What is left of an integer in 64 bits with a sign. -/
def wrapInt64 (x : ℤ) : ℤ := x.bmod (2 ^ 64)

theorem wrapInt64_of_abs_lt {x : ℤ} (small : |x| < 2 ^ 63) : wrapInt64 x = x := by
  obtain ⟨low, high⟩ := abs_lt.mp small
  exact Int.bmod_eq_of_le (by omega) (by omega)

theorem toInt64_of_nonneg {x : ℚ} (nonneg : 0 ≤ x) : toInt64 x = ⌊x⌋ := by
  rw [toInt64, Int.tdiv_eq_ediv_of_nonneg (Rat.num_nonneg.mpr nonneg), Rat.floor_def']

theorem toInt64_nonpos {x : ℚ} (nonpos : x ≤ 0) : toInt64 x ≤ 0 := by
  have flipped : 0 ≤ (-x.num).tdiv x.den :=
    Int.tdiv_nonneg (neg_nonneg.mpr (Rat.num_nonpos.mpr nonpos)) (Int.natCast_nonneg _)
  rw [Int.neg_tdiv] at flipped
  exact neg_nonneg.mp flipped

theorem toInt64_pos_iff (x : ℚ) : 0 < toInt64 x ↔ 1 ≤ x := by
  rcases le_total 0 x with nonneg | nonpos
  · rw [toInt64_of_nonneg nonneg, Int.floor_pos]
  · have cut := toInt64_nonpos nonpos
    exact iff_of_false (by omega) (by linarith)

end IpfsCluster.Golang
