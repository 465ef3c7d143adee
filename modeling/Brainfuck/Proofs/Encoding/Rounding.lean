import Brainfuck.Encoding
import Mathlib.Algebra.Order.Round
import Mathlib.Analysis.Real.Sqrt

/-!
# The nearest root is the rounded square root

No square root of a whole number lies close to the middle between two whole
numbers, so that rounding an approximate square root gives the nearest root. The
margin narrows as the roots grow; over the distances between characters a square
root that is correct to 43 binary places is far more than enough.
-/

namespace Brainfuck.Encoding

/-- How far the square root of a distance stays from the middle between its
nearest root and the neighbours of that. -/
noncomputable def margin (distance : Nat) : ℝ :=
  1 / (8 * nearestRoot distance + 4)

/-- The margin is positive, and in this proportion to the nearest root. -/
theorem margin_pos_and_mul (distance : Nat) :
    0 < margin distance ∧ margin distance * (8 * nearestRoot distance + 4) = 1 := by
  have positive : (0 : ℝ) < 8 * nearestRoot distance + 4 := by positivity
  exact ⟨one_div_pos.mpr positive, one_div_mul_cancel positive.ne'⟩

/-- The square root stays below the middle above the nearest root. -/
theorem sqrt_le_sub_margin (distance : Nat) :
    √(distance : ℝ) ≤ nearestRoot distance + 1 / 2 - margin distance := by
  have enough : (distance : ℝ) ≤
      nearestRoot distance * nearestRoot distance + nearestRoot distance := by
    exact_mod_cast le_square_add_nearestRoot distance
  obtain ⟨positive, product⟩ := margin_pos_and_mul distance
  have nonneg : (0 : ℝ) ≤ nearestRoot distance := Nat.cast_nonneg _
  rw [Real.sqrt_le_iff]
  constructor
  · nlinarith
  · nlinarith [sq_nonneg (margin distance)]

/-- The square root stays above the middle below the nearest root. -/
theorem add_margin_le_sqrt (distance : Nat) :
    nearestRoot distance - 1 / 2 + margin distance ≤ √(distance : ℝ) := by
  obtain ⟨positive, product⟩ := margin_pos_and_mul distance
  rcases Nat.eq_zero_or_pos (nearestRoot distance) with zero | one
  · rw [zero] at product ⊢
    have small : margin distance ≤ 1 / 4 := by
      push_cast at product
      linarith
    have nonneg := Real.sqrt_nonneg (distance : ℝ)
    push_cast
    linarith
  · have distancePositive : 0 < distance := by
      have small := le_square_add_nearestRoot distance
      by_contra zero
      obtain rfl : distance = 0 := by omega
      simp [nearestRoot, nearestRootFrom] at one
    have needed : (nearestRoot distance : ℝ) * nearestRoot distance + 1 ≤
        distance + nearestRoot distance := by
      exact_mod_cast square_lt_add_nearestRoot distancePositive
    have atLeastOne : (1 : ℝ) ≤ nearestRoot distance := by exact_mod_cast one
    have small : margin distance ≤ 1 / 4 := by nlinarith
    refine Real.le_sqrt_of_sq_le ?_
    nlinarith

/-- A number as close to the square root as the margin is rounded to the nearest
root. -/
theorem round_eq_nearestRoot {distance : Nat} {approximation : ℝ}
    (close : |approximation - √(distance : ℝ)| < margin distance) :
    round approximation = nearestRoot distance := by
  obtain ⟨above, below⟩ := abs_lt.mp close
  have upper := sqrt_le_sub_margin distance
  have lower := add_margin_le_sqrt distance
  rw [round_eq_iff, Set.mem_Ico]
  push_cast
  constructor <;> linarith

/-- Between any two characters, a square root correct to 43 binary places, as it is
in double precision, is rounded to the nearest root. -/
theorem round_eq_nearestRoot_of_le {distance : Nat} {approximation : ℝ}
    (inRange : distance ≤ 0x10ffff) (close : |approximation - √(distance : ℝ)| ≤ 1 / 2 ^ 43) :
    round approximation = nearestRoot distance := by
  have rootLe : (nearestRoot distance : ℝ) ≤ 1056 := by
    exact_mod_cast nearestRoot_le (Nat.le_trans inRange (by decide))
  obtain ⟨positive, product⟩ := margin_pos_and_mul distance
  refine round_eq_nearestRoot (lt_of_le_of_lt close ?_)
  have small : (1 : ℝ) / 2 ^ 43 < 1 / (8 * 1056 + 4) := by norm_num
  refine lt_of_lt_of_le small ?_
  exact one_div_le_one_div_of_le (by positivity) (by linarith)

end Brainfuck.Encoding
