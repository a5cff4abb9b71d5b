import Mathlib.Algebra.Order.Floor.Ring
import Mathlib.Data.Rat.Floor
import Mathlib.Tactic.Linarith
import Prox.Lib.Go

/-! # Decimals

The operations of `shopspring/decimal` that the modelled code uses. Sums and products of decimals are
exact, so a decimal is a rational number here; what remains are the two ways back to an integer. -/

namespace Prox

/-- `d.Round(0)`: the nearest integer, halves away from zero. -/
def roundHalfAway (x : ℚ) : Int := if 0 ≤ x then ⌊x + 1 / 2⌋ else -⌊-x + 1 / 2⌋

/-- `d.IntPart()`: the integer part, towards zero, as an `int64`. -/
def intPart (x : ℚ) : Int := wrapInt64 (x.num.tdiv x.den)

theorem roundHalfAway_of_nonneg {x : ℚ} (hx : 0 ≤ x) : roundHalfAway x = ⌊x + 1 / 2⌋ := if_pos hx

theorem roundHalfAway_nonneg {x : ℚ} (hx : 0 ≤ x) : 0 ≤ roundHalfAway x := by
  rw [roundHalfAway_of_nonneg hx]
  exact Int.floor_nonneg.mpr (by linarith)

/-- A number at or above the midpoint below `n` is rounded to `n` at least. -/
theorem le_roundHalfAway {x : ℚ} (hx : 0 ≤ x) {n : Int} : n ≤ roundHalfAway x ↔ n - 1 / 2 ≤ x := by
  rw [roundHalfAway_of_nonneg hx, Int.le_floor]
  constructor <;> intro h <;> linarith

/-- Rounding keeps the order of numbers that are not negative. -/
theorem roundHalfAway_le {x y : ℚ} (hx : 0 ≤ x) (h : x ≤ y) : roundHalfAway x ≤ roundHalfAway y := by
  rw [le_roundHalfAway (hx.trans h)]
  exact ((le_roundHalfAway hx).mp le_rfl).trans h

/-- A whole number inside the range of an `int64` is its own integer part. -/
theorem intPart_intCast {n : Int} (hlo : -(2 ^ 63) ≤ n) (hhi : n < 2 ^ 63) : intPart n = n := by
  rw [intPart, Rat.den_intCast, Nat.cast_one, Int.tdiv_one]
  exact wrapInt64_of_range hlo hhi

end Prox
