/-! Doubles among the naturals: rounding to a number of significant bits, to nearest with ties to
even, and overflow of a product of two rounded factors. -/
namespace ScanSlot.Json.Double

/-- The multiple of `step` nearest to `n`; halfway between two, the even one. -/
def nearestMultiple (step n : Nat) : Nat :=
  let below := n / step
  let twice := 2 * (n % step)
  if twice < step then below * step
  else if step < twice then (below + 1) * step
  else (below + below % 2) * step

/-- Rounds to `precision` significant bits; a number that has no more stays as it is. -/
def nearest (precision n : Nat) : Nat :=
  nearestMultiple (Nat.pow 2 (Nat.log2 n + 1 - precision)) n

def round : Nat → Nat := nearest 53

/-- The least number that rounds to infinity. -/
def overflow : Nat := Nat.pow 2 1024 - Nat.pow 2 970

/-- Whether `n * 10 ^ exponent` is finite for an `n` of at most 64 bits: both factors are rounded
before they are multiplied, and no double is as large as `10 ^ 309`. -/
def isFiniteScaled (n : Nat) (exponent : Int) : Bool :=
  n == 0 || decide (exponent < 0) ||
    decide (exponent < 309) && decide (round n * round (Nat.pow 10 exponent.toNat) < overflow)

/-- Rounding moves a number by at most half a step. -/
theorem nearestMultiple_near {step : Nat} (positive : 0 < step) (n : Nat) :
    2 * n ≤ 2 * nearestMultiple step n + step ∧ 2 * nearestMultiple step n ≤ 2 * n + step := by
  have parts := Nat.div_add_mod' n step
  have small := Nat.mod_lt n positive
  have parity := Nat.mod_two_eq_zero_or_one (n / step)
  unfold nearestMultiple
  dsimp only
  split
  · omega
  · split
    · rw [Nat.add_mul]
      omega
    · rcases parity with even | odd
      · rw [even, Nat.add_zero]
        omega
      · rw [odd, Nat.add_mul]
        omega

theorem nearest_of_lt {precision n : Nat} (short : n < Nat.pow 2 precision) :
    nearest precision n = n := by
  rcases Nat.eq_zero_or_pos n with rfl | positive
  · simp [nearest, nearestMultiple]
  · have bits := (Nat.log2_lt (Nat.ne_of_gt positive)).mpr short
    have unshifted : Nat.log2 n + 1 - precision = 0 := by omega
    simp [nearest, unshifted, nearestMultiple, Nat.mod_one]

end ScanSlot.Json.Double
