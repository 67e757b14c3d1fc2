import HcOmni.Core.State

/-!
# Calculations in 256 bits

`uint256_extensions.h`: conversions between `int64_t` and `arith_uint256` with their assertions,
and rounded division.  A division by zero throws.
-/

namespace HcOmni

/-- `arith_uint256`, with wrapping sums and products. -/
abbrev ArithUint256 := BitVec 256

/-- `ConvertTo256`: negative numbers fail its assertion. -/
def convertTo256 (number : Int) : Op ArithUint256 := do
  assertThat .other (decide (0 ≤ number))
  pure (BitVec.ofNat 256 number.toNat)

/-- `ConvertTo64`: numbers above the range of `int64_t` fail its assertion. -/
def convertTo64 (number : ArithUint256) : Op Int := do
  assertThat .other (decide ((number.toNat : Int) ≤ MAX_INT_8_BYTES))
  pure number.toNat

/-- `operator/` of `arith_uint256`. -/
def divide256 (numerator denominator : ArithUint256) : Op ArithUint256 :=
  if denominator = 0 then throw .thrown else pure (numerator / denominator)

/-- `Modulo256(a, n) = a - n * (a / n)`. -/
def modulo256 (a n : ArithUint256) : Op ArithUint256 := do
  let quotient ← divide256 a n
  pure (a - n * quotient)

/-- `DivideAndRoundUp`: the ceiling of the quotient. -/
def divideAndRoundUp (numerator denominator : ArithUint256) : Op ArithUint256 :=
  if numerator = 0 then pure 0
  else do
    let quotient ← divide256 (numerator - 1) denominator
    pure (1 + quotient)

end HcOmni
