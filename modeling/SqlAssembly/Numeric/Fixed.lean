import SqlAssembly.Numeric.Binary

/-!
# Fixed point decimals

A `Fixed` is an integer over a power of ten. `Fixed.ofDouble?` turns a double into such a number
with a 96-bit coefficient and at most 28 places: the power of two is traded for a power of ten one
factor at a time, and what the coefficient cannot hold is dropped from its low end.

The conversion works on the coefficient `m` of `m · 2 ^ e`. While the exponent of two is negative a
factor of two is either cancelled or exchanged for a factor of five; while it is positive the
coefficient is doubled at the cost of a power of ten; and the power of ten that remains is paid off
by multiplying or by dropping places with rounding.
-/

namespace SqlAssembly.Numeric

/-- The decimal `coefficient / 10 ^ scale`. -/
structure Fixed where
  /-- The number without its decimal point. -/
  coefficient : Int
  /-- The number of places after the point. -/
  scale : Nat
deriving DecidableEq, Repr

namespace Fixed

/-- The first number that no coefficient holds. -/
def coefficientBound : Nat := Nat.pow 2 96

/-- The greatest number of places. -/
def maxScale : Nat := 28

/-- Drops the last digit of `m` and carries one if that digit is five or more. -/
def dropDigit (m : Nat) : Nat :=
  if 5 ≤ m % 10 then m / 10 + 1 else m / 10

/-- Exchanges `n` factors of one half: an even `m` is halved at the price of a power of ten, an odd
one takes a factor of five while it has room and is halved with loss when it has none. The result is
the coefficient and the power of ten. -/
def absorbHalves : Nat → Nat → Int → Nat × Int
  | 0, m, ten => (m, ten)
  | n + 1, m, ten =>
    if m % 2 = 0 then absorbHalves n (m / 2) (ten + 1)
    else if m * 5 < coefficientBound then absorbHalves n (m * 5) ten
    else absorbHalves n (m / 2) (ten + 1)

/-- Exchanges `n` factors of two: `m` is doubled at the cost of a power of ten while it has room,
and divided by five when it has none, unless too much of the power of ten is left. -/
def absorbTwos : Nat → Nat → Int → Option (Nat × Int)
  | 0, m, ten => some (m, ten)
  | n + 1, m, ten =>
    if m < Nat.pow 2 95 then absorbTwos n (m * 2) (ten - 1)
    else if (n + 1 : Int) < ten * 2 then none
    else absorbTwos n (m / 5) ten

/-- Multiplies `m` by `10 ^ n`, if there is room. -/
def growTens : Nat → Nat → Option Nat
  | 0, m => some m
  | n + 1, m => if m * 10 < coefficientBound then growTens n (m * 10) else none

/-- Drops places beyond the greatest number of them; `excess` counts the drops still needed. A
coefficient that vanishes has no places. -/
def shrinkTo : Nat → Nat → Nat → Nat × Nat
  | 0, m, scale => (m, scale)
  | excess + 1, m, scale =>
    if m / 10 = 0 then (0, 0) else shrinkTo excess (dropDigit m) (scale - 1)

/-- Drops places while there are any and the coefficient has more than the 52 bits of a double. -/
def trimPrecision : Nat → Nat → Nat × Nat
  | 0, m => (m, 0)
  | scale + 1, m => if Nat.pow 2 52 ≤ m then trimPrecision scale (dropDigit m) else (m, scale + 1)

/-- Drops zeros after the point. -/
def trimZeros : Nat → Nat → Nat × Nat
  | 0, m => (m, 0)
  | scale + 1, m => if m % 10 = 0 then trimZeros scale (m / 10) else (m, scale + 1)

/-- The decimal for the magnitude `m · 10 ^ ten`, as a coefficient and a number of places. -/
def settle (m : Nat) (ten : Int) : Option (Nat × Nat) := do
  let m ← growTens ten.toNat m
  let scale := (-ten).toNat
  let (m, scale) := shrinkTo (scale - maxScale) m scale
  let (m, scale) := trimPrecision scale m
  return trimZeros scale m

/-- The decimal of a double, or `none` if it is not finite or too large. -/
def ofDouble? (x : Double) : Option Fixed := do
  if !x.isFinite then none
  else if x.isZero then return ⟨0, 0⟩
  else
    let (m, ten) ←
      if x.unit ≤ 0 then pure (absorbHalves (-x.unit).toNat x.significand x.unit)
      else absorbTwos x.unit.toNat x.significand x.unit
    let (m, scale) ← settle m ten
    return ⟨if x.negative then -m else m, scale⟩

/-- The decimal of an integer. -/
def ofInt (n : Int) : Fixed := ⟨n, 0⟩

end Fixed

end SqlAssembly.Numeric
