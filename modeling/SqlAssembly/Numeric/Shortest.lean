import SqlAssembly.Numeric.Binary

/-!
# Shortest decimals

The decimal with the fewest digits that reads back as a given double and, among those, lies nearest
to it. The reals that round to a double form an interval around it, which holds its ends exactly
when the significand is even. For one digit, two digits and so on up to seventeen, the two
neighbours of the double on that decimal grid are tested against the interval; the first grid with
a hit gives the answer.
-/

namespace SqlAssembly.Numeric

/-- A positive decimal `coefficient · 10 ^ exponent`. -/
structure Decimal where
  /-- The digits, as one number. -/
  coefficient : Nat
  /-- The power of ten of the last digit. -/
  exponent : Int
deriving DecidableEq, Repr

namespace Decimal

/-- The digits of the coefficient, highest first. -/
def digits (d : Decimal) : List Char :=
  (Nat.toDigits 10 d.coefficient)

/-- The power of ten of the first digit. -/
def leadingExponent (d : Decimal) : Int :=
  d.exponent + d.digits.length - 1

/-- Removes at most `n` zeros from the end of the digits. -/
def dropZeros : Nat → Decimal → Decimal
  | 0, d => d
  | n + 1, d =>
    if d.coefficient % 10 = 0 then dropZeros n ⟨d.coefficient / 10, d.exponent + 1⟩ else d

end Decimal

/-- The power of ten of the leading digit of a positive quotient. -/
def leadingPowerOfTen (num den : Nat) : Int :=
  if den ≤ num then (Nat.toDigits 10 (num / den)).length - 1
  else
    let n := (Nat.toDigits 10 (den / num)).length
    if den = num * Nat.pow 10 (n - 1) then 1 - n else -n

/-- A positive real as a quotient, with the ends of the interval of reals that round to it. All
three have the denominator `den`. -/
structure RoundingInterval where
  middle : Nat
  low : Nat
  high : Nat
  den : Nat
  /-- Whether the two ends round to the middle as well. -/
  closed : Bool

namespace RoundingInterval

/-- The interval of a finite double other than zero. The neighbour below a power of two is only half
as far away as the one above. -/
def ofDouble (x : Double) : RoundingInterval :=
  let up := Nat.pow 2 (x.unit - 2).toNat
  let m := x.significand
  let below := if x.fraction = 0 ∧ 1 < x.exponentField then 1 else 2
  { middle := 4 * m * up
    low := (4 * m - below) * up
    high := (4 * m + 2) * up
    den := Nat.pow 2 (2 - x.unit).toNat
    closed := m % 2 == 0 }

/-- Whether the decimal `c · 10 ^ k` lies in the interval. -/
def holds (i : RoundingInterval) (c : Nat) (k : Int) : Bool :=
  let v := c * Nat.pow 10 k.toNat * i.den
  let scale := Nat.pow 10 (-k).toNat
  if i.closed then decide (i.low * scale ≤ v) && decide (v ≤ i.high * scale)
  else decide (i.low * scale < v) && decide (v < i.high * scale)

/-- The nearer of the two grid neighbours `c` and `c + 1` of the middle; of two equally near ones
the upper if `tieUp`, else the even one. -/
def nearer (i : RoundingInterval) (tieUp : Bool) (c : Nat) (k : Int) : Nat :=
  let doubled := (2 * c + 1) * Nat.pow 10 k.toNat * i.den
  let middle := 2 * i.middle * Nat.pow 10 (-k).toNat
  if middle < doubled then c
  else if doubled < middle then c + 1
  else if tieUp then c + 1
  else if c % 2 = 0 then c else c + 1

/-- The decimal of at most `n` digits in the interval that lies nearest to the middle, if there is
one. -/
def hit? (i : RoundingInterval) (tieUp : Bool) (n : Nat) : Option Decimal :=
  let k := leadingPowerOfTen i.middle i.den - n + 1
  let c := i.middle * Nat.pow 10 (-k).toNat / (i.den * Nat.pow 10 k.toNat)
  match i.holds c k, i.holds (c + 1) k with
  | true, true => some ⟨i.nearer tieUp c k, k⟩
  | true, false => some ⟨c, k⟩
  | false, true => some ⟨c + 1, k⟩
  | false, false => none

end RoundingInterval

/-- The shortest decimal that reads back as `x`, a finite double other than zero. A tie between two
decimals of equal length goes up if `tieUp`, else to the even one. -/
def Double.shortest (x : Double) (tieUp : Bool) : Decimal :=
  let i := RoundingInterval.ofDouble x
  let d := ((List.range 17).findSome? fun n => i.hit? tieUp (n + 1)).getD ⟨0, 0⟩
  d.dropZeros 17

end SqlAssembly.Numeric
