/-!
# Binary floating point

A `Double` is the bit pattern of an IEEE 754 binary64 number. Every operation here decodes such a
pattern to an exact magnitude `significand · 2 ^ unit`, computes with natural numbers, and rounds
once, to nearest with ties to even.

* `Format` gives the widths of an interchange format; `Format.round` is the rounding.
* `Double.significand` and `Double.unit` decode.
* `Double.equal` is the comparison of numbers: zero equals minus zero, NaN differs from itself.
-/

namespace SqlAssembly.Numeric

/-- The quotient of two natural numbers, rounded to nearest; a half goes to the even neighbour. -/
def divNearestEven (num den : Nat) : Nat :=
  let q := num / den
  let r := num % den
  if 2 * r < den ∨ (2 * r = den ∧ q % 2 = 0) then q else q + 1

/-- A binary interchange format: a sign, an exponent field and a fraction field. -/
structure Format where
  fractionBits : Nat
  exponentBits : Nat
deriving DecidableEq, Repr

/-- The format of single precision. -/
def binary32 : Format := ⟨23, 8⟩

/-- The format of double precision. -/
def binary64 : Format := ⟨52, 11⟩

namespace Format

/-- The unit in the last place of the subnormal numbers, as a power of two. -/
def leastUnit (f : Format) : Int :=
  2 - Nat.pow 2 (f.exponentBits - 1) - f.fractionBits

/-- The bit pattern of positive infinity: an exponent field of ones. -/
def infinity (f : Format) : Nat :=
  (Nat.pow 2 f.exponentBits - 1) * Nat.pow 2 f.fractionBits

/-- The bit pattern of the sign alone. -/
def signBit (f : Format) : Nat :=
  Nat.pow 2 (f.exponentBits + f.fractionBits)

/-- The exponent of the leading binary digit of a positive quotient. -/
def leadingExponent (num den : Nat) : Int :=
  let e : Int := (num.log2 : Int) - den.log2
  if num * Nat.pow 2 (-e).toNat < den * Nat.pow 2 e.toNat then e - 1 else e

/-- The bit pattern nearest to `num / den` with the given sign. The pattern of a magnitude is the
number of steps from zero, so a significand that rounds up to the next power of two carries into
the exponent field, and a magnitude beyond the largest finite one becomes infinity. -/
def round (f : Format) (negative : Bool) (num den : Nat) : Nat :=
  let sign := if negative then f.signBit else 0
  if num = 0 then sign
  else
    let unit := max (leadingExponent num den - f.fractionBits) f.leastUnit
    let significand := divNearestEven (num * Nat.pow 2 (-unit).toNat) (den * Nat.pow 2 unit.toNat)
    let steps := significand + (unit - f.leastUnit).toNat * Nat.pow 2 f.fractionBits
    sign + min steps f.infinity

end Format

/-- A number in double precision, as its bit pattern. -/
structure Double where
  /-- Sign, exponent field and fraction field, from the highest bit down. -/
  bits : UInt64
deriving Repr

namespace Double

/-- Whether the sign bit is set. -/
def negative (x : Double) : Bool :=
  decide (Nat.pow 2 63 ≤ x.bits.toNat)

/-- The exponent field. -/
def exponentField (x : Double) : Nat :=
  x.bits.toNat / Nat.pow 2 52 % Nat.pow 2 11

/-- The fraction field. -/
def fraction (x : Double) : Nat :=
  x.bits.toNat % Nat.pow 2 52

/-- Whether the pattern stands for a number, and not for an infinity or for NaN. -/
def isFinite (x : Double) : Bool :=
  x.exponentField != 2047

/-- Whether the pattern stands for no number at all. -/
def isNaN (x : Double) : Bool :=
  x.exponentField == 2047 && x.fraction != 0

/-- The magnitude as a multiple of `2 ^ x.unit`. -/
def significand (x : Double) : Nat :=
  if x.exponentField = 0 then x.fraction else x.fraction + Nat.pow 2 52

/-- The unit in the last place, as a power of two. -/
def unit (x : Double) : Int :=
  (max x.exponentField 1 : Nat) - 1075

/-- Whether the magnitude is zero. -/
def isZero (x : Double) : Bool :=
  x.exponentField == 0 && x.fraction == 0

/-- The numerator of the magnitude over `x.denominator`. -/
def numerator (x : Double) : Nat :=
  x.significand * Nat.pow 2 x.unit.toNat

/-- The power of two that the magnitude is a multiple of, inverted. -/
def denominator (x : Double) : Nat :=
  Nat.pow 2 (-x.unit).toNat

/-- The double nearest to `num / den`. -/
def ofRatio (negative : Bool) (num den : Nat) : Double :=
  ⟨(binary64.round negative num den).toUInt64⟩

/-- The double nearest to an integer. -/
def ofInt (n : Int) : Double :=
  ofRatio (decide (n < 0)) n.natAbs 1

/-- The number with the other sign. -/
def neg (x : Double) : Double :=
  ⟨x.bits ^^^ 0x8000000000000000⟩

/-- The product of two finite numbers. -/
def mul (x y : Double) : Double :=
  ofRatio (x.negative != y.negative) (x.numerator * y.numerator) (x.denominator * y.denominator)

/-- The quotient of a finite number by a finite number other than zero. -/
def div (x y : Double) : Double :=
  ofRatio (x.negative != y.negative) (x.numerator * y.denominator) (x.denominator * y.numerator)

/-- Equality of numbers: the two zeros are equal, and NaN is equal to nothing. -/
def equal (x y : Double) : Bool :=
  !x.isNaN && !y.isNaN && (x.bits == y.bits || (x.isZero && y.isZero))

instance : BEq Double := ⟨equal⟩

/-- The bit pattern in single precision. A NaN keeps its sign and the high end of its fraction, with
the quiet bit set. -/
def toBinary32 (x : Double) : Nat :=
  let sign := if x.negative then binary32.signBit else 0
  if x.isNaN then sign + binary32.infinity + (x.fraction / Nat.pow 2 29 ||| Nat.pow 2 22)
  else if x.isFinite then binary32.round x.negative x.numerator x.denominator
  else sign + binary32.infinity

/-- The double with the value of a single precision pattern. Every such number is a double; a NaN
keeps its sign and fraction, with the quiet bit set. -/
def ofBinary32 (bits : UInt32) : Double :=
  let sign : Nat := if Nat.pow 2 31 ≤ bits.toNat then binary64.signBit else 0
  let field := bits.toNat / Nat.pow 2 23 % Nat.pow 2 8
  let fraction := bits.toNat % Nat.pow 2 23
  if field = 255 then
    let payload := if fraction = 0 then 0 else fraction * Nat.pow 2 29 ||| Nat.pow 2 51
    ⟨(sign + binary64.infinity + payload).toUInt64⟩
  else
    let significand := if field = 0 then fraction else fraction + Nat.pow 2 23
    ofRatio (decide (sign ≠ 0)) (significand * Nat.pow 2 (max field 1)) (Nat.pow 2 150)

end Double

end SqlAssembly.Numeric
