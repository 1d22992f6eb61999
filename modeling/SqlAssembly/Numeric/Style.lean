import SqlAssembly.Numeric.Shortest

/-!
# Written floats

How a double is written: which exponents call for scientific form, how the exponent is signed, where
a tie between two shortest decimals goes, and the words for what is no finite number.

* `FloatStyle.json` is the form of JSON texts.
* `FloatStyle.inspection` is the form of values quoted in messages.
-/

namespace SqlAssembly.Numeric

/-- The conventions for writing a double. -/
structure FloatStyle where
  /-- The least power of ten of the first digit that is written without an exponent. -/
  leastPlain : Int
  /-- The greatest power of ten of the first digit that is written without an exponent. -/
  greatestPlain : Int
  /-- What stands before an exponent that is not negative. -/
  plus : String
  /-- Whether a tie between two shortest decimals goes up, and not to the even one. -/
  tieUp : Bool
  infinity : String
  nan : String
deriving Repr

/-- The form of JSON texts, which have no word for numbers that are not finite. -/
def FloatStyle.json : FloatStyle := ⟨-5, 15, "+", false, "null", "null"⟩

/-- The form of values quoted in messages. -/
def FloatStyle.inspection : FloatStyle := ⟨-4, 15, "", true, "inf", "NaN"⟩

namespace Decimal

/-- The decimal without an exponent, with at least one digit after the point. -/
def plainChars (d : Decimal) : List Char :=
  let ds := d.digits
  let e := d.leadingExponent
  if e < 0 then '0' :: '.' :: List.replicate (-e - 1).toNat '0' ++ ds
  else
    let whole := e.toNat + 1
    let filled := ds ++ List.replicate (whole - ds.length) '0'
    let rest := filled.drop whole
    filled.take whole ++ '.' :: (if rest.isEmpty then ['0'] else rest)

/-- The decimal as one digit, the further digits if there are any, and an exponent. -/
def scientificChars (d : Decimal) (plus : String) : List Char :=
  let ds := d.digits
  let e := d.leadingExponent
  let mark := if e < 0 then ['-'] else plus.toList
  ds.take 1 ++ (if ds.length ≤ 1 then [] else '.' :: ds.drop 1) ++
    'e' :: mark ++ Nat.toDigits 10 e.natAbs

end Decimal

/-- The text of a double. -/
def Double.toText (style : FloatStyle) (x : Double) : String :=
  if x.isNaN then style.nan
  else
    let sign := if x.negative then "-" else ""
    if !x.isFinite then sign ++ style.infinity
    else if x.isZero then sign ++ "0.0"
    else
      let d := x.shortest style.tieUp
      let e := d.leadingExponent
      let body :=
        if style.leastPlain ≤ e ∧ e ≤ style.greatestPlain then d.plainChars
        else d.scientificChars style.plus
      sign ++ String.ofList body

end SqlAssembly.Numeric
