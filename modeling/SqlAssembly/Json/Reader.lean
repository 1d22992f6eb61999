import SqlAssembly.Json.Basic
import SqlAssembly.Json.Source

/-!
# Reading JSON values

`Json.read?` gives a JSON text its value. Numbers without a fraction or an exponent are integers as
long as they fit 64 bits; all others are doubles, computed from the leading digits that fit an
unsigned 64-bit integer by one multiplication or division with a power of ten. That is fast and not
always the nearest double, and texts are read with exactly these roundings.

Lists and objects may nest 127 deep. `Source.record?` is the reading of a record with known fields,
given as an object or as the list of its fields.
-/

namespace SqlAssembly.Json

open Numeric

/-- How deep lists and objects may nest. -/
def maxDepth : Nat := 127

/-- The first number that does not fit the significand. -/
def significandBound : Nat := Nat.pow 2 64

/-- The double nearest to a power of ten. -/
def powerOfTen (n : Nat) : Double := Double.ofRatio false (Nat.pow 10 n) 1

/-- Divides by `1e308` at most `n` times, and no further once the result is zero. -/
def divLargest : Nat → Double → Double
  | 0, x => x
  | n + 1, x => if x.isZero then x else divLargest n (x.div (powerOfTen 308))

/-- Divides by a positive power of ten, in steps that doubles can hold. -/
def divPowerOfTen (x : Double) (n : Nat) : Double :=
  let steps := (n - 1) / 308
  (divLargest steps x).div (powerOfTen (n - 308 * steps))

/-- The double for `significand · 10 ^ exponent`, or `none` if it is too large. -/
def scaled? (significand : Nat) (exponent : Int) : Option Double :=
  let x := Double.ofInt significand
  if x.isZero then some x
  else if exponent < 0 then some (divPowerOfTen x exponent.natAbs)
  else if exponent ≤ 308 then
    let y := x.mul (powerOfTen exponent.toNat)
    if y.isFinite then some y else none
  else none

/-- Appends digits to a significand while it fits, and counts the digits taken. -/
def takeDigits : Nat → List Nat → Nat × Nat
  | significand, [] => (significand, 0)
  | significand, d :: rest =>
    if significand * 10 + d < significandBound then
      let (result, taken) := takeDigits (significand * 10 + d) rest
      (result, taken + 1)
    else (significand, 0)

/-- A finite double with a sign, as a number. -/
def Number.ofSigned? (negative : Bool) (x : Double) : Option Number :=
  let y := if negative then x.neg else x
  if h : y.isFinite = true then some (.real y h) else none

/-- The number that a source stands for. -/
def NumberSource.value? (n : NumberSource) : Option Number :=
  let (significand, taken) := takeDigits 0 n.whole
  let dropped := n.whole.length - taken
  match n.fraction, n.exponent with
  | none, none =>
    if dropped = 0 ∧ ¬ n.negative then Number.ofInt? significand
    else if dropped = 0 ∧ 0 < significand ∧ significand ≤ Nat.pow 2 63 then Number.ofInt? (-significand)
    else do Number.ofSigned? n.negative (← scaled? significand dropped)
  | fraction, exponent => do
    let (significand, places) := takeDigits significand (fraction.getD [])
    let shift : Int := match exponent with
      | none => 0
      | some (negative, digits) =>
        let e : Int := (digits.foldl (fun e d => 10 * e + d) 0 : Nat)
        if negative then -e else e
    Number.ofSigned? n.negative (← scaled? significand (dropped - places + shift))

namespace Source

mutual

/-- The value of a source that may nest `depth` deep. -/
def toJson? : Nat → Source → Option Json
  | _, null => some .null
  | _, bool b => some (.bool b)
  | _, number n => n.value?.map .number
  | _, string s => s.map .string
  | 0, array _ => none
  | depth + 1, array items => (itemsToJson? depth items).map .array
  | 0, object _ => none
  | depth + 1, object members => (membersToJson? depth members).map Json.ofMembers

/-- The values of the items of a list. -/
def itemsToJson? : Nat → List Source → Option (List Json)
  | _, [] => some []
  | depth, item :: rest => do return (← toJson? depth item) :: (← itemsToJson? depth rest)

/-- The members of an object, in the order of the text. -/
def membersToJson? : Nat → List (Option String × Source) → Option (List (String × Json))
  | _, [] => some []
  | depth, (key, value) :: rest => do
    return (← key, ← toJson? depth value) :: (← membersToJson? depth rest)

end

/-- The members of an object whose keys are texts. -/
def members? : Source → Option (List (String × Source))
  | object members => members.mapM fun (key, value) => key.map fun key => (key, value)
  | _ => none

/-- The sources of the fields `names`, each `none` if it is not given. An object gives no field
twice, and what else it holds is skipped; a list gives the fields in order and nothing beyond. -/
def record? (names : List String) : Source → Option (List (Option Source))
  | array items =>
    if items.length ≤ names.length then
      some (items.map some ++ List.replicate (names.length - items.length) none)
    else none
  | source => do
    let members ← source.members?
    if names.any fun name => 1 < (members.map Prod.fst).count name then none
    else return names.map fun name => members.lookup name

/-- A string. -/
def text? : Source → Option String
  | string s => s
  | _ => none

/-- An optional value: absent and null are the same. -/
def optional? {α : Type} (read : Source → Option α) : Option Source → Option (Option α)
  | none => some none
  | some null => some none
  | some source => (read source).map some

/-- An integer below `bound`, written without sign, fraction and exponent. -/
def natBelow? (bound : Nat) : Source → Option Nat
  | number ⟨false, whole, none, none⟩ =>
    let n := whole.foldl (fun n d => 10 * n + d) 0
    if n < bound then some n else none
  | _ => none

end Source

/-- The value of a JSON text. -/
def read? (s : String) : Option Json := do
  (← Source.parse? s).toJson? maxDepth

end SqlAssembly.Json
