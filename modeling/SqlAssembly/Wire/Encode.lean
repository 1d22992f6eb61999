import SqlAssembly.Datum.Basic
import SqlAssembly.Json.Printer
import SqlAssembly.Numeric.Fixed
import SqlAssembly.Wire.Type

/-!
# Binary forms of data

The octets by which a datum travels as a parameter of a declared type, highest octet first.

* Integers are written for the integer types if they fit, for the floating types rounded, and for
  `numeric` exactly.
* Doubles are written for the floating types and for `numeric`.
* All other data are written for their own types only. A type that restricts another one is not that
  type.

What is written goes behind the octets that are there already. An `Encoder` may fail half way, and
what it has written by then stays; so the integers of an array are all narrowed before the first of
them is written. `encodeInto` is the encoder of a datum, and `encode` what it writes by itself.
-/

namespace SqlAssembly.Wire

open Numeric

/-- Why a datum has no form in a type. -/
inductive EncodeFault where
  /-- Data of this kind, by its technical name, are not written for the type. -/
  | wrongType (kind : String) (type : ParamType)
  | outOfRange
  | noDecimal
deriving DecidableEq

/-- The words for a fault. -/
def EncodeFault.message : EncodeFault → String
  | wrongType kind type =>
    "cannot convert between the Rust type `" ++ kind ++ "` and the Postgres type `" ++
      type.qualifiedTitle ++ "`"
  | outOfRange => "out of range integral type conversion attempted"
  | noDecimal => "Error while converting to Decimal"

/-- The technical name of the kind of a datum. -/
def kindTitle : Datum → String
  | .null => "()"
  | .bool _ => "bool"
  | .int _ => "i64"
  | .float _ => "f64"
  | .text _ => "alloc::string::String"
  | .uuid _ => "uuid::Uuid"
  | .instant _ => "chrono::datetime::DateTime<chrono::offset::utc::Utc>"
  | .ints _ => "&[i64]"
  | .texts _ => "alloc::vec::Vec<alloc::string::String>"
  | .json _ => "serde_json::value::Value"

/-- The lowest `width` octets of a natural number, highest first. -/
def natOctets : Nat → Nat → List UInt8
  | 0, _ => []
  | width + 1, n => natOctets width (n / 256) ++ [n.toUInt8]

/-- An integer in two's complement of `width` octets. -/
def intOctets (width : Nat) (n : Int) : List UInt8 :=
  natOctets width (n.emod (Nat.pow 256 width)).toNat

/-- An integer, if it fits `width` octets in two's complement. -/
def narrow (width : Nat) (n : Int) : Except EncodeFault Int :=
  if -(Nat.pow 2 (8 * width - 1)) ≤ n ∧ n < Nat.pow 2 (8 * width - 1) then .ok n
  else .error .outOfRange

/-- A list of integers, if all of them fit. -/
def narrowAll (width : Nat) (l : List Int64) : Except EncodeFault (List Int) :=
  l.mapM fun n => narrow width n.toInt

/-- The octets of a text. -/
def textOctets (s : String) : List UInt8 :=
  s.toUTF8.toList

/-- The groups of four decimal digits of a number, highest first and without leading zeros. -/
def groups (n : Nat) : List Nat :=
  if n = 0 then [] else groups (n / 10000) ++ [n % 10000]
termination_by n

/-- A list without the zeros at its end. -/
def dropLastZeros (l : List Nat) : List Nat :=
  (l.reverse.dropWhile (· == 0)).reverse

/-- A decimal: the number of groups of four digits, the weight of the first group, the sign, the
number of places, and the groups. Whole groups of zeros after the point are left out, unless the
number is below one. -/
def numericOctets (d : Fixed) : List UInt8 :=
  if d.coefficient = 0 then natOctets 8 0
  else
    let pad := (4 - d.scale % 4) % 4
    let all := groups (d.coefficient.natAbs * Nat.pow 10 pad)
    let fractionGroups := (d.scale + 3) / 4
    let weight : Int := (all.length : Int) - fractionGroups - 1
    let whole := (weight + 1).toNat
    let kept := if 0 ≤ weight then all.take whole ++ dropLastZeros (all.drop whole) else all
    natOctets 2 kept.length ++ intOctets 2 weight ++
      natOctets 2 (if d.coefficient < 0 then 0x4000 else 0) ++ natOctets 2 d.scale ++
      kept.flatMap (natOctets 2)

/-- A text for a type that takes texts. -/
def textForm (t : ParamType) (s : String) : List UInt8 :=
  if t.hasVersion then 1 :: textOctets s else textOctets s

/-! ### Writing -/

/-- Writes octets behind those that are there, or fails. -/
abbrev Encoder := ExceptT EncodeFault (StateM (List UInt8))

/-- Writes the given octets. -/
def put (octets : List UInt8) : Encoder Unit :=
  modify fun out => out ++ octets

/-- Writes what `x` does after its length. The place of the length is kept until it is known. -/
def putSized (x : Encoder Unit) : Encoder Unit := do
  let before ← get
  put (natOctets 4 0)
  x
  modify fun out =>
    out.take before.length ++ natOctets 4 (out.length - (before.length + 4)) ++
      out.drop (before.length + 4)

/-- An array of one dimension: its header with the object number of the elements and their number,
then each element after its length. -/
def putArray {α : Type} (element : Nat) (putItem : α → Encoder Unit) (items : List α) :
    Encoder Unit := do
  put (natOctets 4 1 ++ natOctets 4 0 ++ natOctets 4 element)
  put (natOctets 4 items.length ++ natOctets 4 1)
  items.forM fun item => putSized (putItem item)

/-- An integer. -/
def encodeInt (n : Int64) (t : ParamType) : Encoder Unit := do
  match t with
  | .scalar .int2 => put (intOctets 2 (← narrow 2 n.toInt))
  | .scalar .int4 => put (intOctets 4 (← narrow 4 n.toInt))
  | .scalar .int8 => put (intOctets 8 n.toInt)
  | .scalar .float4 => put (natOctets 4 (binary32.round (decide (n.toInt < 0)) n.toInt.natAbs 1))
  | .scalar .float8 => put (natOctets 8 (Double.ofInt n.toInt).bits.toNat)
  | .scalar .numeric => put (numericOctets (Fixed.ofInt n.toInt))
  | _ => throw (.wrongType (kindTitle (.int n)) t)

/-- A double. -/
def encodeFloat (x : Double) (t : ParamType) : Encoder Unit := do
  match t with
  | .scalar .float4 => put (natOctets 4 x.toBinary32)
  | .scalar .float8 => put (natOctets 8 x.bits.toNat)
  | .scalar .numeric =>
    match Fixed.ofDouble? x with
    | some d => put (numericOctets d)
    | none => throw .noDecimal
  | _ => throw (.wrongType (kindTitle (.float x)) t)

/-- A text. Labels travel as they are. -/
def encodeText (s : String) (t : ParamType) : Encoder Unit := do
  match t with
  | .labels _ _ => put (textOctets s)
  | _ => if t.takesText then put (textForm t s) else throw (.wrongType (kindTitle (.text s)) t)

/-- A list of integers. -/
def encodeInts (l : List Int64) (t : ParamType) : Encoder Unit := do
  match t with
  | .arrayOf .int2 =>
    putArray Scalar.int2.objectNumber (fun n => put (intOctets 2 n)) (← narrowAll 2 l)
  | .arrayOf .int4 =>
    putArray Scalar.int4.objectNumber (fun n => put (intOctets 4 n)) (← narrowAll 4 l)
  | .arrayOf .int8 | .addedArray _ (.scalar .int8) =>
    putArray Scalar.int8.objectNumber (fun n => put (intOctets 8 n.toInt)) l
  | .arrayOf .numeric =>
    putArray Scalar.numeric.objectNumber (fun n => put (numericOctets (Fixed.ofInt n.toInt))) l
  | _ => throw (.wrongType (kindTitle (.ints l)) t)

/-- A list of texts. -/
def encodeTexts (l : List String) (t : ParamType) : Encoder Unit := do
  match t.element? with
  | some element =>
    if element.takesText then
      putArray element.objectNumber (fun s => put (textForm element s)) l
    else throw (.wrongType (kindTitle (.texts l)) t)
  | none => throw (.wrongType (kindTitle (.texts l)) t)

/-- Whether a parameter is there; the absent datum has no octets. -/
inductive Presence where
  | absent
  | present
deriving DecidableEq, Repr

/-- The encoder of what is there. -/
def present (x : Encoder Unit) : Encoder Presence := do
  x
  return .present

/-- Writes a datum as a parameter of type `t`. -/
def encodeInto (d : Datum) (t : ParamType) : Encoder Presence :=
  let only (s : Scalar) (octets : List UInt8) : Encoder Presence :=
    if t = .scalar s then present (put octets) else throw (.wrongType (kindTitle d) t)
  match d with
  | .null => return .absent
  | .bool b => only .bool [if b then 1 else 0]
  | .int n => present (encodeInt n t)
  | .float x => present (encodeFloat x t)
  | .text s => present (encodeText s t)
  | .uuid u => only .uuid u.octets
  | .instant i => only .timestamptz (intOctets 8 i.microsSince2000)
  | .ints l => present (encodeInts l t)
  | .texts l => present (encodeTexts l t)
  | .json j =>
    match t with
    | .scalar .json => present (put (textOctets j.print))
    | .scalar .jsonb => present (put (1 :: textOctets j.print))
    | _ => throw (.wrongType (kindTitle d) t)

/-- The octets of a datum as a parameter of type `t`; `none` for the absent datum. -/
def encode (d : Datum) (t : ParamType) : Except EncodeFault (Option (List UInt8)) :=
  match (encodeInto d t).run.run [] with
  | (.ok .present, octets) => .ok (some octets)
  | (.ok .absent, _) => .ok none
  | (.error fault, _) => .error fault

end SqlAssembly.Wire
