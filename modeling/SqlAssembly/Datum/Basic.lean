import SqlAssembly.Assoc.Basic
import SqlAssembly.Datum.Instant
import SqlAssembly.Json.Reader

/-!
# Data

A `Datum` is a value that a query binds to a placeholder. `Bindings` gives data to placeholder
names. A `Uuid` is a number of 128 bits, written as 32 hexadecimal digits in groups of 8, 4, 4, 4
and 12.

* `Datum.equal` compares data of one kind; data of different kinds are never equal.
* `Datum.ofJson` and `Datum.toJson` take a JSON value in and write it out again. Lists of integers
  and lists of strings become kinds of their own, unless they are empty.
-/

namespace SqlAssembly

open Numeric

/-- A universally unique identifier. -/
structure Uuid where
  value : BitVec 128
deriving DecidableEq, Repr

namespace Uuid

/-- The sixteen octets, highest first. -/
def octets (u : Uuid) : List UInt8 :=
  (List.range 16).map fun i => (u.value.toNat / Nat.pow 256 (15 - i)).toUInt8

/-- The identifier as text, in lower case. -/
def toText (u : Uuid) : String :=
  let l := Text.hexChars 32 u.value.toNat
  let group (start length : Nat) := String.ofList ((l.drop start).take length)
  "-".intercalate [group 0 8, group 8 4, group 12 4, group 16 4, group 20 12]

/-- Reads 32 hexadecimal digits, with hyphens anywhere between them. -/
def ofText? (s : String) : Option Uuid :=
  let l := s.toList.filter (· != '-')
  if l.length = 32 then (Text.ofHexChars? l).map fun n => ⟨BitVec.ofNat 128 n⟩ else none

end Uuid

/-- A value bound to a placeholder. -/
inductive Datum where
  | null
  | bool (b : Bool)
  | int (n : Int64)
  | float (x : Double)
  | text (s : String)
  | uuid (u : Uuid)
  | instant (t : Instant)
  | ints (l : List Int64)
  | texts (l : List String)
  /-- Any other JSON value. -/
  | json (j : Json)

/-- The data bound to placeholder names. -/
abbrev Bindings := Assoc Datum

namespace Datum

instance : Inhabited Datum := ⟨null⟩

/-- Whether the datum is the absent value. -/
def isNull : Datum → Bool
  | null => true
  | _ => false

/-- Equality of data: numbers and JSON values are compared as numbers. -/
def equal : Datum → Datum → Bool
  | null, null => true
  | bool a, bool b => a == b
  | int m, int n => m == n
  | float x, float y => x == y
  | text s, text t => s == t
  | uuid u, uuid v => u == v
  | instant s, instant t => s == t
  | ints l, ints k => l == k
  | texts l, texts k => l == k
  | json i, json j => i.equal j
  | _, _ => false

instance : BEq Datum := ⟨equal⟩

/-- The integer of a JSON value, if it is one that fits 64 signed bits. -/
def jsonInt? : Json → Option Int64
  | .number (.integer n _ _) => if n < Nat.pow 2 63 then some (Int64.ofInt n) else none
  | _ => none

/-- The string of a JSON value, if it is one. -/
def jsonText? : Json → Option String
  | .string s => some s
  | _ => none

/-- The datum for a JSON value. -/
def ofJson : Json → Datum
  | .null => null
  | .bool b => bool b
  | .number (.integer n _ _) => if n < Nat.pow 2 63 then int (Int64.ofInt n) else float (Double.ofInt n)
  | .number (.real x _) => float x
  | .string s => text s
  | .array [] => json (.array [])
  | .array items =>
    match items.mapM jsonInt?, items.mapM jsonText? with
    | some l, _ => ints l
    | none, some l => texts l
    | none, none => json (.array items)
  | .object members => json (.object members)

/-- The JSON value of a datum. A float that is not finite has none of its own and becomes null. -/
def toJson : Datum → Json
  | null => .null
  | bool b => .bool b
  | int n => .ofInt64 n
  | float x => .ofDouble x
  | text s => .string s
  | uuid u => .string u.toText
  | instant t => .string t.toText
  | ints l => .array (l.map .ofInt64)
  | texts l => .array (l.map .string)
  | json j => j

end Datum

namespace Bindings

/-- Whether two sets of bindings give equal data to the same names, in any order. -/
def equal (m n : Bindings) : Bool :=
  m.agrees Datum.equal n

/-- The JSON object of the bindings as it is printed, in their order. -/
def toJson (m : Bindings) : Json :=
  .object (m.map Datum.toJson).entries

/-- The bindings of a JSON object, in the order of its keys. -/
def ofSource? : Nat → Json.Source → Option Bindings
  | 0, _ => none
  | depth + 1, source => do
    let members ← source.members?
    let entries ← members.mapM fun (name, value) => do
      return (name, Datum.ofJson (← value.toJson? depth))
    return Assoc.ofList entries

/-- The bindings of the JSON text of an object. -/
def read? (s : String) : Option Bindings := do
  ofSource? Json.maxDepth (← Json.Source.parse? s)

end Bindings

end SqlAssembly
