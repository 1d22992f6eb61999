import SqlAssembly.Numeric.Binary

/-!
# JSON values

* `Json.Number` is an integer of 64 bits, signed or unsigned, or a finite double. The two kinds
  never equal each other.
* `Json` is a JSON value. The members of an object are a list of pairs; the reader and
  `Json.ofMembers` keep it in the order of the keys, each key once.
* `Json.equal` compares values, with numbers compared as numbers.
-/

namespace SqlAssembly

open Numeric

/-- A number of a JSON value. -/
inductive Json.Number where
  /-- An integer that fits 64 bits, signed or unsigned. -/
  | integer (n : Int) (least : -Nat.pow 2 63 ≤ n) (greatest : n < Nat.pow 2 64)
  | real (x : Double) (finite : x.isFinite = true)

/-- A JSON value. -/
inductive Json where
  | null
  | bool (b : Bool)
  | number (n : Json.Number)
  | string (s : String)
  | array (items : List Json)
  /-- Members, ordered by key. -/
  | object (members : List (String × Json))

namespace Json

instance : Inhabited Json := ⟨null⟩

/-- The integer `n`, if it fits 64 bits, signed or unsigned. -/
def Number.ofInt? (n : Int) : Option Number :=
  if h : -Nat.pow 2 63 ≤ n ∧ n < Nat.pow 2 64 then some (.integer n h.1 h.2) else none

/-- The number `x`, or null if `x` is not finite. -/
def ofDouble (x : Double) : Json :=
  if h : x.isFinite = true then number (.real x h) else null

/-- The number for a signed integer of 64 bits. -/
def ofInt64 (n : Int64) : Json :=
  number (.integer n.toInt n.le_toInt (Int.lt_trans n.toInt_lt (by decide)))

/-- Equality of numbers: integers with integers and doubles with doubles. -/
def Number.equal : Number → Number → Bool
  | integer m _ _, integer n _ _ => m == n
  | real x _, real y _ => x == y
  | _, _ => false

mutual

/-- Equality of values. -/
def equal : Json → Json → Bool
  | null, null => true
  | bool a, bool b => a == b
  | number m, number n => m.equal n
  | string s, string t => s == t
  | array a, array b => equalItems a b
  | object a, object b => equalMembers a b
  | _, _ => false

/-- Equality of lists of values. -/
def equalItems : List Json → List Json → Bool
  | [], [] => true
  | a :: as, b :: bs => equal a b && equalItems as bs
  | _, _ => false

/-- Equality of lists of members. -/
def equalMembers : List (String × Json) → List (String × Json) → Bool
  | [], [] => true
  | (k, a) :: as, (l, b) :: bs => k == l && equal a b && equalMembers as bs
  | _, _ => false

end

/-- Puts a member into its place among members ordered by key. A known key gets the new value. -/
def insertMember (key : String) (value : Json) : List (String × Json) → List (String × Json)
  | [] => [(key, value)]
  | member :: rest =>
    if key = member.1 then (key, value) :: rest
    else if key < member.1 then (key, value) :: member :: rest
    else member :: insertMember key value rest

/-- The object with the given members; of several with one key the last counts. -/
def ofMembers (members : List (String × Json)) : Json :=
  object (members.foldl (fun acc member => insertMember member.1 member.2 acc) [])

end Json

end SqlAssembly
