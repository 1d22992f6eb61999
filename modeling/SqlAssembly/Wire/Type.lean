/-!
# Types of parameters

The types that a server declares for the parameters of a statement. A type of the server's own
catalogue is known by its name; a type that was added later also has a schema, an object number and
a shape. A type that was added is never equal to one of the catalogue, whatever it is called.
-/

namespace SqlAssembly.Wire

/-- A scalar type of the catalogue. -/
inductive Scalar where
  | bool
  | int2
  | int4
  | int8
  | float4
  | float8
  | numeric
  | text
  | varchar
  | bpchar
  | name
  /-- Texts of a type that is still open. -/
  | unknown
  | uuid
  | timestamptz
  | json
  | jsonb
  /-- A type that no datum is written for, by its name. -/
  | other (name : String)
deriving DecidableEq, Repr

namespace Scalar

/-- The types that data are written for. -/
def all : List Scalar :=
  [bool, int2, int4, int8, float4, float8, numeric, text, varchar, bpchar, name, unknown, uuid,
    timestamptz, json, jsonb]

/-- The name in the catalogue. -/
def title : Scalar → String
  | bool => "bool"
  | int2 => "int2"
  | int4 => "int4"
  | int8 => "int8"
  | float4 => "float4"
  | float8 => "float8"
  | numeric => "numeric"
  | text => "text"
  | varchar => "varchar"
  | bpchar => "bpchar"
  | name => "name"
  | unknown => "unknown"
  | uuid => "uuid"
  | timestamptz => "timestamptz"
  | json => "json"
  | jsonb => "jsonb"
  | other title => title

/-- The type of a name. -/
def ofTitle (title : String) : Scalar :=
  (all.find? fun s => s.title = title).getD (other title)

/-- The object number in the catalogue; zero for the types that no datum is written for. -/
def objectNumber : Scalar → Nat
  | bool => 16
  | int2 => 21
  | int4 => 23
  | int8 => 20
  | float4 => 700
  | float8 => 701
  | numeric => 1700
  | text => 25
  | varchar => 1043
  | bpchar => 1042
  | name => 19
  | unknown => 705
  | uuid => 2950
  | timestamptz => 1184
  | json => 114
  | jsonb => 3802
  | other _ => 0

end Scalar

/-- How a type that was added to the catalogue is registered. -/
structure Registration where
  name : String
  schema : String
  objectNumber : Nat
deriving DecidableEq, Repr

/-- The type of a parameter. -/
inductive ParamType where
  | scalar (s : Scalar)
  | arrayOf (s : Scalar)
  /-- An added type without further structure. -/
  | added (r : Registration)
  /-- An added type with a fixed list of labels. -/
  | labels (r : Registration) (all : List String)
  | addedArray (r : Registration) (element : ParamType)
  /-- An added type that restricts another one. -/
  | domain (r : Registration) (base : ParamType)
deriving DecidableEq, Repr

namespace ParamType

/-- The type of the catalogue with the given name; the name of an array type starts with an
underscore. -/
def ofCatalogue (title : String) : ParamType :=
  match title.toList with
  | '_' :: rest => arrayOf (Scalar.ofTitle (String.ofList rest))
  | _ => scalar (Scalar.ofTitle title)

/-- The registration of an added type. -/
def registration? : ParamType → Option Registration
  | scalar _ => none
  | arrayOf _ => none
  | added r => some r
  | labels r _ => some r
  | addedArray r _ => some r
  | domain r _ => some r

/-- The name without a schema. -/
def title : ParamType → String
  | scalar s => s.title
  | arrayOf s => "_" ++ s.title
  | added r => r.name
  | labels r _ => r.name
  | addedArray r _ => r.name
  | domain r _ => r.name

/-- The name in messages: with its schema, unless that is one of the two usual ones. -/
def qualifiedTitle (t : ParamType) : String :=
  match t.registration? with
  | none => t.title
  | some r =>
    if r.schema = "public" ∨ r.schema = "pg_catalog" then r.name else r.schema ++ "." ++ r.name

/-- The object number; zero for the types of the catalogue that are no element of an array that data
are written for. -/
def objectNumber : ParamType → Nat
  | scalar s => s.objectNumber
  | arrayOf _ => 0
  | added r => r.objectNumber
  | labels r _ => r.objectNumber
  | addedArray r _ => r.objectNumber
  | domain r _ => r.objectNumber

/-- The type of the elements of an array type. -/
def element? : ParamType → Option ParamType
  | arrayOf s => some (scalar s)
  | addedArray _ element => some element
  | _ => none

/-- Whether texts are written for the type: the text types of the catalogue, and four added types
that are known by name alone. -/
def takesText : ParamType → Bool
  | scalar s => [Scalar.varchar, .text, .bpchar, .name, .unknown].contains s
  | arrayOf _ => false
  | t => ["citext", "ltree", "lquery", "ltxtquery"].contains t.title

/-- Whether a text of the type is written with a version in front. -/
def hasVersion (t : ParamType) : Bool :=
  ["ltree", "lquery", "ltxtquery"].contains t.title

end ParamType

end SqlAssembly.Wire
