import SqlAssembly.Json.Basic
import SqlAssembly.Json.Source
import SqlAssembly.Numeric.Style

/-!
# Compact JSON text

`Json.print` writes a value without spaces. A string escapes the quote, the backslash and the
control characters below the space, and nothing else; a double is written in the form
`FloatStyle.json`.
-/

namespace SqlAssembly.Json

open Numeric

/-- A character inside a string. -/
def escapeChar (c : Char) : List Char :=
  if c = '"' then ['\\', '"']
  else if c = '\\' then ['\\', '\\']
  else if c = '\n' then ['\\', 'n']
  else if c = '\r' then ['\\', 'r']
  else if c = '\t' then ['\\', 't']
  else if c = '\x08' then ['\\', 'b']
  else if c = '\x0c' then ['\\', 'f']
  else if c.toNat < 0x20 then '\\' :: 'u' :: Text.hexChars 4 c.toNat
  else [c]

/-- A string between quotes. -/
def quote (s : String) : String :=
  "\"" ++ String.ofList (s.toList.flatMap escapeChar) ++ "\""

/-- The text of a number. -/
def Number.print : Number → String
  | integer n _ _ => toString n
  | real x _ => x.toText .json

mutual

/-- The text of a value. -/
def print : Json → String
  | null => "null"
  | bool b => if b then "true" else "false"
  | number n => n.print
  | string s => quote s
  | array items => "[" ++ ",".intercalate (printItems items) ++ "]"
  | object members => "\x7b" ++ ",".intercalate (printMembers members) ++ "\x7d"

/-- The texts of the items of an array. -/
def printItems : List Json → List String
  | [] => []
  | item :: rest => print item :: printItems rest

/-- The texts of the members of an object. -/
def printMembers : List (String × Json) → List String
  | [] => []
  | (key, value) :: rest => (quote key ++ ":" ++ print value) :: printMembers rest

end

end SqlAssembly.Json
