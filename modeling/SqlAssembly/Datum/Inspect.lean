import SqlAssembly.Datum.Basic
import SqlAssembly.Json.Printer
import SqlAssembly.Unicode.Hidden

/-!
# Data in messages

`Datum.inspect` is the text by which a message shows a datum: its kind, and its content in
parentheses. Texts stand between quotes: the quote, the backslash and the usual controls are escaped
by a letter, every other character that has no visible shape or is drawn on the one before it by its
code point.
-/

namespace SqlAssembly

open Numeric

namespace Text

/-- A character by its code point. -/
def escapeCodePoint (c : Char) : List Char :=
  "\\u\x7b".toList ++ Nat.toDigits 16 c.toNat ++ ['\x7d']

/-- A character inside a quoted text. -/
def escapeQuoted (c : Char) : List Char :=
  if c = '"' then ['\\', '"']
  else if c = '\\' then ['\\', '\\']
  else if c = '\n' then ['\\', 'n']
  else if c = '\r' then ['\\', 'r']
  else if c = '\t' then ['\\', 't']
  else if c = '\x00' then ['\\', '0']
  else if Unicode.isHidden c || Unicode.isExtender c then escapeCodePoint c
  else [c]

/-- The text between quotes. -/
def quoted (s : String) : String :=
  "\"" ++ String.ofList (s.toList.flatMap escapeQuoted) ++ "\""

end Text

/-- A list in brackets. -/
def bracketed (items : List String) : String :=
  "[" ++ ", ".intercalate items ++ "]"

namespace Json

mutual

/-- The text by which a message shows a JSON value. -/
def inspect : Json → String
  | null => "Null"
  | bool b => "Bool(" ++ toString b ++ ")"
  | number n => "Number(" ++ n.print ++ ")"
  | string s => "String(" ++ Text.quoted s ++ ")"
  | array items => "Array " ++ bracketed (inspectItems items)
  | object members => "Object \x7b" ++ ", ".intercalate (inspectMembers members) ++ "\x7d"

/-- The texts of the items of a list. -/
def inspectItems : List Json → List String
  | [] => []
  | item :: rest => inspect item :: inspectItems rest

/-- The texts of the members of an object. -/
def inspectMembers : List (String × Json) → List String
  | [] => []
  | (key, value) :: rest => (Text.quoted key ++ ": " ++ inspect value) :: inspectMembers rest

end

end Json

namespace Datum

/-- The text by which a message shows a datum. -/
def inspect : Datum → String
  | null => "Null"
  | bool b => "Bool(" ++ toString b ++ ")"
  | int n => "Int(" ++ toString n.toInt ++ ")"
  | float x => "Float(" ++ x.toText .inspection ++ ")"
  | text s => "Text(" ++ Text.quoted s ++ ")"
  | uuid u => "Uuid(" ++ u.toText ++ ")"
  | instant t => "Timestamp(" ++ t.toText ++ ")"
  | ints l => "IntArray(" ++ bracketed (l.map fun n => toString n.toInt) ++ ")"
  | texts l => "TextArray(" ++ bracketed (l.map Text.quoted) ++ ")"
  | json j => "Json(" ++ j.inspect ++ ")"

end Datum

end SqlAssembly
