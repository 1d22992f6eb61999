import SqlAssembly.Fault
import SqlAssembly.Sql.Lexeme

/-!
# Statements

A `NamedQuery` is an SQL text with named placeholders and the data bound to their names. A
`Statement` is what a server takes: the placeholders are numbered markers `$1`, `$2`, …, and the
data are a list in the order of the numbers.

`Bindings.statement` numbers the placeholders of a text in the order of their first use, so a name
that is used twice has one number. It leaves every other lexeme as it is, and fails at the first
name without a binding.

A result name is what a column or a subquery of the result is called. Written without quotes a name
is folded to lower case, so only names of lower-case letters, digits and underscores stand without
them; `Sql.resultName` quotes every other name, with each quote inside it doubled.
-/

namespace SqlAssembly

/-- An SQL text with named placeholders, and the data bound to names. -/
structure NamedQuery where
  text : String
  bindings : Bindings

/-- An SQL text with numbered parameters, and their data. -/
structure Statement where
  text : String
  /-- The data, in the order of the numbers. -/
  data : List Datum

namespace Sql

/-- The marker of the parameter with index `i`; markers count from one. -/
def marker (i : Nat) : List Char :=
  '$' :: Nat.toDigits 10 (i + 1)

/-- The text of a lexeme once placeholders have numbers: their places in `names`. -/
def numbered (names : List String) : Lexeme → List Char
  | .placeholder name => marker (names.idxOf (String.ofList name))
  | x => x.text

/-- Whether a character can start a name that needs no quotes. -/
def isPlainStart (c : Char) : Bool :=
  c == '_' || c.isLower

/-- Whether a character can stand in a name that needs no quotes. -/
def isPlainChar (c : Char) : Bool :=
  c == '_' || c.isLower || c.isDigit

/-- Whether a name needs no quotes. -/
def isPlainName : List Char → Bool
  | [] => false
  | c :: rest => isPlainStart c && rest.all isPlainChar

/-- A character inside a quoted name. -/
def doubleQuoteChar (c : Char) : List Char :=
  if c = '"' then ['"', '"'] else [c]

/-- The text that stands for exactly this name. -/
def resultName (name : String) : String :=
  if isPlainName name.toList then name
  else String.ofList ('"' :: name.toList.flatMap doubleQuoteChar ++ ['"'])

end Sql

namespace Bindings

/-- The datum bound to a name. -/
def require (b : Bindings) (name : String) : Except Fault Datum :=
  match b.get? name with
  | some datum => .ok datum
  | none => .error (.configuration (.unboundPlaceholder name))

/-- The statement for an SQL text with named placeholders. -/
def statement (b : Bindings) (sql : String) : Except Fault Statement := do
  let names := (Sql.placeholders sql).eraseDups
  let data ← names.mapM b.require
  let text := (Sql.lexemes none sql.toList).flatMap (Sql.numbered names)
  return ⟨String.ofList text, data⟩

end Bindings

/-- The statement that runs a query. -/
def NamedQuery.statement (q : NamedQuery) : Except Fault Statement :=
  q.bindings.statement q.text

end SqlAssembly
