import SqlAssembly.Clause.Predicate
import SqlAssembly.Json.Printer
import SqlAssembly.Unicode.Word

/-!
# Filter rules

A `Rule` says which condition a filter of some name stands for. It names a column, and may give a
template in which `:value` stands for the value of the filter. The condition refers to the value by
the name of the filter.

* `Rule.render` is the text of the condition.
* `compileFilters` turns filters into predicates, one each and in order; every filter needs a rule.
-/

namespace SqlAssembly

/-- The condition that a filter stands for. -/
structure Rule where
  table : String
  field : String
  /-- The text of the condition, with `:value` for the value; without it the column is compared with
  the value. -/
  template : Option String := none
deriving DecidableEq, Repr

/-- The rules by the names of the filters. -/
abbrev Rules := Assoc Rule

namespace Rule

/-- Whether a word ends before the given text. -/
def endsWord : List Char → Bool
  | [] => true
  | c :: _ => !Unicode.isWord c

/-- The template with every `:value` that ends a word replaced. -/
def substitute (replacement : List Char) : List Char → List Char
  | ':' :: 'v' :: 'a' :: 'l' :: 'u' :: 'e' :: rest =>
    if endsWord rest then replacement ++ substitute replacement rest
    else ":value".toList ++ substitute replacement rest
  | c :: rest => c :: substitute replacement rest
  | [] => []

/-- The condition of the filter `name`. -/
def render (r : Rule) (name : String) : String :=
  match r.template with
  | some template => String.ofList (substitute (':' :: name.toList) template.toList)
  | none => r.table ++ "." ++ r.field ++ " = :" ++ name

/-- The rule as a JSON object. -/
def toJson (r : Rule) : Json :=
  .object [("table", .string r.table), ("field", .string r.field),
    ("query", match r.template with | some s => .string s | none => .null)]

/-- Reads a rule. -/
def ofSource? (source : Json.Source) : Option Rule := do
  match ← source.record? ["table", "field", "query"] with
  | [some table, some field, template] =>
    return ⟨← table.text?, ← field.text?, ← Json.Source.optional? Json.Source.text? template⟩
  | _ => none

end Rule

/-- Turns filters into predicates, each bound to the value under the filter's own name. -/
def compileFilters (filters : Bindings) (rules : Rules) : Except Fault (List Predicate) :=
  filters.entries.mapM fun (name, datum) =>
    match rules.get? name with
    | some rule => .ok ((Predicate.ofText (rule.render name)).bind name datum)
    | none => .error (.configuration (.missingRule name))

namespace Rules

/-- The rules as a JSON object, in their order. -/
def toJson (rules : Rules) : Json :=
  .object (rules.map Rule.toJson).entries

/-- The rules of the JSON text of an object, in the order of its keys. -/
def read? (s : String) : Option Rules := do
  let members ← (← Json.Source.parse? s).members?
  let entries ← members.mapM fun (name, source) => do return (name, ← Rule.ofSource? source)
  return Assoc.ofList entries

end Rules

end SqlAssembly
