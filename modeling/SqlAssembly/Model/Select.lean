import SqlAssembly.Model.Basic
import SqlAssembly.Request.Selection
import SqlAssembly.Sql.Statement
import SqlAssembly.Trace

/-!
# Selecting from a model

`Model.select` turns a request into a `Select`: the text from `SELECT` to the joins, and the
conditions. The fields of the model are walked in the order of their declaration, whatever the order
of the request.

* A column gives its expressions, its joins, its condition and its bindings.
* A relation with a request under it gives one expression: the related rows as a JSON value, from a
  query of its own with the condition of the link behind it.
* Names that the model does not know, and relations without a request under them, are reported and
  give nothing.

What is given twice is emitted once. Bindings of all parts come together, and a name that two parts
bind to different data is a fault. `Wanted` is what a caller says about the fields.
-/

namespace SqlAssembly

/-- A query up to its conditions, and the conditions. -/
structure Select where
  head : String
  /-- The conditions; the last one may carry bindings alone. -/
  conditions : List Predicate

/-- The query with its conditions. -/
def Select.query (s : Select) : NamedQuery :=
  NamedQuery.ofParts s.head s.conditions

/-- The bindings of `b` and those of `other`. A name that both bind must be bound to equal data. -/
def Bindings.unify (b other : Bindings) : Except Fault Bindings :=
  other.entries.foldlM (fun b entry =>
    match b.get? entry.1 with
    | some present =>
      if present == entry.2 then .ok b
      else .error (.configuration (.conflict entry.1 present entry.2))
    | none => .ok (b.insert entry.1 entry.2)) b

/-- What the fields walked so far have given. -/
structure Gathered where
  selects : List String := []
  joins : List String := []
  filters : List String := []
  bindings : Bindings := ∅

namespace Gathered

/-- Takes up a column. -/
def addColumn (g : Gathered) (c : Column) : Except Fault Gathered := do
  return {
    selects := g.selects ++ c.selects
    joins := g.joins ++ c.joins
    filters := g.filters ++ c.filter?.toList
    bindings := ← g.bindings.unify c.bindings }

/-- Takes up an expression that stands for a relation. -/
def addRelation (g : Gathered) (expression : String) (bindings : Bindings) :
    Except Fault Gathered := do
  return { g with
    selects := g.selects ++ [expression]
    bindings := ← g.bindings.unify bindings }

/-- The conditions: one for each text, then one for the bindings if there are any. -/
def conditions (g : Gathered) : List Predicate :=
  g.filters.eraseDups.map Predicate.ofText ++
    if g.bindings.isEmpty then [] else [Predicate.ofBindings g.bindings]

/-- The text from `SELECT` to the joins. -/
def head (g : Gathered) (table : String) : String :=
  "SELECT " ++ ",".intercalate g.selects.eraseDups ++ " FROM " ++ table ++
    if g.joins.isEmpty then "" else " " ++ " ".intercalate g.joins.eraseDups

/-- The query of all that was gathered; there has to be something to select. -/
def finish (g : Gathered) (table : String) : Except Fault Select :=
  if g.selects.isEmpty then .error (.configuration (.nothingSelectable table))
  else .ok ⟨g.head table, g.conditions⟩

end Gathered

namespace Link

/-- The ending of the name for the rows of a relation. -/
def rowSuffix : Cardinality → String
  | .one => "_row"
  | .many => "_agg"

/-- The function that makes a JSON value of the rows. -/
def jsonFunction : Cardinality → String
  | .one => "to_jsonb"
  | .many => "jsonb_agg"

/-- The expression for the rows that `query` finds, under the name of the field. -/
def expression (l : Link) (name query : String) : String :=
  let inner := Sql.resultName (name ++ rowSuffix l.cardinality)
  "(SELECT " ++ jsonFunction l.cardinality ++ "(" ++ inner ++ ") FROM (" ++ query ++ ") AS " ++
    inner ++ ") AS " ++ Sql.resultName name

/-- The query for the rows of a relation: the condition of the link comes last. -/
def query (l : Link) (inner : Select) : NamedQuery :=
  NamedQuery.ofParts inner.head (inner.conditions ++ [l.condition])

end Link

/-- Reports the names that a table does not have. -/
def reportUnknown (table : String) (fs : Fields) (r : Request) : Traced Unit :=
  ⟨(r.names.filter fun name => !fs.contains name).map fun name =>
    ⟨.trace, "skipping unknown field", [("field", name), ("table", table)]⟩, .ok ()⟩

/-- Reports a relation without a request under it. -/
def reportBare (name : String) : Traced Unit :=
  .report ⟨.trace, "relation requested without nested fields", [("field", name)]⟩

/-- Takes up the requested fields one after another. -/
def Fields.gather (r : Request) (g : Gathered) : Fields → Traced Gathered
  | empty => pure g
  | column name c rest => do
    if r.contains name then rest.gather r (← g.addColumn c) else rest.gather r g
  | relation name link table target rest => do
    if r.contains name then
      match r.nested? name with
      | some nested =>
        if nested.isEmpty then
          reportBare name
          rest.gather r g
        else
          reportUnknown table target nested
          let inner ← (← target.gather nested {}).finish table
          let query := link.query inner
          rest.gather r (← g.addRelation (link.expression name query.text) query.bindings)
      | none =>
        reportBare name
        rest.gather r g
    else rest.gather r g

/-- The query for the requested fields of a model. -/
def Model.compile (m : Model) (r : Request) : Traced Select := do
  reportUnknown m.table m.fields r
  (← m.fields.gather r {}).finish m.table

/-- What a caller says about the fields of a model. -/
structure Wanted where
  names : Option (List String) := none
  /-- The names of fields under fields. -/
  related : Assoc (List String) := ∅
  selection : Option SelectedField := none
  request : Option Request := none

namespace Wanted

/-- The request that counts: the one given as such, else the names, else the envelope. -/
def resolve (w : Wanted) (table : String) : Except Fault Request :=
  match w.request, w.names, w.selection with
  | some r, _, _ => .ok r
  | none, some names, _ => .ok (Request.withRelated names w.related)
  | none, none, some f => f.request?
  | none, none, none => .error (.configuration (.noSource table))

end Wanted

/-- The query for the fields that a caller wants of a model. -/
def Model.select (m : Model) (w : Wanted) : Traced Select := do
  let r ← w.resolve m.table
  if r.isEmpty then Traced.ofExcept (.error (.configuration (.emptyRequest m.table)))
  else
    let s ← m.compile r
    Traced.report ⟨.debug, "compiled field graph",
      [("sql", s.head), ("condition_count", toString s.conditions.length)]⟩
    return s

end SqlAssembly
