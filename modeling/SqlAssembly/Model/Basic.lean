import SqlAssembly.Clause.Predicate

/-!
# Models

A `Model` describes a table by the fields that can be asked for. A field is a `Column`, selected
from the row itself and from tables joined to it, or leads over a `Link` to the rows of another
model.

The fields of a model are a list whose cells are of two sorts, and the fields of a related model
hang in the cell of the field that leads there, so that every function on them is a plain recursion.
-/

namespace SqlAssembly

/-- A field that is selected from the row. -/
structure Column where
  selects : List String
  joins : List String := []
  /-- The condition that holds wherever the field is asked for. -/
  condition : Option Predicate := none

namespace Column

/-- The column of one expression. -/
def ofSelect (expression : String) : Column := { selects := [expression] }

/-- The column with one more expression. -/
def select (c : Column) (expression : String) : Column :=
  { c with selects := c.selects ++ [expression] }

/-- The column with one more join. -/
def join (c : Column) (clause : String) : Column :=
  { c with joins := c.joins ++ [clause] }

/-- The column with the given text as its condition. -/
def filter (c : Column) (text : String) : Column :=
  { c with condition := some { c.condition.getD {} with text := some text } }

/-- The column with one more binding for its texts. -/
def bind (c : Column) (name : String) (datum : Datum) : Column :=
  { c with condition := some ((c.condition.getD {}).bind name datum) }

/-- The bindings of the column. -/
def bindings (c : Column) : Bindings :=
  match c.condition with
  | some p => p.bindings
  | none => ∅

/-- The text of the condition, unless it is absent or blank. -/
def filter? (c : Column) : Option String :=
  c.condition.bind Predicate.sql?

end Column

/-- Whether a field leads to one row or to any number of rows. -/
inductive Cardinality where
  | one
  | many
deriving DecidableEq, Repr

/-- How the rows of a related model belong to a row. -/
structure Link where
  cardinality : Cardinality
  /-- The condition that ties them to the row. -/
  condition : Predicate

namespace Link

/-- The link with the given condition. -/
def ofText (cardinality : Cardinality) (text : String) : Link :=
  ⟨cardinality, Predicate.ofText text⟩

/-- The link with one more binding for its condition. -/
def bind (l : Link) (name : String) (datum : Datum) : Link :=
  { l with condition := l.condition.bind name datum }

end Link

/-- The fields of a model. -/
inductive Fields where
  | empty
  | column (name : String) (column : Column) (rest : Fields)
  /-- A field that leads to the rows of another model, given by its table and its fields; then more
  fields. -/
  | relation (name : String) (link : Link) (table : String) (target : Fields) (rest : Fields)

/-- A table and the fields that can be asked for. -/
structure Model where
  /-- The table, which may have an alias. -/
  table : String
  fields : Fields := .empty

/-- A field without its name. -/
inductive Field where
  | column (c : Column)
  | relation (link : Link) (target : Model)

namespace Fields

/-- The fields with their names, in order. -/
def toList : Fields → List (String × Field)
  | empty => []
  | column name c rest => (name, .column c) :: rest.toList
  | relation name link table target rest => (name, .relation link ⟨table, target⟩) :: rest.toList

/-- A field in front of others. -/
def cons (name : String) (f : Field) (rest : Fields) : Fields :=
  match f with
  | .column c => column name c rest
  | .relation link target => relation name link target.table target.fields rest

/-- The fields after one has been declared: in the place of its name if that is known, else last. -/
def declare (name : String) (f : Field) : Fields → Fields
  | empty => cons name f empty
  | column n c rest =>
    if n = name then cons name f rest else column n c (rest.declare name f)
  | relation n link table target rest =>
    if n = name then cons name f rest else relation n link table target (rest.declare name f)

/-- The field of a name. -/
def get? (name : String) : Fields → Option Field
  | empty => none
  | column n c rest => if n = name then some (.column c) else rest.get? name
  | relation n link table target rest =>
    if n = name then some (.relation link ⟨table, target⟩) else rest.get? name

/-- Whether a name is declared. -/
def contains (fs : Fields) (name : String) : Bool :=
  (fs.get? name).isSome

/-- The number of fields. -/
def size (fs : Fields) : Nat :=
  fs.toList.length

end Fields

/-- The model with one more field. A known name gets the new field in its place. -/
def Model.declare (m : Model) (name : String) (f : Field) : Model :=
  { m with fields := m.fields.declare name f }

end SqlAssembly
