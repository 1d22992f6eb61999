import SqlAssembly.Fault
import SqlAssembly.Json.Printer
import SqlAssembly.Json.Reader
import SqlAssembly.Request.Basic

/-!
# Selections

A `Selection` is a list of selected fields, each with a selection under it, in the order of the
document that selects them. A field may be selected more than once. A `SelectedField` is one of
them.

A resolver answers with an envelope, whose field `data` holds the records: `SelectedField.request?`
is the request for the fields under it. The field `__typename` names the type of a record and is no
field of it; `Request.ofSelection` leaves it out at every level.
-/

namespace SqlAssembly

/-- Selected fields. -/
inductive Selection where
  | empty
  | field (name : String) (children : Selection) (rest : Selection)
deriving DecidableEq, Repr

/-- A selected field with the selection under it. -/
structure SelectedField where
  name : String
  children : Selection
deriving DecidableEq, Repr

/-- The field that names the type of a record. -/
def typenameField : String := "__typename"

/-- The field of an envelope that holds the records. -/
def dataField : String := "data"

namespace Selection

instance : EmptyCollection Selection := ⟨empty⟩

instance : Inhabited Selection := ⟨empty⟩

/-- Whether no field is selected. -/
def isEmpty : Selection → Bool
  | empty => true
  | _ => false

/-- One selection after another. -/
def append : Selection → Selection → Selection
  | empty, t => t
  | field name children rest, t => field name children (rest.append t)

instance : Append Selection := ⟨append⟩

/-- The fields one by one. -/
def fields : Selection → List SelectedField
  | empty => []
  | field name children rest => ⟨name, children⟩ :: rest.fields

/-- The selection of the given fields. -/
def ofFields : List SelectedField → Selection
  | [] => empty
  | f :: rest => field f.name f.children (ofFields rest)

@[simp] theorem fields_append (s t : Selection) : (s ++ t).fields = s.fields ++ t.fields := by
  change (s.append t).fields = _
  induction s with
  | empty => rfl
  | field name children rest _ ih => rw [append, fields, ih]; rfl

@[simp] theorem fields_ofFields (l : List SelectedField) : (ofFields l).fields = l := by
  induction l with
  | nil => rfl
  | cons f rest ih => rw [ofFields, fields, ih]

@[simp] theorem ofFields_fields (s : Selection) : ofFields s.fields = s := by
  induction s with
  | empty => rfl
  | field name children rest _ ih => rw [fields, ofFields, ih]

/-- The first field of a name. -/
def find? (name : String) : Selection → Option SelectedField
  | empty => none
  | field n children rest => if n = name then some ⟨n, children⟩ else rest.find? name

end Selection

/-- Wants the selected fields besides those of `r`. -/
def Request.addSelection (r : Request) : Selection → Request
  | .empty => r
  | .field name children rest =>
    if name = typenameField then r.addSelection rest
    else if children.isEmpty then (r.add name).addSelection rest
    else (r.addNested name (addSelection .empty children)).addSelection rest

/-- The request for the selected fields. -/
def Request.ofSelection (s : Selection) : Request :=
  Request.empty.addSelection s

namespace SelectedField

/-- The first child of a name. -/
def child? (f : SelectedField) (name : String) : Option SelectedField :=
  f.children.find? name

/-- The request for the fields under the `data` field of an envelope. -/
def request? (f : SelectedField) : Except Fault Request :=
  match f.child? dataField with
  | some data => .ok (Request.ofSelection data.children)
  | none => .error (.configuration (.noEnvelope f.name))

end SelectedField

mutual

/-- A selected field as a JSON object; a selection without fields is left out. -/
def SelectedField.toJson : String → Selection → Json
  | name, .empty => .object [("name", .string name)]
  | name, .field n children rest =>
    .object [("name", .string name),
      ("children", .array (SelectedField.toJson n children :: Selection.toJson rest))]

/-- The fields of a selection as JSON objects. -/
def Selection.toJson : Selection → List Json
  | .empty => []
  | .field n children rest => SelectedField.toJson n children :: Selection.toJson rest

end

mutual

/-- Reads a selected field whose JSON may nest `depth` deep. -/
def SelectedField.ofSource? : Nat → Json.Source → Option SelectedField
  | 0, _ => none
  | depth + 1, source => do
    match ← source.record? ["name", "children"] with
    | [some name, none] => return ⟨← name.text?, .empty⟩
    | [some name, some (.array items)] =>
      return ⟨← name.text?, ← Selection.ofSources? depth items⟩
    | _ => none

/-- Reads the items of a list of selected fields that may nest `depth` deep. -/
def Selection.ofSources? : Nat → List Json.Source → Option Selection
  | 0, _ => none
  | depth + 1, items => do
    return Selection.ofFields (← items.mapM (SelectedField.ofSource? depth))

end

/-- The selected field of a JSON text. -/
def SelectedField.read? (s : String) : Option SelectedField := do
  SelectedField.ofSource? Json.maxDepth (← Json.Source.parse? s)

end SqlAssembly
