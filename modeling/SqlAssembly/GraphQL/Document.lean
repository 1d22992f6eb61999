import SqlAssembly.Assoc.Basic
import SqlAssembly.Fault

/-!
# Documents

The part of a GraphQL document that says which fields are wanted: operations and fragments with
their selection sets. Aliases, arguments, directives and types do not change which fields are
wanted, so they have no place here.

A `SelectionSet` is a list whose cells are of three sorts, with the sets further down in the cells,
so that every function on it is a plain recursion.
-/

namespace SqlAssembly.GraphQL

/-- What stands between the braces of a selection set. -/
inductive SelectionSet where
  | empty
  | field (name : String) (children : SelectionSet) (rest : SelectionSet)
  /-- A fragment that is written in place, then more selections. -/
  | inline (body : SelectionSet) (rest : SelectionSet)
  /-- A fragment that is spread by its name, then more selections. -/
  | spread (name : String) (rest : SelectionSet)
deriving DecidableEq, Repr

instance : Inhabited SelectionSet := ⟨.empty⟩

/-- A definition of a document. -/
inductive Definition where
  | operation (root : SelectionSet)
  | fragment (name : String) (body : SelectionSet)
deriving DecidableEq, Repr

/-- The selection set of a definition, if it is an operation. -/
def Definition.root? : Definition → Option SelectionSet
  | operation root => some root
  | fragment _ _ => none

/-- The name and the selection set of a definition, if it is a fragment. -/
def Definition.fragment? : Definition → Option (String × SelectionSet)
  | operation _ => none
  | fragment name body => some (name, body)

/-- A document. -/
structure Document where
  definitions : List Definition
deriving DecidableEq, Repr

namespace Document

/-- The fragments by their names; of two with one name the later counts. -/
def fragments (d : Document) : Assoc SelectionSet :=
  Assoc.ofList (d.definitions.filterMap Definition.fragment?)

/-- The selection set of the operation; there has to be exactly one. -/
def root (d : Document) : Except Fault SelectionSet :=
  match d.definitions.filterMap Definition.root? with
  | [] => .error (.configuration .noOperation)
  | [root] => .ok root
  | _ :: _ :: _ => .error (.configuration .severalOperations)

end Document

end SqlAssembly.GraphQL
