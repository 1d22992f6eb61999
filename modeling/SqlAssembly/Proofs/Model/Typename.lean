import SqlAssembly.Model.Select
import SqlAssembly.Proofs.GraphQL.Expansion
import SqlAssembly.Proofs.Request.Pruning

/-!
# Selections without `__typename`

An empty request under a field of a model is like none: `Fields.gather_pruned`. So it makes no
difference for a query that a selection is given with `__typename` in it, or without, as documents
give it: `select_stripped`.
-/

namespace SqlAssembly

/-! ### Empty requests under fields -/

theorem reportUnknown_pruned (table : String) (fs : Fields) (r : Request) :
    reportUnknown table fs r.pruned = reportUnknown table fs r := by
  rw [reportUnknown, reportUnknown, Request.names_pruned]

theorem Fields.gather_pruned (fs : Fields) (r : Request) (g : Gathered) :
    fs.gather r.pruned g = fs.gather r g := by
  induction fs generalizing r g with
  | empty => rfl
  | column name c rest ih => simp only [Fields.gather, Request.contains_pruned, ih]
  | relation name link table target rest ihTarget ih =>
    simp only [Fields.gather, Request.contains_pruned, Request.nested?_pruned]
    split
    · cases r.nested? name with
      | none => simp only [Option.bind_none, ih]
      | some nested =>
        rw [Option.bind_some]
        cases hn : nested.isEmpty with
        | true => simp [ih, hn]
        | false => simp [ih, ihTarget, hn, reportUnknown_pruned]
    · exact ih r g

/-- The query for a request is that for what is left of it. -/
theorem Model.compile_pruned (m : Model) (r : Request) : m.compile r.pruned = m.compile r := by
  rw [Model.compile, Model.compile, reportUnknown_pruned, Fields.gather_pruned]

/-! ### Selections -/

namespace Selection

/-- The selection as a document writes it. -/
def toSet : Selection → GraphQL.SelectionSet
  | empty => .empty
  | field name children rest => .field name children.toSet rest.toSet

/-- A document leaves out what `stripped` leaves out. -/
theorem expand_toSet (s : Selection) (fragments : Assoc GraphQL.SelectionSet)
    (stack : List String) : s.toSet.expand fragments stack = .ok s.stripped := by
  induction s with
  | empty => exact GraphQL.expand_empty
  | field name children rest ihChildren ih =>
    rw [toSet, GraphQL.expand_field, stripped, ihChildren, ih]
    split <;> rfl

theorem find?_stripped {name : String} (h : name ≠ typenameField) (s : Selection) :
    s.stripped.find? name =
      (s.find? name).map fun f => ⟨f.name, f.children.stripped⟩ := by
  induction s with
  | empty => rfl
  | field n children rest _ ih =>
    rw [stripped, find?]
    split
    · next ht =>
      have hn : n ≠ name := fun e => h (e ▸ ht)
      rw [if_neg hn, ih]
    · rw [find?, ih]
      split <;> rfl

end Selection

namespace SelectedField

/-- The field with `__typename` left out at every depth under it. -/
def stripped (f : SelectedField) : SelectedField :=
  ⟨f.name, f.children.stripped⟩

theorem request?_stripped (f : SelectedField) :
    f.stripped.request? = Request.pruned <$> f.request? := by
  have hchild : f.stripped.child? dataField = (f.child? dataField).map stripped :=
    Selection.find?_stripped (by decide) f.children
  rw [request?, request?, hchild]
  cases f.child? dataField with
  | none => rfl
  | some data => exact congrArg Except.ok (Request.ofSelection_stripped data.children)

end SelectedField

/-- **`__typename` makes no difference.** A model gives the same query or the same fault, with the
same reports, for an envelope with `__typename` in it and for the envelope without, which is the one
that a document with these fields gives. -/
theorem select_stripped (m : Model) (f : SelectedField) :
    m.select { selection := some f.stripped } = m.select { selection := some f } ∧
      ∀ fragments stack, f.children.toSet.expand fragments stack = .ok f.stripped.children := by
  refine ⟨?_, f.children.expand_toSet⟩
  have hresolve (f : SelectedField) :
      ({ selection := some f } : Wanted).resolve m.table = f.request? := rfl
  rw [Model.select, Model.select, hresolve, hresolve, SelectedField.request?_stripped]
  cases f.request? with
  | error e => rfl
  | ok r =>
    change (if r.pruned.isEmpty then _ else m.compile r.pruned >>= _) =
      (if r.isEmpty then _ else m.compile r >>= _)
    rw [Request.isEmpty_pruned, Model.compile_pruned]

end SqlAssembly
