import SqlAssembly.GraphQL.Expansion
import SqlAssembly.Proofs.Request.Merging

/-!
# Envelopes with several data fields

A document may select the field `data` of an envelope more than once, in particular in several
fragments. Of these fields the first one counts.

* `SelectedField.KeepsData` says that no field under any of them is lost.
* `keepsData_iff`: this is so exactly when the later ones want nothing that the first does not want.
-/

namespace SqlAssembly

/-- The selections one behind another. -/
def Selection.concat (l : List Selection) : Selection :=
  ofFields (l.flatMap fields)

namespace SelectedField

/-- The selections under the `data` fields of an envelope, in order. -/
def dataSelections (f : SelectedField) : List Selection :=
  (f.children.fields.filter fun child => child.name = dataField).map children

/-- The request wants the fields under all `data` fields of the envelope, and there is a request if
there is such a field. -/
structure KeepsData (f : SelectedField) : Prop where
  /-- There is no request exactly if there is no such field. -/
  fails : (∃ e, f.request? = .error e) ↔ f.dataSelections = []
  /-- The request is that for the fields under all of them. -/
  keeps : f.dataSelections ≠ [] →
    f.request? = .ok (Request.ofSelection (.concat f.dataSelections))

end SelectedField

theorem Selection.concat_cons (s : Selection) (l : List Selection) :
    concat (s :: l) = s ++ concat l := by
  rw [← ofFields_fields (s ++ concat l), fields_append, concat, concat, fields_ofFields,
    List.flatMap_cons]

theorem Selection.find?_eq (name : String) (s : Selection) :
    s.find? name = s.fields.find? fun child => child.name = name := by
  induction s with
  | empty => rfl
  | field n children rest _ ih =>
    rw [find?, fields, List.find?_cons, ih]
    by_cases h : n = name <;> simp [h]

namespace SelectedField

/-- The request is that for the fields under the first `data` field. -/
theorem request?_eq (f : SelectedField) :
    f.request? = match f.dataSelections with
      | first :: _ => .ok (Request.ofSelection first)
      | [] => .error (.configuration (.noEnvelope f.name)) := by
  have hchild : (f.child? dataField).map children = f.dataSelections.head? := by
    rw [child?, Selection.find?_eq, dataSelections, List.head?_map, List.head?_filter]
  rw [request?]
  cases hd : f.dataSelections with
  | nil =>
    rw [hd, List.head?_nil, Option.map_eq_none_iff] at hchild
    rw [hchild]
  | cons first later =>
    rw [hd, List.head?_cons, Option.map_eq_some_iff] at hchild
    obtain ⟨data, hdata, rfl⟩ := hchild
    rw [hdata]

/-- **Only the first `data` field counts.** No field is lost exactly when all that the later `data`
fields want, at any depth, is wanted by the first. -/
theorem keepsData_iff (f : SelectedField) :
    f.KeepsData ↔ ∀ first later, f.dataSelections = first :: later →
      (Request.ofSelection first).Includes (Request.ofSelection (.concat later)) := by
  have hrequest := f.request?_eq
  constructor
  · intro h first later hd
    have hkeeps := h.keeps (by simp [hd])
    rw [hd] at hrequest hkeeps
    rw [hrequest, Except.ok.injEq, Selection.concat_cons, Request.ofSelection_append] at hkeeps
    exact Request.merge_eq_left_iff.1 hkeeps.symm
  · intro h
    cases hd : f.dataSelections with
    | nil =>
      rw [hd] at hrequest
      exact ⟨iff_of_true ⟨_, hrequest⟩ hd, fun hne => (hne hd).elim⟩
    | cons first later =>
      rw [hd] at hrequest
      refine ⟨iff_of_false (by simp [hrequest]) (by simp [hd]), fun _ => ?_⟩
      rw [hrequest, hd, Selection.concat_cons, Request.ofSelection_append,
        Request.merge_eq_left_iff.2 (h first later hd)]

/-- Articles whose records are selected at two places, with their numbers and with their titles. -/
def twiceSelected : SelectedField where
  name := "articles"
  children := .field dataField (.field "id" .empty .empty)
    (.field dataField (.field "title" .empty .empty) .empty)

/-- The titles are lost. -/
theorem not_keepsData_twiceSelected : ¬twiceSelected.KeepsData := by
  intro h
  have hkeeps := congrArg (fun r => r.toOption.map Request.names) (h.keeps (by decide))
  revert hkeeps
  decide

/-- A fragment beside a field `data` selects the records at two places. -/
example :
    (GraphQL.SelectionSet.field "articles"
      (.field dataField (.field "id" .empty .empty) (.spread "Titled" .empty)) .empty).expand
        (Assoc.ofList [("Titled", .field dataField (.field "title" .empty .empty) .empty)]) [] =
      .ok (.ofFields [twiceSelected]) := by
  cbv

end SelectedField

end SqlAssembly
