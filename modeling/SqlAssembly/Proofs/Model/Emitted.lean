import SqlAssembly.Model.Select
import SqlAssembly.Proofs.Outcome

/-!
# What a request leaves of a model

Of the fields of a model a request leaves those that its query is made of: `Fields.emitted`. The
walk over the fields is described on what is left, without the request.

* `Collects g fs g'` says that taking up all of `fs` turns `g` into `g'`.
* `gather_eq_ok_iff`: a successful walk is this relation.
* `select_eq_ok_iff`: a successful selection is a successful walk and something to select.
* `select_error`: every failure is one of the configuration.
-/

namespace SqlAssembly

/-- The request under a wanted field, unless it wants nothing. -/
def Request.under? (r : Request) (name : String) : Option Request :=
  if r.contains name then (r.nested? name).filter fun nested => !nested.isEmpty else none

namespace Fields

/-- The wanted columns, and the relations with a request under them, whose targets keep what that
request leaves of them. -/
def emitted (r : Request) : Fields → Fields
  | empty => empty
  | column name c rest =>
    if r.contains name then column name c (rest.emitted r) else rest.emitted r
  | relation name link table target rest =>
    match r.under? name with
    | some nested => relation name link table (target.emitted nested) (rest.emitted r)
    | none => rest.emitted r

end Fields

/-- Taking up the fields one after another turns the first state into the last. -/
inductive Collects : Gathered → Fields → Gathered → Prop
  | empty (g : Gathered) : Collects g .empty g
  | column {name : String} {c : Column} {rest : Fields} {g g₁ g' : Gathered}
      (hc : g.addColumn c = .ok g₁) (h : Collects g₁ rest g') :
      Collects g (.column name c rest) g'
  | relation {name : String} {link : Link} {table : String} {target rest : Fields}
      {g inner g₁ g' : Gathered} {s : Select} (ht : Collects {} target inner)
      (hs : inner.finish table = .ok s)
      (hr : g.addRelation (link.expression name (link.query s).text) (link.query s).bindings =
        .ok g₁) (h : Collects g₁ rest g') :
      Collects g (.relation name link table target rest) g'

theorem collects_column_iff {name : String} {c : Column} {rest : Fields} {g g' : Gathered} :
    Collects g (.column name c rest) g' ↔
      ∃ g₁, g.addColumn c = .ok g₁ ∧ Collects g₁ rest g' := by
  constructor
  · rintro (_ | ⟨hc, h⟩)
    exact ⟨_, hc, h⟩
  · rintro ⟨g₁, hc, h⟩
    exact .column hc h

theorem collects_relation_iff {name : String} {link : Link} {table : String}
    {target rest : Fields} {g g' : Gathered} :
    Collects g (.relation name link table target rest) g' ↔
      ∃ inner, Collects {} target inner ∧ ∃ s, inner.finish table = .ok s ∧
        ∃ g₁, g.addRelation (link.expression name (link.query s).text) (link.query s).bindings =
          .ok g₁ ∧ Collects g₁ rest g' := by
  constructor
  · rintro (_ | _ | ⟨ht, hs, hr, h⟩)
    exact ⟨_, ht, _, hs, _, hr, h⟩
  · rintro ⟨inner, ht, s, hs, g₁, hr, h⟩
    exact .relation ht hs hr h

namespace Gathered

/-- There is something to select, and the query is made of all that was gathered. -/
theorem finish_eq_ok_iff {g : Gathered} {table : String} {s : Select} :
    g.finish table = .ok s ↔ g.selects ≠ [] ∧ s = ⟨g.head table, g.conditions⟩ := by
  unfold finish
  cases g.selects with
  | nil => simp
  | cons a l => simp [eq_comm]

theorem finish_error {g : Gathered} {table : String} {e : Fault} (h : g.finish table = .error e) :
    ∃ cause, e = .configuration cause := by
  unfold finish at h
  split at h
  · cases h
    exact ⟨_, rfl⟩
  · cases h

end Gathered

theorem Bindings.unify_error {b other : Bindings} {e : Fault} (h : b.unify other = .error e) :
    ∃ cause, e = .configuration cause := by
  unfold Bindings.unify at h
  generalize other.entries = l at h
  induction l generalizing b with
  | nil => cases h
  | cons entry l ih =>
    rw [List.foldlM_cons, bind_eq_error_iff] at h
    rcases h with h | ⟨b', -, h⟩
    · split at h
      · split at h
        · cases h
        · cases h
          exact ⟨_, rfl⟩
      · cases h
    · exact ih h

namespace Gathered

theorem addColumn_eq_ok_iff {g g' : Gathered} {c : Column} :
    g.addColumn c = .ok g' ↔ ∃ b, g.bindings.unify c.bindings = .ok b ∧
      g' = ⟨g.selects ++ c.selects, g.joins ++ c.joins, g.filters ++ c.filter?.toList, b⟩ := by
  rw [Gathered.addColumn, bind_eq_ok_iff]
  simp only [pure_eq_ok_iff, eq_comm (a := g')]

theorem addRelation_eq_ok_iff {g g' : Gathered} {x : String} {b : Bindings} :
    g.addRelation x b = .ok g' ↔ ∃ b', g.bindings.unify b = .ok b' ∧
      g' = ⟨g.selects ++ [x], g.joins, g.filters, b'⟩ := by
  rw [Gathered.addRelation, bind_eq_ok_iff]
  simp only [pure_eq_ok_iff, eq_comm (a := g')]

theorem addColumn_error {g : Gathered} {c : Column} {e : Fault} (h : g.addColumn c = .error e) :
    ∃ cause, e = .configuration cause := by
  rw [addColumn, bind_eq_error_iff] at h
  rcases h with h | ⟨b, -, h⟩
  · exact Bindings.unify_error h
  · cases h

theorem addRelation_error {g : Gathered} {x : String} {b : Bindings} {e : Fault}
    (h : g.addRelation x b = .error e) : ∃ cause, e = .configuration cause := by
  rw [addRelation, bind_eq_error_iff] at h
  rcases h with h | ⟨b, -, h⟩
  · exact Bindings.unify_error h
  · cases h

end Gathered

/-! ### The walk -/

@[simp] theorem result_reportUnknown (table : String) (fs : Fields) (r : Request) :
    (reportUnknown table fs r).result = .ok () := rfl

theorem result_gather_column (name : String) (c : Column) (rest : Fields) (r : Request)
    (g : Gathered) :
    ((Fields.column name c rest).gather r g).result =
      if r.contains name then g.addColumn c >>= fun g₁ => (rest.gather r g₁).result
      else (rest.gather r g).result := by
  rw [Fields.gather]
  split
  · exact Traced.result_bind _ _
  · rfl

/-- A relation without a request under it is passed over. -/
theorem result_gather_relation (name : String) (link : Link) (table : String)
    (target rest : Fields) (r : Request) (g : Gathered) :
    ((Fields.relation name link table target rest).gather r g).result =
      match r.under? name with
      | some nested => do
        let s ← (← (target.gather nested {}).result).finish table
        let g₁ ← g.addRelation (link.expression name (link.query s).text) (link.query s).bindings
        (rest.gather r g₁).result
      | none => (rest.gather r g).result := by
  rw [Fields.gather, Request.under?]
  split
  · cases r.nested? name with
    | none => rfl
    | some nested =>
      cases hn : nested.isEmpty with
      | true =>
        simp only [hn, Option.filter]
        rfl
      | false =>
        simp only [hn, Option.filter, Bool.not_false, if_true, if_neg Bool.false_ne_true,
          Traced.result_bind, result_reportUnknown]
        rfl
  · rfl

/-- A successful walk takes up what the request leaves of the fields. -/
theorem gather_eq_ok_iff {fs : Fields} {r : Request} {g g' : Gathered} :
    (fs.gather r g).result = .ok g' ↔ Collects g (fs.emitted r) g' := by
  induction fs generalizing r g g' with
  | empty =>
    constructor
    · rintro ⟨⟩
      exact .empty g
    · rintro ⟨⟩
      rfl
  | column name c rest ih =>
    rw [result_gather_column, Fields.emitted]
    split
    · rw [collects_column_iff, bind_eq_ok_iff]
      simp only [ih]
    · exact ih
  | relation name link table target rest iht ih =>
    rw [result_gather_relation, Fields.emitted]
    cases r.under? name with
    | none => exact ih
    | some nested =>
      simp only [bind_eq_ok_iff, collects_relation_iff, iht, ih]

theorem gather_error {fs : Fields} {r : Request} {g : Gathered} {e : Fault}
    (h : (fs.gather r g).result = .error e) : ∃ cause, e = .configuration cause := by
  induction fs generalizing r g with
  | empty => cases h
  | column name c rest ih =>
    rw [result_gather_column] at h
    split at h
    · rcases bind_eq_error_iff.1 h with h | ⟨g₁, -, h⟩
      · exact Gathered.addColumn_error h
      · exact ih h
    · exact ih h
  | relation name link table target rest iht ih =>
    rw [result_gather_relation] at h
    split at h
    · simp only [bind_eq_error_iff] at h
      rcases h with h | ⟨inner, -, h | ⟨s, -, h | ⟨g₁, -, h⟩⟩⟩
      · exact iht h
      · exact Gathered.finish_error h
      · exact Gathered.addRelation_error h
      · exact ih h
    · exact ih h

theorem result_compile (m : Model) (r : Request) :
    (m.compile r).result = (m.fields.gather r {}).result >>= fun g => g.finish m.table := by
  rw [Model.compile, Traced.result_bind, result_reportUnknown]
  exact Traced.result_bind _ _

/-- A successful compilation takes up what the request leaves of the fields, and finds something to
select. -/
theorem compile_eq_ok_iff {m : Model} {r : Request} {s : Select} :
    (m.compile r).result = .ok s ↔
      ∃ g, Collects {} (m.fields.emitted r) g ∧ g.finish m.table = .ok s := by
  rw [result_compile, bind_eq_ok_iff]
  simp only [gather_eq_ok_iff]

theorem compile_error {m : Model} {r : Request} {e : Fault}
    (h : (m.compile r).result = .error e) : ∃ cause, e = .configuration cause := by
  rw [result_compile] at h
  rcases bind_eq_error_iff.1 h with h | ⟨g, -, h⟩
  · exact gather_error h
  · exact Gathered.finish_error h

/-- A selection succeeds only with a request. -/
theorem exists_resolve_of_select {m : Model} {w : Wanted} {s : Select}
    (h : (m.select w).result = .ok s) : ∃ r, w.resolve m.table = .ok r := by
  rw [Model.select, Traced.result_bind] at h
  obtain ⟨r, hr, -⟩ := bind_eq_ok_iff.1 h
  exact ⟨r, hr⟩

theorem result_select {m : Model} {w : Wanted} {r : Request} (hr : w.resolve m.table = .ok r) :
    (m.select w).result =
      if r.isEmpty then .error (.configuration (.emptyRequest m.table))
      else (m.compile r).result := by
  rw [Model.select, Traced.result_bind]
  change (w.resolve m.table >>= _) = _
  rw [hr]
  show Traced.result (if r.isEmpty then _ else _) = _
  split
  · rfl
  · rw [Traced.result_bind]
    cases (m.compile r).result <;> rfl

/-- A successful selection is a successful compilation of a request that wants something. -/
theorem select_eq_ok_iff {m : Model} {w : Wanted} {r : Request} {s : Select}
    (hr : w.resolve m.table = .ok r) :
    (m.select w).result = .ok s ↔ r.isEmpty = false ∧ (m.compile r).result = .ok s := by
  rw [result_select hr]
  cases r.isEmpty <;> simp

theorem select_error {m : Model} {w : Wanted} {r : Request} {e : Fault}
    (hr : w.resolve m.table = .ok r) (h : (m.select w).result = .error e) :
    ∃ cause, e = .configuration cause := by
  rw [result_select hr] at h
  split at h
  · cases h
    exact ⟨_, rfl⟩
  · exact compile_error h

end SqlAssembly
