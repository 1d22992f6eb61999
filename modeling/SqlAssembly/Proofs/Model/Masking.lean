import SqlAssembly.Proofs.Clause.Masking
import SqlAssembly.Proofs.Model.Emitted

/-!
# Selections without their data

The data of a model decide in one place what a selection does: where a name is bound twice, they
have to be equal. Absent values are always equal, so where a selection of a model succeeds, the same
selection of the masked model does.

* `Collects.masked`: a walk over the fields can be made over the masked fields.
* `select_masked`: the query of the masked model is the masked query.
-/

namespace SqlAssembly

/-- The column with every datum absent. -/
def Column.masked (c : Column) : Column :=
  { c with condition := c.condition.map Predicate.masked }

/-- The link with every datum absent. -/
def Link.masked (l : Link) : Link :=
  { l with condition := l.condition.masked }

/-- The fields with every datum absent, at any depth. -/
def Fields.masked : Fields → Fields
  | empty => empty
  | column name c rest => column name c.masked rest.masked
  | relation name link table target rest =>
    relation name link.masked table target.masked rest.masked

/-- The model with every datum absent. -/
def Model.masked (m : Model) : Model :=
  { m with fields := m.fields.masked }

/-- What was gathered with every datum absent. -/
def Gathered.masked (g : Gathered) : Gathered :=
  { g with bindings := g.bindings.masked }

/-- The query up to its conditions, and these with every datum absent. -/
def Select.masked (s : Select) : Select :=
  { s with conditions := s.conditions.map Predicate.masked }

/-! ### What masking hides -/

/-- The datum that a column binds does not show. -/
theorem Column.masked_bind (c : Column) (name : String) (d d' : Datum) :
    (c.bind name d).masked = (c.bind name d').masked := by
  simp only [masked, bind, Option.map_some, Predicate.masked_bind]

/-- The datum that the condition of a link binds does not show. -/
theorem Link.masked_bind (l : Link) (name : String) (d d' : Datum) :
    (l.bind name d).masked = (l.bind name d').masked := by
  simp only [masked, bind, Predicate.masked_bind]

/-! ### The parts of a walk -/

theorem Column.bindings_masked (c : Column) : c.masked.bindings = c.bindings.masked := by
  rw [bindings, bindings, masked]
  cases c.condition <;> rfl

theorem Column.filter?_masked (c : Column) : c.masked.filter? = c.filter? := by
  rw [filter?, filter?, masked]
  cases c.condition <;> rfl

/-- Absent values are equal, so bindings that come together do so without their data. -/
theorem Bindings.unify_masked {b c b' : Bindings} (h : b.unify c = .ok b') :
    b.masked.unify c.masked = .ok b'.masked := by
  unfold unify at h ⊢
  change (c.entries.map fun entry => (entry.1, Datum.null)).foldlM _ b.masked = _
  rw [List.foldlM_map]
  generalize c.entries = l at h ⊢
  induction l generalizing b with
  | nil =>
    cases h
    rfl
  | cons entry l ih =>
    rw [List.foldlM_cons, bind_eq_ok_iff] at h ⊢
    obtain ⟨b₁, hstep, h⟩ := h
    refine ⟨b₁.masked, ?_, ih h⟩
    rw [masked, Assoc.get?_map]
    cases hb : b.get? entry.1 with
    | none =>
      simp only [hb] at hstep
      cases hstep
      exact congrArg Except.ok (Assoc.map_insert _ b entry.1 entry.2).symm
    | some present =>
      simp only [hb] at hstep
      -- the bindings stay, whatever the two data are
      have hstay : b = b₁ := by
        split at hstep
        · exact Except.ok.inj hstep
        · cases hstep
      rw [hstay]
      rfl

namespace Gathered

theorem addColumn_masked {g g' : Gathered} {c : Column} (h : g.addColumn c = .ok g') :
    g.masked.addColumn c.masked = .ok g'.masked := by
  obtain ⟨b, hb, rfl⟩ := addColumn_eq_ok_iff.1 h
  have hbindings := Bindings.unify_masked hb
  rw [← Column.bindings_masked] at hbindings
  refine addColumn_eq_ok_iff.2 ⟨b.masked, hbindings, ?_⟩
  rw [Column.filter?_masked]
  rfl

theorem addRelation_masked {g g' : Gathered} {x : String} {b : Bindings}
    (h : g.addRelation x b = .ok g') : g.masked.addRelation x b.masked = .ok g'.masked := by
  obtain ⟨b', hb, rfl⟩ := addRelation_eq_ok_iff.1 h
  exact addRelation_eq_ok_iff.2 ⟨b'.masked, Bindings.unify_masked hb, rfl⟩

theorem conditions_masked (g : Gathered) :
    g.masked.conditions = g.conditions.map Predicate.masked := by
  have htexts : (g.filters.eraseDups.map Predicate.ofText).map Predicate.masked =
      g.filters.eraseDups.map Predicate.ofText := by
    rw [List.map_map]
    rfl
  have hempty : g.masked.bindings.isEmpty = g.bindings.isEmpty := Assoc.isEmpty_map _ _
  rw [conditions, conditions, List.map_append, htexts, hempty]
  split <;> rfl

theorem finish_masked {g : Gathered} {table : String} {s : Select}
    (h : g.finish table = .ok s) : g.masked.finish table = .ok s.masked := by
  obtain ⟨hselects, rfl⟩ := finish_eq_ok_iff.1 h
  refine finish_eq_ok_iff.2 ⟨hselects, ?_⟩
  rw [conditions_masked]
  rfl

end Gathered

theorem Select.query_masked (s : Select) : s.masked.query = s.query.masked :=
  NamedQuery.ofParts_masked s.head s.conditions

theorem Link.query_masked (l : Link) (s : Select) :
    l.masked.query s.masked = (l.query s).masked := by
  have hconditions : s.masked.conditions ++ [l.masked.condition] =
      (s.conditions ++ [l.condition]).map Predicate.masked := by
    rw [List.map_append]
    rfl
  rw [query, query, hconditions]
  exact NamedQuery.ofParts_masked s.head (s.conditions ++ [l.condition])

/-! ### Walks and selections -/

/-- A request leaves the same fields, masked or not. -/
theorem Fields.emitted_masked (fs : Fields) (r : Request) :
    fs.masked.emitted r = (fs.emitted r).masked := by
  induction fs generalizing r with
  | empty => rfl
  | column name c rest ih =>
    rw [masked, emitted, emitted, ih]
    split <;> rfl
  | relation name link table target rest iht ih =>
    rw [masked, emitted, emitted, ih]
    cases r.under? name with
    | none => rfl
    | some nested =>
      dsimp only
      rw [iht]
      rfl

/-- A walk over fields can be made over the masked fields. -/
theorem Collects.masked {g g' : Gathered} {fs : Fields} (h : Collects g fs g') :
    Collects g.masked fs.masked g'.masked := by
  induction h with
  | empty g => exact .empty g.masked
  | column hc _ ih => exact .column (Gathered.addColumn_masked hc) ih
  | @relation name link table target rest g inner g₁ g' s _ hs hr _ iht ih =>
    refine .relation iht (Gathered.finish_masked hs) ?_ ih
    rw [Link.query_masked]
    exact Gathered.addRelation_masked hr

/-- The query of the masked model is the masked query. -/
theorem select_masked {m : Model} {w : Wanted} {s : Select} (h : (m.select w).result = .ok s) :
    (m.masked.select w).result = .ok s.masked := by
  obtain ⟨r, hr⟩ := exists_resolve_of_select h
  obtain ⟨hempty, hcompile⟩ := (select_eq_ok_iff hr).1 h
  obtain ⟨g, hg, hs⟩ := compile_eq_ok_iff.1 hcompile
  have hr' : w.resolve m.masked.table = .ok r := hr
  refine (select_eq_ok_iff hr').2 ⟨hempty, compile_eq_ok_iff.2 ⟨g.masked, ?_, ?_⟩⟩
  · have hwalk := hg.masked
    rwa [← Fields.emitted_masked] at hwalk
  · exact Gathered.finish_masked hs

end SqlAssembly
