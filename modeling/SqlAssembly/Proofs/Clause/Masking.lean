import SqlAssembly.Proofs.Clause.Filtering

/-!
# Clauses without their data

To mask something is to put the absent value in the place of every datum. Names, their order and all
texts stay, so two things with one mask differ only in their data. The outline of a query is what an
observer sees who does not see data.

* `joinPredicates_masked` and `compileFilters_masked`: clauses and the predicates of filters are
  made without a look at the data.
* `Bindings.statement_masked`: so is the statement of a text, which places the data but does not
  read them.
* `NamedQuery.outline_masked`: the outline of a query shows through its mask.
-/

namespace SqlAssembly

/-- The bindings with every datum absent. -/
def Bindings.masked (b : Bindings) : Bindings :=
  b.map fun _ => .null

/-- The predicate with every datum absent. -/
def Predicate.masked (p : Predicate) : Predicate :=
  { p with bindings := p.bindings.masked }

/-- The query with every datum absent. -/
def NamedQuery.masked (q : NamedQuery) : NamedQuery :=
  { q with bindings := q.bindings.masked }

/-- The statement with every datum absent. -/
def Statement.masked (s : Statement) : Statement :=
  { s with data := s.data.map fun _ => .null }

/-- A statement as it looks to one who does not see data. -/
structure Statement.Outline where
  text : String
  count : Nat
deriving DecidableEq

/-- The outline of a statement. -/
def Statement.outline (s : Statement) : Statement.Outline := ⟨s.text, s.data.length⟩

/-- A query as it looks to one who does not see data. -/
structure NamedQuery.Outline where
  text : String
  names : List String
  /-- The outline of the statement that runs the query, or why there is none. -/
  statement : Except Fault Statement.Outline

/-- The outline of a query. -/
def NamedQuery.outline (q : NamedQuery) : NamedQuery.Outline :=
  ⟨q.text, q.bindings.keys, Statement.outline <$> q.statement⟩

@[simp] theorem Bindings.masked_masked (b : Bindings) : b.masked.masked = b.masked := by
  apply Assoc.eq_of_entries
  simp only [masked, Assoc.map, List.map_map, Function.comp_def]

theorem Bindings.masked_merge (b c : Bindings) : masked (b.merge c) = b.masked.merge c.masked :=
  Assoc.map_merge _ b c

@[simp] theorem Predicate.masked_masked (p : Predicate) : p.masked.masked = p.masked := by
  simp only [masked, Bindings.masked_masked]

/-! ### Clauses -/

/-- What a name is bound to does not show. -/
theorem Predicate.masked_bind (p : Predicate) (name : String) (datum : Datum) :
    (p.bind name datum).masked = p.masked.bind name .null := by
  rw [masked, bind, Bindings.masked, Assoc.map_insert]
  rfl

theorem conjuncts_masked (ps : List Predicate) :
    conjuncts (ps.map Predicate.masked) = conjuncts ps := by
  rw [conjuncts, List.filterMap_map]
  rfl

theorem mergedBindings_masked (ps : List Predicate) :
    mergedBindings (ps.map Predicate.masked) = (mergedBindings ps).masked := by
  induction ps using List.reverseRecOn with
  | nil => rfl
  | append_singleton ps p ih =>
    rw [List.map_append, List.map_singleton, mergedBindings_append_singleton,
      mergedBindings_append_singleton, ih, Bindings.masked_merge]
    rfl

/-- A clause is made without a look at the data. -/
theorem joinPredicates_masked (ps : List Predicate) (continues : Bool) :
    joinPredicates (ps.map Predicate.masked) continues = (joinPredicates ps continues).masked := by
  rw [joinPredicates, conjuncts_masked, mergedBindings_masked]
  rfl

theorem NamedQuery.ofParts_masked (head : String) (ps : List Predicate) :
    ofParts head (ps.map Predicate.masked) = (ofParts head ps).masked := by
  rw [ofParts, joinPredicates_masked]
  rfl

/-! ### Filters -/

theorem filterPredicate_masked (rules : Rules) (name : String) (datum : Datum) :
    filterPredicate rules (name, .null) =
      Predicate.masked <$> filterPredicate rules (name, datum) := by
  rw [filterPredicate, filterPredicate]
  cases rules.get? name with
  | none => rfl
  | some rule => exact congrArg Except.ok (Predicate.masked_bind (.ofText _) name datum).symm

/-- The predicates of filters are made without a look at the data. -/
theorem compileFilters_masked (filters : Bindings) (rules : Rules) :
    compileFilters filters.masked rules =
      List.map Predicate.masked <$> compileFilters filters rules := by
  rw [compileFilters_eq_mapM, compileFilters_eq_mapM, ← mapM_map_result, Bindings.masked,
    Assoc.map, List.mapM_map]
  congr 1
  funext filter
  exact filterPredicate_masked rules filter.1 filter.2

/-! ### Statements -/

theorem Bindings.require_masked (b : Bindings) (name : String) :
    b.masked.require name = (fun _ => Datum.null) <$> b.require name := by
  rw [require, require, masked, Assoc.get?_map]
  cases b.get? name <;> rfl

/-- The statement of a text is made without a look at the data. -/
theorem Bindings.statement_masked (b : Bindings) (sql : String) :
    b.masked.statement sql = Statement.masked <$> b.statement sql := by
  have hrequire : b.masked.require = fun name => (fun _ => Datum.null) <$> b.require name :=
    funext b.require_masked
  simp only [statement, hrequire, mapM_map_result, bind_map_left, map_bind, map_pure]
  rfl

@[simp] theorem Statement.outline_masked (s : Statement) : s.masked.outline = s.outline := by
  simp only [outline, masked, List.length_map]

/-- The outline of a query shows through its mask. -/
@[simp] theorem NamedQuery.outline_masked (q : NamedQuery) : q.masked.outline = q.outline := by
  have hnames : q.masked.bindings.keys = q.bindings.keys := Assoc.keys_map _ _
  have hstatement :
      Statement.outline <$> q.masked.statement = Statement.outline <$> q.statement := by
    rw [statement, masked, Bindings.statement_masked, Functor.map_map]
    simp only [Statement.outline_masked]
    rfl
  rw [outline, hnames, hstatement]
  rfl

end SqlAssembly
