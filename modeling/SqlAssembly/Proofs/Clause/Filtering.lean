import SqlAssembly.Clause.Rule
import SqlAssembly.Proofs.Clause.Merging
import SqlAssembly.Proofs.Outcome

/-!
# The predicates of filters

* `compileFilters_eq_error_iff`: filters fail at the first one without a rule.
* `get?_mergedBindings_of_compileFilters`: the predicates of filters bind what the filters bind.
-/

namespace SqlAssembly

/-- The predicate of one filter. -/
def filterPredicate (rules : Rules) (filter : String × Datum) : Except Fault Predicate :=
  match rules.get? filter.1 with
  | some rule => .ok ((Predicate.ofText (rule.render filter.1)).bind filter.1 filter.2)
  | none => .error (.configuration (.missingRule filter.1))

theorem compileFilters_eq_mapM (filters : Bindings) (rules : Rules) :
    compileFilters filters rules = filters.entries.mapM (filterPredicate rules) := rfl

theorem filterPredicate_eq_ok_iff {rules : Rules} {filter : String × Datum} {p : Predicate} :
    filterPredicate rules filter = .ok p ↔ ∃ rule, rules.get? filter.1 = some rule ∧
      p = (Predicate.ofText (rule.render filter.1)).bind filter.1 filter.2 := by
  rw [filterPredicate]
  cases rules.get? filter.1 <;> simp [eq_comm]

theorem exists_filterPredicate_iff {rules : Rules} {filter : String × Datum} :
    (∃ p, filterPredicate rules filter = .ok p) ↔ rules.contains filter.1 = true := by
  rw [filterPredicate, Assoc.contains]
  cases rules.get? filter.1 <;> simp

theorem filterPredicate_eq_error_iff {rules : Rules} {filter : String × Datum} {e : Fault} :
    filterPredicate rules filter = .error e ↔
      rules.contains filter.1 = false ∧ e = .configuration (.missingRule filter.1) := by
  rw [filterPredicate, Assoc.contains]
  cases rules.get? filter.1 <;> simp [eq_comm]

/-- Filters fail at the first one without a rule. -/
theorem compileFilters_eq_error_iff {filters : Bindings} {rules : Rules} {e : Fault} :
    compileFilters filters rules = .error e ↔
      ∃ name, (filters.keys.find? fun name => !rules.contains name) = some name ∧
        e = .configuration (.missingRule name) := by
  rw [compileFilters_eq_mapM, mapM_eq_error_iff]
  simp only [exists_filterPredicate_iff, filterPredicate_eq_error_iff, Assoc.keys, List.find?_map,
    Option.map_eq_some_iff, List.find?_eq_some_iff_append, Function.comp_apply, Bool.not_not,
    Bool.not_eq_true']
  constructor
  · rintro ⟨before, filter, after, hl, hbefore, hrule, rfl⟩
    exact ⟨filter.1, ⟨filter, ⟨hrule, before, after, hl, hbefore⟩, rfl⟩, rfl⟩
  · rintro ⟨_, ⟨filter, ⟨hrule, before, after, hl, hbefore⟩, rfl⟩, rfl⟩
    exact ⟨before, filter, after, hl, hbefore, hrule, rfl⟩

/-- The predicates of filters bind what the filters bind. -/
theorem get?_mergedBindings_of_compileFilters {filters : Bindings} {rules : Rules}
    {ps : List Predicate} (h : compileFilters filters rules = .ok ps) (n : String) :
    (mergedBindings ps).get? n = filters.get? n := by
  rw [compileFilters_eq_mapM, mapM_eq_ok_iff] at h
  have hnodup := filters.keys_nodup
  change _ = filters.entries.lookup n
  generalize filters.entries = l at h hnodup ⊢
  induction h with
  | nil => rfl
  | @cons filter p l ps hp _ ih =>
    obtain ⟨hne, hnodup⟩ := List.nodup_cons.1 hnodup
    obtain ⟨rule, -, rfl⟩ := filterPredicate_eq_ok_iff.1 hp
    rw [get?_mergedBindings_cons, ih hnodup, Assoc.lookup_cons_eq_ite, Predicate.bind,
      Assoc.get?_insert]
    split
    -- the name comes once, so the rest does not bind it
    · next hn =>
      rw [← Assoc.lookup_isSome_iff, Option.not_isSome_iff_eq_none, ← hn] at hne
      rw [hne, Option.none_or]
    · exact Option.or_none

end SqlAssembly
