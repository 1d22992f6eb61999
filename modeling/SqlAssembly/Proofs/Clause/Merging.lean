import SqlAssembly.Clause.Predicate
import SqlAssembly.Proofs.Assoc.Order

/-!
# The bindings of several predicates

What `mergedBindings` binds: the names of all predicates, each to the last datum that it has.

* `mergedBindings_append`: the bindings of two lists of predicates are merged.
* `keys_mergedBindings`: the names stand in the order in which they first come.
* `get?_mergedBindings_eq_some_iff`: the last predicate that binds a name counts.
-/

namespace SqlAssembly

theorem mergedBindings_append_singleton (ps : List Predicate) (p : Predicate) :
    mergedBindings (ps ++ [p]) = (mergedBindings ps).merge p.bindings := by
  rw [mergedBindings, List.foldl_append]
  rfl

theorem mergedBindings_map_ofText (texts : List String) :
    mergedBindings (texts.map Predicate.ofText) = ∅ := by
  induction texts with
  | nil => rfl
  | cons t texts ih => exact ih

/-- The bindings of the first predicates, with those of the others merged into them. -/
theorem mergedBindings_append (ps qs : List Predicate) :
    mergedBindings (ps ++ qs) = (mergedBindings ps).merge (mergedBindings qs) := by
  induction qs using List.reverseRecOn with
  | nil => rw [List.append_nil]; rfl
  | append_singleton qs q ih =>
    rw [← List.append_assoc, mergedBindings_append_singleton, mergedBindings_append_singleton, ih,
      Assoc.merge_assoc]

/-- The later predicates win. -/
theorem get?_mergedBindings_append (ps qs : List Predicate) (n : String) :
    (mergedBindings (ps ++ qs)).get? n =
      ((mergedBindings qs).get? n).or ((mergedBindings ps).get? n) := by
  rw [mergedBindings_append, Assoc.get?_merge]

theorem get?_mergedBindings_cons (p : Predicate) (ps : List Predicate) (n : String) :
    (mergedBindings (p :: ps)).get? n =
      ((mergedBindings ps).get? n).or (p.bindings.get? n) := by
  have hone : (mergedBindings [p]).get? n = p.bindings.get? n := by
    rw [← List.nil_append [p], mergedBindings_append_singleton, Assoc.get?_merge]
    exact Option.or_none
  rw [← List.singleton_append, get?_mergedBindings_append, hone]

/-- The names are those of the predicates. -/
theorem contains_mergedBindings {ps : List Predicate} {n : String} :
    (mergedBindings ps).contains n = true ↔ ∃ p ∈ ps, p.bindings.contains n = true := by
  induction ps using List.reverseRecOn with
  | nil => simp [mergedBindings, Assoc.contains]
  | append_singleton ps p ih =>
    rw [mergedBindings_append_singleton, Assoc.contains, Assoc.get?_merge, Option.isSome_or,
      Bool.or_eq_true_iff]
    change p.bindings.contains n = true ∨ (mergedBindings ps).contains n = true ↔ _
    rw [ih]
    simp only [List.mem_append, List.mem_singleton, or_and_right, exists_or, exists_eq_left]
    exact or_comm

/-- The names stand in the order in which they first come. -/
theorem keys_mergedBindings (ps : List Predicate) :
    (mergedBindings ps).keys = (ps.flatMap fun p => p.bindings.keys).eraseDups := by
  induction ps using List.reverseRecOn with
  | nil => rfl
  | append_singleton ps p ih =>
    rw [mergedBindings_append_singleton, Assoc.keys_merge, ih, eraseDups_eraseDups_append,
      List.flatMap_append, List.flatMap_singleton]

theorem get?_mergedBindings (ps : List Predicate) (n : String) :
    (mergedBindings ps).get? n = ps.reverse.findSome? fun p => p.bindings.get? n := by
  induction ps using List.reverseRecOn with
  | nil => rfl
  | append_singleton ps p ih =>
    rw [mergedBindings_append_singleton, Assoc.get?_merge, ih, List.reverse_concat,
      List.findSome?_cons]
    cases p.bindings.get? n <;> rfl

/-- The last predicate that binds a name counts. -/
theorem get?_mergedBindings_eq_some_iff {ps : List Predicate} {n : String} {d : Datum} :
    (mergedBindings ps).get? n = some d ↔
      ∃ before p after, ps = before ++ p :: after ∧ p.bindings.get? n = some d ∧
        ∀ q ∈ after, q.bindings.get? n = none := by
  rw [get?_mergedBindings, List.findSome?_eq_some_iff]
  constructor
  · rintro ⟨after, p, before, hps, hp, hafter⟩
    refine ⟨before.reverse, p, after.reverse, ?_, hp, by simpa using hafter⟩
    rw [← List.reverse_reverse ps, hps]
    simp
  · rintro ⟨before, p, after, rfl, hp, hafter⟩
    exact ⟨after.reverse, p, before.reverse, by simp, hp, by simpa using hafter⟩

end SqlAssembly
