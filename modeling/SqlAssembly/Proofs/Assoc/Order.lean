import SqlAssembly.Assoc.Lemmas
import SqlAssembly.Proofs.Firsts

/-!
# The order of an association

Names stand in the order in which they were first given, so an association that is built entry by
entry has the first occurrences of the names.

* `Assoc.keys_ofList` and `Assoc.keys_merge`: the names of a built and of a merged association.
* `Assoc.eq_of_get?`: an association is determined by its names in their order and by its values.
* `Assoc.merge_assoc`: it does not matter which associations are merged first.
-/

namespace SqlAssembly.Assoc

variable {α : Type}

theorem keys_foldl_insert (l : List (String × α)) (m : Assoc α) :
    (l.foldl (fun m entry => m.insert entry.1 entry.2) m).keys =
      (m.keys ++ l.map Prod.fst).eraseDups := by
  induction l using List.reverseRecOn with
  | nil => simp [eraseDups_of_nodup m.keys_nodup, keys]
  | append_singleton l entry ih =>
    rw [List.foldl_append, List.foldl_cons, List.foldl_nil, keys_insert, ih, List.map_append,
      List.map_singleton, ← List.append_assoc, eraseDups_concat]
    simp only [List.mem_eraseDups]

/-- The names of an association that is built entry by entry. -/
theorem keys_ofList (l : List (String × α)) : (ofList l).keys = (l.map Prod.fst).eraseDups := by
  rw [ofList, keys_foldl_insert, keys_empty, List.nil_append]

/-- The names of the first association come first. -/
theorem keys_merge (m n : Assoc α) : (m.merge n).keys = (m.keys ++ n.keys).eraseDups :=
  keys_foldl_insert n.entries m

/-- The entries, told from the names and the values. -/
theorem entries_eq_filterMap (m : Assoc α) :
    m.entries = m.keys.filterMap fun name => (m.get? name).map (name, ·) := by
  obtain ⟨l, hl⟩ := m
  change l = (l.map Prod.fst).filterMap fun name => (l.lookup name).map (name, ·)
  induction l with
  | nil => rfl
  | cons entry l ih =>
    obtain ⟨hentry, hnodup⟩ := List.nodup_cons.1 hl
    -- no other name is that of the first entry, so the look-ups in the rest stay what they are
    have hrest : ((l.map Prod.fst).filterMap fun name =>
        ((entry :: l).lookup name).map (name, ·)) = l := by
      conv_rhs => rw [ih hnodup]
      refine List.filterMap_congr fun name hname => ?_
      have hne : name ≠ entry.1 := fun e => hentry (e ▸ hname)
      rw [lookup_cons_eq_ite, if_neg hne]
    rw [List.map_cons, List.filterMap_cons_some (b := entry), hrest]
    rw [lookup_cons_eq_ite, if_pos rfl]
    rfl

/-- Associations with the same names in the same order and the same values are the same. -/
theorem eq_of_get? {m n : Assoc α} (hkeys : m.keys = n.keys)
    (hget : ∀ name, m.get? name = n.get? name) : m = n := by
  refine eq_of_entries ?_
  rw [entries_eq_filterMap, entries_eq_filterMap n, hkeys]
  simp only [hget]

/-- Entries without repeated names stay as they are. -/
theorem entries_ofList {l : List (String × α)} (h : (l.map Prod.fst).Nodup) :
    (ofList l).entries = l := by
  have heq : ofList l = ⟨l, h⟩ := by
    refine eq_of_get? ?_ fun name => ?_
    · rw [keys_ofList, eraseDups_of_nodup h, keys]
    · rw [get?_ofList, lookup_reverse h, get?]
  rw [heq]

/-- A name has a value when the two are an entry. -/
theorem get?_eq_some_iff {m : Assoc α} {name : String} {value : α} :
    m.get? name = some value ↔ (name, value) ∈ m.entries := by
  refine ⟨mem_of_lookup, fun h => List.lookup_eq_some_iff.2 ?_⟩
  obtain ⟨before, after, hsplit⟩ := List.append_of_mem h
  refine ⟨before, after, hsplit, fun entry hentry => ?_⟩
  have hnodup := m.keys_nodup
  rw [hsplit, List.map_append, List.map_cons] at hnodup
  have hne := (List.nodup_append.1 hnodup).2.2 entry.1 (List.mem_map_of_mem hentry) name
    List.mem_cons_self
  simpa using Ne.symm hne

/-- The order of entries without repeated names does not matter for the values. -/
theorem get?_ofList_of_perm {l : List (String × α)} {m : Assoc α} (h : l.Perm m.entries)
    (name : String) : (ofList l).get? name = m.get? name := by
  have hnodup : (l.map Prod.fst).Nodup := (h.map Prod.fst).nodup_iff.2 m.keys_nodup
  ext value
  rw [get?_eq_some_iff, get?_eq_some_iff, entries_ofList hnodup, h.mem_iff]

@[simp] theorem ofList_entries (m : Assoc α) : ofList m.entries = m :=
  eq_of_entries (entries_ofList m.keys_nodup)

/-- It does not matter which associations are merged first. -/
theorem merge_assoc (a b c : Assoc α) : (a.merge b).merge c = a.merge (b.merge c) := by
  refine eq_of_get? ?_ fun name => ?_
  · rw [keys_merge, keys_merge, keys_merge, keys_merge, eraseDups_eraseDups_append,
      eraseDups_append_eraseDups, List.append_assoc]
  · simp only [get?_merge, Option.or_assoc]

@[simp] theorem empty_merge (m : Assoc α) : (∅ : Assoc α).merge m = m :=
  ofList_entries m

end SqlAssembly.Assoc
