import SqlAssembly.Assoc.Basic

/-!
# What the operations of an association do

An association is seen through its names, `Assoc.keys`, and through `Assoc.get?`.

* `Assoc.keys_insert` and `Assoc.get?_insert` say what giving a name a value does to both.
* `Assoc.get?_merge` says that the second map wins.
* `Assoc.mem_keys_iff` says that the names are those that have a value.
-/

namespace SqlAssembly

namespace Assoc

variable {α : Type}

@[simp] theorem entries_empty : (∅ : Assoc α).entries = [] := rfl

@[simp] theorem keys_empty : (∅ : Assoc α).keys = [] := rfl

@[simp] theorem get?_empty (name : String) : (∅ : Assoc α).get? name = none := rfl

/-- Two maps with the same entries are the same map. -/
theorem eq_of_entries {m n : Assoc α} (h : m.entries = n.entries) : m = n := by
  cases m
  cases n
  cases h
  rfl

/-- A known name keeps its place, and an unknown one comes last. -/
theorem keys_insert (m : Assoc α) (name : String) (value : α) :
    (m.insert name value).keys = if name ∈ m.keys then m.keys else m.keys ++ [name] :=
  map_fst_put name value m.entries

theorem lookup_cons_eq_ite (entry : String × α) (l : List (String × α)) (name : String) :
    (entry :: l).lookup name = if name = entry.1 then some entry.2 else l.lookup name := by
  rw [List.lookup_cons]
  by_cases h : name = entry.1
  · rw [if_pos h, beq_iff_eq.2 h]
  · rw [if_neg h, beq_false_of_ne h]

theorem lookup_put (name other : String) (value : α) (l : List (String × α)) :
    (put name value l).lookup other = if other = name then some value else l.lookup other := by
  induction l with
  | nil => rw [put, lookup_cons_eq_ite]
  | cons entry rest ih =>
    by_cases hk : entry.1 = name
    · subst hk
      by_cases h : other = entry.1 <;> simp [put, lookup_cons_eq_ite, h]
    · by_cases h : other = entry.1
      · simp [put, hk, lookup_cons_eq_ite, h]
      · simp [put, hk, lookup_cons_eq_ite, h, ih]

/-- The name has the new value, and every other name the value it had. -/
@[simp] theorem get?_insert (m : Assoc α) (name other : String) (value : α) :
    (m.insert name value).get? other = if other = name then some value else m.get? other :=
  lookup_put name other value m.entries

theorem lookup_isSome_iff (name : String) (l : List (String × α)) :
    (l.lookup name).isSome ↔ name ∈ l.map Prod.fst := by
  induction l with
  | nil => simp
  | cons entry rest ih =>
    by_cases h : name = entry.1
    · simp [lookup_cons_eq_ite, h]
    · rw [lookup_cons_eq_ite, if_neg h, ih, List.map_cons, List.mem_cons, or_iff_right h]

theorem mem_of_lookup {l : List (String × α)} {name : String} {value : α}
    (h : l.lookup name = some value) : (name, value) ∈ l := by
  induction l with
  | nil => cases h
  | cons entry l ih =>
    rw [lookup_cons_eq_ite] at h
    split at h
    · next hn =>
      cases h
      rw [hn]
      exact List.mem_cons_self
    · exact List.mem_cons_of_mem _ (ih h)

/-- The names are those that have a value. -/
theorem mem_keys_iff {m : Assoc α} {name : String} : name ∈ m.keys ↔ (m.get? name).isSome :=
  (lookup_isSome_iff name m.entries).symm

theorem mem_keys_of_get? {m : Assoc α} {name : String} {value : α}
    (h : m.get? name = some value) : name ∈ m.keys :=
  mem_keys_iff.2 (by rw [h]; rfl)

/-- A map that is not empty has a value for a name. -/
theorem isEmpty_eq_false_iff {m : Assoc α} :
    m.isEmpty = false ↔ ∃ name value, m.get? name = some value := by
  simp only [← Option.isSome_iff_exists, ← mem_keys_iff]
  rw [isEmpty, List.isEmpty_eq_false_iff_exists_mem]
  constructor
  · rintro ⟨entry, h⟩
    exact ⟨entry.1, List.mem_map_of_mem h⟩
  · rintro ⟨name, h⟩
    obtain ⟨entry, he, -⟩ := List.mem_map.1 h
    exact ⟨entry, he⟩

theorem get?_foldl_insert (l : List (String × α)) (m : Assoc α) (name : String) :
    (l.foldl (fun m entry => m.insert entry.1 entry.2) m).get? name =
      (l.reverse.lookup name).or (m.get? name) := by
  induction l generalizing m with
  | nil => rfl
  | cons entry rest ih =>
    rw [List.foldl_cons, ih, get?_insert, List.reverse_cons, List.lookup_append,
      lookup_cons_eq_ite, List.lookup_nil, Option.or_assoc]
    split <;> rfl

theorem lookup_reverse {l : List (String × α)} (h : (l.map Prod.fst).Nodup) (name : String) :
    l.reverse.lookup name = l.lookup name := by
  induction l with
  | nil => rfl
  | cons entry rest ih =>
    obtain ⟨hn, hr⟩ := List.nodup_cons.1 h
    rw [List.reverse_cons, List.lookup_append, ih hr, lookup_cons_eq_ite, lookup_cons_eq_ite,
      List.lookup_nil]
    by_cases e : name = entry.1
    · have : rest.lookup name = none := by
        rw [← Option.not_isSome_iff_eq_none, lookup_isSome_iff, e]
        exact hn
      rw [this, if_pos e, Option.none_or]
    · rw [if_neg e, if_neg e, Option.or_none]

/-- A merged map has the values of the second map, and those of the first for all other names. -/
@[simp] theorem get?_merge (m n : Assoc α) (name : String) :
    (m.merge n).get? name = (n.get? name).or (m.get? name) := by
  unfold merge
  rw [get?_foldl_insert, lookup_reverse n.keys_nodup]
  rfl

/-- Of several entries with one name the last counts. -/
theorem get?_ofList (l : List (String × α)) (name : String) :
    (ofList l).get? name = l.reverse.lookup name := by
  rw [ofList, get?_foldl_insert, get?_empty, Option.or_none]

/-! ### Changing the values -/

variable {β : Type} (f : α → β)

theorem keys_map (m : Assoc α) : (m.map f).keys = m.keys := by
  simp [keys, map]

theorem isEmpty_map (m : Assoc α) : (m.map f).isEmpty = m.isEmpty :=
  List.isEmpty_map

theorem get?_map (m : Assoc α) (name : String) : (m.map f).get? name = (m.get? name).map f := by
  change (m.entries.map fun entry => (entry.1, f entry.2)).lookup name = (m.entries.lookup name).map f
  induction m.entries with
  | nil => rfl
  | cons entry rest ih =>
    rw [List.map_cons, lookup_cons_eq_ite, lookup_cons_eq_ite, ih]
    split <;> rfl

theorem map_insert (m : Assoc α) (name : String) (value : α) :
    (m.insert name value).map f = (m.map f).insert name (f value) := by
  refine eq_of_entries ?_
  change (put name value m.entries).map _ = put name (f value) (m.entries.map _)
  induction m.entries with
  | nil => rfl
  | cons entry rest ih =>
    rw [put, List.map_cons, put]
    split
    · rfl
    · rw [List.map_cons, ih]

theorem map_merge (m n : Assoc α) : (m.merge n).map f = (m.map f).merge (n.map f) := by
  change (n.entries.foldl _ m).map f = (n.entries.map _).foldl _ (m.map f)
  rw [List.foldl_map]
  induction n.entries generalizing m with
  | nil => rfl
  | cons entry rest ih => rw [List.foldl_cons, List.foldl_cons, ih, map_insert]

end Assoc

end SqlAssembly
