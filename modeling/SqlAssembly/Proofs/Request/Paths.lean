import SqlAssembly.Proofs.Request.Merging

/-!
# Paths of a request

A path names a field, then a field under it, and so on. `Request.Wants` says that a request wants
all of them, and `Request.at?` is the request at the end of a path.

* `wants_merge` and `isSome_at?_merge`: a merged request has the paths of both requests.
* `includes_iff`: a request includes another one exactly when it has all its paths.
* `includes_merge_iff`: a merged request is the least one that includes both.
* `eq_of_names_at?`: a request is determined by the names at the end of every path.
-/

namespace SqlAssembly.Request

/-- The request at the end of a path of fields, if there is one. -/
def at? (r : Request) : List String → Option Request
  | [] => some r
  | name :: path => (r.nested? name).bind fun nested => nested.at? path

/-- The path is wanted: its first field is wanted, the next one under it, and so on. -/
inductive Wants : Request → List String → Prop
  | field {r : Request} {name : String} (h : r.contains name = true) : Wants r [name]
  | under {r nested : Request} {name : String} {path : List String}
      (hn : r.nested? name = some nested) (h : Wants nested path) : Wants r (name :: path)

variable {r s t : Request}

@[simp] theorem at?_nil (r : Request) : r.at? [] = some r := rfl

@[simp] theorem at?_cons (r : Request) (name : String) (path : List String) :
    r.at? (name :: path) = (r.nested? name).bind fun nested => nested.at? path := rfl

theorem not_wants_nil : ¬r.Wants [] := nofun

theorem wants_singleton_iff {name : String} : r.Wants [name] ↔ r.contains name = true := by
  refine ⟨fun h => ?_, .field⟩
  cases h with
  | field h => exact h
  | under _ h => exact (not_wants_nil h).elim

theorem wants_cons_iff {name : String} {path : List String} (hp : path ≠ []) :
    r.Wants (name :: path) ↔ ∃ nested, r.nested? name = some nested ∧ nested.Wants path := by
  refine ⟨fun h => ?_, fun ⟨_, hn, h⟩ => .under hn h⟩
  cases h with
  | field => exact (hp rfl).elim
  | under hn h => exact ⟨_, hn, h⟩

/-- A path ends in a field that is wanted by the request at the end of the fields before it. -/
theorem wants_concat_iff {path : List String} {name : String} :
    r.Wants (path ++ [name]) ↔ ∃ u, r.at? path = some u ∧ u.contains name = true := by
  induction path generalizing r with
  | nil => simp [wants_singleton_iff]
  | cons n path ih =>
    rw [List.cons_append, wants_cons_iff (by simp), at?_cons]
    simp only [ih, Option.bind_eq_some_iff]
    constructor
    · rintro ⟨nested, hn, u, hu, h⟩
      exact ⟨u, ⟨nested, hn, hu⟩, h⟩
    · rintro ⟨u, ⟨nested, hn, hu⟩, h⟩
      exact ⟨nested, hn, u, hu, h⟩

/-! ### Induction and extensionality -/

theorem contains_iff {name : String} : r.contains name = true ↔ name ∈ r.names :=
  (r.items.mem_names_iff name).symm

theorem Items.sizeOf_lt_of_nested? {r nested : Items} {name : String}
    (h : r.nested? name = some nested) : sizeOf nested < sizeOf r := by
  induction r using cons_induction with
  | empty => cases h
  | cons n under rest _ ih =>
    have hrest : sizeOf rest < sizeOf (cons n under rest) := by
      cases under <;> simp only [cons, leaf.sizeOf_spec, branch.sizeOf_spec] <;> omega
    rw [nested?_cons] at h
    split at h
    · subst h
      simp only [cons, branch.sizeOf_spec]
      omega
    · exact Nat.lt_trans (ih h) hrest

/-- Induction on the requests under the fields of a request. -/
@[elab_as_elim]
theorem induction_on_nested {motive : Request → Prop}
    (step : ∀ r, (∀ name nested, r.nested? name = some nested → motive nested) → motive r)
    (r : Request) : motive r := by
  refine step r fun name nested h => ?_
  have hlt : sizeOf nested.items < sizeOf r.items := by
    have hi := r.map_items_nested? name
    rw [h] at hi
    exact Items.sizeOf_lt_of_nested? hi.symm
  exact induction_on_nested step nested
termination_by sizeOf r.items

/-- Requests with the same names in the same order, and the same under each of them, are equal. -/
theorem eq_of_nested? (hn : r.names = s.names) (hg : ∀ name, r.nested? name = s.nested? name) :
    r = s := by
  refine eq_of_items (Items.eq_of_nested? r.distinct s.distinct hn fun name => ?_)
  rw [← map_items_nested?, ← map_items_nested?, hg]

/-- A request is determined by the names at the end of every path. -/
theorem eq_of_names_at? (h : ∀ path, (r.at? path).map names = (s.at? path).map names) : r = s := by
  induction r using induction_on_nested generalizing s with
  | step r ih =>
    refine eq_of_nested? (Option.some.inj (h [])) fun name => ?_
    have hunder (path : List String) := h (name :: path)
    simp only [at?_cons] at hunder
    cases hr : r.nested? name with
    | none =>
      have := hunder []
      rw [hr] at this
      cases hs : s.nested? name with
      | none => rfl
      | some y => simp [hs] at this
    | some x =>
      have := hunder []
      rw [hr] at this
      cases hs : s.nested? name with
      | none => simp [hs] at this
      | some y =>
        simp only [hr, hs, Option.bind_some] at hunder
        rw [ih name x hr hunder]

/-! ### Merging -/

theorem contains_merge (r s : Request) (name : String) :
    (r.merge s).contains name = true ↔ r.contains name = true ∨ s.contains name = true := by
  simp only [contains_iff]
  change name ∈ (r.items.merge s.items).names ↔ _
  rw [Items.names_merge r.items s.distinct, List.mem_append, List.mem_filter, decide_eq_true_iff]
  by_cases h : name ∈ r.items.names <;> simp [names, h]

/-- A merged request wants under a field what both requests want there. -/
theorem nested?_merge (r s : Request) (name : String) :
    (r.merge s).nested? name = Option.merge merge (r.nested? name) (s.nested? name) := by
  refine Option.map_injective (fun _ _ h => eq_of_items h) ?_
  rw [map_items_nested?]
  change (r.items.merge s.items).nested? name = _
  rw [Items.nested?_merge r.items s.distinct, ← map_items_nested?, ← map_items_nested?]
  cases r.nested? name <;> cases s.nested? name <;> rfl

/-- At the end of a path a merged request wants what both requests want there. -/
theorem at?_merge (r s : Request) (path : List String) :
    (r.merge s).at? path = Option.merge merge (r.at? path) (s.at? path) := by
  induction path generalizing r s with
  | nil => rfl
  | cons name path ih =>
    rw [at?_cons, at?_cons, at?_cons, nested?_merge]
    cases r.nested? name <;> cases s.nested? name
    · rfl
    · simp
    · simp
    · exact ih _ _

/-- A merged request has a request at the end of a path where one of the two has one. -/
theorem isSome_at?_merge (r s : Request) (path : List String) :
    ((r.merge s).at? path).isSome = true ↔
      (r.at? path).isSome = true ∨ (s.at? path).isSome = true := by
  rw [at?_merge]
  cases r.at? path <;> cases s.at? path <;> simp [Option.merge]

/-- A merged request wants the paths of both. -/
theorem wants_merge (r s : Request) (path : List String) :
    (r.merge s).Wants path ↔ r.Wants path ∨ s.Wants path := by
  rcases List.eq_nil_or_concat path with rfl | ⟨path, name, rfl⟩
  · simp [not_wants_nil]
  · rw [List.concat_eq_append, wants_concat_iff, wants_concat_iff, wants_concat_iff, at?_merge]
    cases r.at? path <;> cases s.at? path <;> simp [Option.merge, contains_merge]

/-! ### Inclusion -/

theorem merge_eq_left_of_paths (hw : ∀ path, s.Wants path → r.Wants path)
    (ha : ∀ path, (s.at? path).isSome = true → (r.at? path).isSome = true) : r.merge s = r := by
  induction s using induction_on_nested generalizing r with
  | step s ih =>
    refine eq_of_nested? ?_ fun name => ?_
    · change (r.items.merge s.items).names = _
      rw [Items.names_merge r.items s.distinct]
      refine List.append_right_eq_self.2 (List.filter_eq_nil_iff.2 fun name hname => ?_)
      have h : name ∈ r.names :=
        contains_iff.1 (wants_singleton_iff.1 (hw [name] (.field (contains_iff.2 hname))))
      simpa [names] using h
    · rw [nested?_merge]
      cases hs : s.nested? name with
      | none => exact Option.merge_none_right
      | some y =>
        obtain ⟨x, hr⟩ : ∃ x, r.nested? name = some x := by
          simpa [hs, Option.isSome_iff_exists] using ha [name]
        -- what lies under `name` has its paths in what lies there in `r`
        have hxy : x.merge y = x := by
          refine ih name y hs (fun path h => ?_) fun path h => ?_
          · have hp : path ≠ [] := by
              rintro rfl
              exact not_wants_nil h
            obtain ⟨x', hx', h⟩ := (wants_cons_iff hp).1 (hw _ (.under hs h))
            rw [hr] at hx'
            cases hx'
            exact h
          · simpa [hs, hr, h] using ha (name :: path)
        rw [hr]
        exact congrArg some hxy

/-- A request includes another one exactly when it wants all its paths and has a request at the end
of each where that has one. -/
theorem includes_iff : r.Includes s ↔ (∀ path, s.Wants path → r.Wants path) ∧
    ∀ path, (s.at? path).isSome = true → (r.at? path).isSome = true := by
  rw [← merge_eq_left_iff]
  refine ⟨fun h => ⟨fun path hs => ?_, fun path hs => ?_⟩, fun h => merge_eq_left_of_paths h.1 h.2⟩
  · rw [← h]
    exact (wants_merge r s path).2 (.inr hs)
  · rw [← h]
    exact (isSome_at?_merge r s path).2 (.inr hs)

theorem includes_refl (r : Request) : r.Includes r :=
  includes_iff.2 ⟨fun _ h => h, fun _ h => h⟩

theorem Includes.contains (h : r.Includes s) {name : String} (hs : s.contains name = true) :
    r.contains name = true := by
  rw [← merge_eq_left_iff.2 h]
  exact (contains_merge r s name).2 (.inr hs)

theorem Includes.nested? (h : r.Includes s) {y : Request} {name : String}
    (hs : s.nested? name = some y) : ∃ x, r.nested? name = some x ∧ x.Includes y := by
  have hm := nested?_merge r s name
  rw [merge_eq_left_iff.2 h, hs] at hm
  cases hr : r.nested? name with
  | none =>
    rw [hr] at hm
    cases hm
  | some x =>
    rw [hr] at hm
    exact ⟨x, rfl, merge_eq_left_iff.1 (Option.some.inj hm).symm⟩

/-- A merged request is the least one that includes both. -/
theorem includes_merge_iff : t.Includes (r.merge s) ↔ t.Includes r ∧ t.Includes s := by
  simp only [includes_iff, wants_merge, isSome_at?_merge, or_imp, forall_and]
  exact and_and_and_comm

end SqlAssembly.Request
