import SqlAssembly.Proofs.Firsts
import SqlAssembly.Proofs.Request.Paths

/-!
# The request for a selection

A selection may select a field several times, with different fields under it. Its request wants
every selected path once.

* `Selection.Spells` follows a chain of selected fields along a path.
* `Selection.along` is what is selected at the end of a path, by all such chains one behind another.
* `Request.Mirrors` says that a request wants the paths of a selection, in its order.
* `mirrors_iff`: one request does, and it is the one that is made for the selection.
-/

namespace SqlAssembly

namespace Selection

/-- What is selected under the fields of a name, one field behind another. -/
def under (name : String) : Selection → Selection
  | empty => empty
  | field n children rest => if n = name then children ++ rest.under name else rest.under name

/-- What is selected at the end of a path. -/
def along (s : Selection) : List String → Selection
  | [] => s
  | name :: path => (s.under name).along path

/-- The request for the selected fields, if there are any. -/
def request? (s : Selection) : Option Request :=
  if s = empty then none else some (Request.ofSelection s)

/-- The names of the selected fields but for `__typename`, in order and with repetitions. -/
def wanted (s : Selection) : List String :=
  (s.fields.map SelectedField.name).filter (· ≠ typenameField)

/-- A chain of selected fields, each under the one before, spells the path, and `children` is
selected under the last of them. -/
inductive Spells : Selection → List String → Selection → Prop
  | last {s : Selection} {f : SelectedField} (h : f ∈ s.fields) : Spells s [f.name] f.children
  | under {s children : Selection} {f : SelectedField} {path : List String} (h : f ∈ s.fields)
      (hc : Spells f.children path children) : Spells s (f.name :: path) children

/-! ### Chains and what they lead to -/

theorem mem_fields_under {name : String} {s : Selection} {g : SelectedField} :
    g ∈ (s.under name).fields ↔ ∃ f ∈ s.fields, f.name = name ∧ g ∈ f.children.fields := by
  induction s with
  | empty => simp [under, fields]
  | field n children rest _ ih =>
    rw [under, fields]
    by_cases h : n = name <;> simp [h, ih]

theorem spells_cons_iff {s children : Selection} {name : String} {path : List String}
    (hp : path ≠ []) :
    s.Spells (name :: path) children ↔
      ∃ f ∈ s.fields, f.name = name ∧ f.children.Spells path children := by
  constructor
  · intro h
    cases h with
    | last => exact (hp rfl).elim
    | under h hc => exact ⟨_, h, rfl, hc⟩
  · rintro ⟨f, hf, rfl, hc⟩
    exact .under hf hc

theorem spells_singleton_iff {s children : Selection} {name : String} :
    s.Spells [name] children ↔ ⟨name, children⟩ ∈ s.fields := by
  constructor
  · intro h
    cases h with
    | last h => exact h
    | under _ hc => cases hc
  · exact fun h => .last (f := ⟨name, children⟩) h

theorem spells_under_iff {s children : Selection} {name : String} {path : List String}
    (hp : path ≠ []) :
    (s.under name).Spells path children ↔ s.Spells (name :: path) children := by
  rw [spells_cons_iff hp]
  obtain ⟨m, path, rfl⟩ := List.exists_cons_of_ne_nil hp
  rcases eq_or_ne path [] with rfl | hpath
  · simp only [spells_singleton_iff, mem_fields_under]
  · simp only [spells_cons_iff hpath, mem_fields_under]
    constructor
    · rintro ⟨g, ⟨f, hf, hn, hg⟩, hm, hc⟩
      exact ⟨f, hf, hn, g, hg, hm, hc⟩
    · rintro ⟨f, hf, hn, g, hg, hm, hc⟩
      exact ⟨g, ⟨f, hf, hn, hg⟩, hm, hc⟩

/-- The last field of a chain is selected at the end of the path before it. -/
theorem spells_concat_iff {s children : Selection} {path : List String} {name : String} :
    s.Spells (path ++ [name]) children ↔ ⟨name, children⟩ ∈ (s.along path).fields := by
  induction path generalizing s with
  | nil => exact spells_singleton_iff
  | cons n path ih => rw [along, ← ih, spells_under_iff (by simp), List.cons_append]

theorem along_concat (s : Selection) (path : List String) (name : String) :
    s.along (path ++ [name]) = (s.along path).under name := by
  induction path generalizing s with
  | nil => rfl
  | cons n path ih => exact ih (s.under n)

theorem ne_empty_iff {s : Selection} : s ≠ empty ↔ ∃ f, f ∈ s.fields := by
  cases s <;> simp [fields]

/-- Something is selected at the end of a path when a chain along it has a field with children. -/
theorem along_ne_empty_iff {s : Selection} {path : List String} (hp : path ≠ []) :
    s.along path ≠ empty ↔ ∃ children, s.Spells path children ∧ children ≠ empty := by
  obtain ⟨path, name, rfl⟩ := (List.eq_nil_or_concat path).resolve_left hp
  simp only [List.concat_eq_append, along_concat, spells_concat_iff, ne_empty_iff,
    mem_fields_under]
  constructor
  · rintro ⟨g, ⟨n, children⟩, hf, rfl, hg⟩
    exact ⟨children, hf, g, hg⟩
  · rintro ⟨children, hf, g, hg⟩
    exact ⟨g, _, hf, rfl, hg⟩

theorem isEmpty_iff {s : Selection} : s.isEmpty = true ↔ s = empty := by
  cases s <;> simp [isEmpty]

theorem mem_wanted_iff {s : Selection} {name : String} :
    name ∈ s.wanted ↔ name ≠ typenameField ∧ ∃ children, ⟨name, children⟩ ∈ s.fields := by
  rw [wanted, List.mem_filter, List.mem_map, decide_eq_true_iff, and_comm]
  refine and_congr_right fun _ => ⟨?_, fun ⟨children, h⟩ => ⟨_, h, rfl⟩⟩
  rintro ⟨⟨n, children⟩, h, rfl⟩
  exact ⟨children, h⟩

theorem append_empty (s : Selection) : s ++ empty = s := by
  rw [← ofFields_fields (s ++ empty), fields_append, fields, List.append_nil, ofFields_fields]

theorem request?_append (s t : Selection) :
    (s ++ t).request? = Option.merge Request.merge s.request? t.request? := by
  cases s with
  | empty => cases t <;> rfl
  | field n c l =>
    cases t with
    | empty => rw [append_empty]; rfl
    | field m d k => exact congrArg some (Request.ofSelection_append (.field n c l) (.field m d k))

theorem along_empty (path : List String) : empty.along path = empty := by
  induction path with
  | nil => rfl
  | cons name path ih => exact ih

end Selection

namespace Request

open Selection

/-! ### What the request wants -/

theorem names_addSelection {r : Request} {l : List String} (hr : r.names = l.eraseDups)
    (s : Selection) : (r.addSelection s).names = (l ++ s.wanted).eraseDups := by
  induction s generalizing r l with
  | empty => simpa [addSelection, wanted, fields] using hr
  | field name children rest _ ih =>
    rw [addSelection]
    split
    · next h =>
      have hw : wanted (.field name children rest) = rest.wanted := by simp [wanted, fields, h]
      rw [hw]
      exact ih hr
    · next h =>
      have hw : wanted (.field name children rest) = name :: rest.wanted := by
        simp [wanted, fields, h]
      rw [hw, List.append_cons]
      -- the field is one more name, whatever is selected under it
      have hwant (new : Option Items) :
          (r.items.want name new).names = (l ++ [name]).eraseDups := by
        change r.items.names = _ at hr
        rw [Items.names_want, hr, eraseDups_concat]
        simp only [List.mem_eraseDups]
      split
      · exact ih (hwant none)
      · exact ih (hwant (some _))

/-- The names of a request are those of the selected fields, each once. -/
theorem names_ofSelection (s : Selection) : (ofSelection s).names = s.wanted.eraseDups :=
  names_addSelection (l := []) rfl s

theorem nested?_add_empty (name other : String) : (empty.add name).nested? other = none := by
  refine Option.map_eq_none_iff.1 ((map_items_nested? _ other).trans ?_)
  change (Items.empty.want name none).nested? other = none
  rw [Items.nested?_want]
  split <;> rfl

theorem nested?_addNested_empty (name other : String) (nested : Request) :
    (empty.addNested name nested).nested? other = if other = name then some nested else none := by
  refine Option.map_injective (fun _ _ h => eq_of_items h) ((map_items_nested? _ other).trans ?_)
  change (Items.empty.want name (some nested.items)).nested? other = _
  rw [Items.nested?_want]
  split <;> rfl

/-- A field counts besides those behind it. -/
theorem nested?_ofSelection_field {name : String} (hn : name ≠ typenameField) (other : String)
    (children rest : Selection) :
    (ofSelection (.field name children rest)).nested? other =
      Option.merge merge (if other = name then children.request? else none)
        ((ofSelection rest).nested? other) := by
  rw [ofSelection, addSelection, if_neg hn]
  split
  · next h =>
    have hnone : children.request? = none := if_pos (isEmpty_iff.1 h)
    rw [addSelection_eq_merge, nested?_merge, nested?_add_empty, hnone, ite_self]
  · next h =>
    have hsome : children.request? = some (ofSelection children) :=
      if_neg fun e => h (isEmpty_iff.2 e)
    rw [addSelection_eq_merge, nested?_merge, hsome, ← nested?_addNested_empty]
    rfl

/-- The request under a field is that for what is selected under all fields of its name. -/
theorem nested?_ofSelection (s : Selection) (name : String) :
    (ofSelection s).nested? name =
      if name = typenameField then none else (s.under name).request? := by
  induction s with
  | empty => exact (ite_self none).symm
  | field n children rest _ ih =>
    rw [under]
    by_cases hn : n = typenameField
    · have hskip : ofSelection (.field n children rest) = ofSelection rest := by
        rw [ofSelection, addSelection, if_pos hn]
        rfl
      rw [hskip, ih]
      by_cases hname : name = typenameField
      · rw [if_pos hname, if_pos hname]
      · rw [if_neg fun e : n = name => hname (e ▸ hn)]
    · rw [nested?_ofSelection_field hn, ih]
      by_cases hname : n = name
      · subst hname
        rw [if_pos rfl, if_neg hn, if_neg hn, if_pos rfl, request?_append]
      · rw [if_neg (Ne.symm hname), if_neg hname]
        exact Option.merge_none_left

/-- The request at the end of a path is that for all that is selected there. -/
theorem at?_ofSelection (s : Selection) {path : List String} (hp : path ≠ []) :
    (ofSelection s).at? path = if typenameField ∈ path then none else (s.along path).request? := by
  induction path generalizing s with
  | nil => exact (hp rfl).elim
  | cons name path ih =>
    rw [at?_cons, nested?_ofSelection, along]
    by_cases hname : name = typenameField
    · simp [hname]
    · have hmem : typenameField ∈ name :: path ↔ typenameField ∈ path := by
        simp [Ne.symm hname]
      rw [if_neg hname, if_congr hmem rfl rfl]
      by_cases hs : s.under name = .empty
      · rw [hs, along_empty]
        exact (ite_self none).symm
      · rw [Selection.request?, if_neg hs, Option.bind_some]
        rcases eq_or_ne path [] with rfl | hpath
        · rw [if_neg List.not_mem_nil, along, Selection.request?, if_neg hs, at?_nil]
        · exact ih _ hpath

theorem at?_ofSelection_eq_some_iff {s : Selection} {path : List String} {u : Request} :
    (ofSelection s).at? path = some u ↔ typenameField ∉ path ∧
      (path ≠ [] → s.along path ≠ .empty) ∧ u = ofSelection (s.along path) := by
  rcases eq_or_ne path [] with rfl | hp
  · simp [along, eq_comm]
  · rw [at?_ofSelection s hp, Selection.request?]
    by_cases ht : typenameField ∈ path <;> by_cases hs : s.along path = .empty <;>
      simp [ht, hs, hp, eq_comm]

theorem contains_ofSelection_iff {s : Selection} {name : String} :
    (ofSelection s).contains name = true ↔
      name ≠ typenameField ∧ ∃ children, ⟨name, children⟩ ∈ s.fields := by
  rw [contains_iff, names_ofSelection, List.mem_eraseDups, mem_wanted_iff]

/-! ### The paths -/

/-- The request wants what the selection selects, but for `__typename`. -/
structure Mirrors (r : Request) (s : Selection) : Prop where
  /-- It wants a path when a chain of selected fields spells it, and none of them is
  `__typename`. -/
  wants : ∀ path, r.Wants path ↔
    typenameField ∉ path ∧ ∃ children, s.Spells path children
  /-- It has a request at the end of a path when something is selected under the last field of such
  a chain. -/
  at? : ∀ name path, (r.at? (name :: path)).isSome = true ↔
    typenameField ∉ name :: path ∧ ∃ children, s.Spells (name :: path) children ∧ children ≠ .empty
  /-- At every level a name comes once, in the order in which the names first come among all that is
  selected there. -/
  names : ∀ path u, r.at? path = some u → FirstsOf u.names (s.along path).wanted

theorem mirrors_ofSelection (s : Selection) : (ofSelection s).Mirrors s where
  wants path := by
    rcases List.eq_nil_or_concat path with rfl | ⟨path, name, rfl⟩
    · exact iff_of_false not_wants_nil nofun
    · simp only [List.concat_eq_append, wants_concat_iff, at?_ofSelection_eq_some_iff,
        spells_concat_iff, List.mem_append, List.mem_singleton, not_or]
      constructor
      · rintro ⟨u, ⟨ht, -, rfl⟩, h⟩
        obtain ⟨hn, children, hc⟩ := contains_ofSelection_iff.1 h
        exact ⟨⟨ht, Ne.symm hn⟩, children, hc⟩
      · rintro ⟨⟨ht, hn⟩, children, hc⟩
        exact ⟨_, ⟨ht, fun _ => ne_empty_iff.2 ⟨_, hc⟩, rfl⟩,
          contains_ofSelection_iff.2 ⟨Ne.symm hn, children, hc⟩⟩
  at? name path := by
    have hp : name :: path ≠ [] := List.cons_ne_nil name path
    rw [← along_ne_empty_iff hp, Option.isSome_iff_exists]
    simp only [at?_ofSelection_eq_some_iff, exists_and_left, exists_eq, and_true, hp, ne_eq,
      not_false_eq_true, true_implies]
  names path u h := by
    obtain ⟨-, -, rfl⟩ := at?_ofSelection_eq_some_iff.1 h
    exact firstsOf_iff.2 (names_ofSelection _)

/-- **The request for a selection mirrors it,** and no other request does. -/
theorem mirrors_iff {r : Request} {s : Selection} : r.Mirrors s ↔ r = ofSelection s := by
  constructor
  · intro h
    have h' := mirrors_ofSelection s
    refine eq_of_names_at? fun path => ?_
    -- both have a request at the end of the path, or neither has one
    have hsome : (r.at? path).isSome = true ↔ ((ofSelection s).at? path).isSome = true := by
      cases path with
      | nil => exact Iff.rfl
      | cons name path => exact (h.at? name path).trans (h'.at? name path).symm
    cases hr : r.at? path with
    | none =>
      cases hs : (ofSelection s).at? path with
      | none => rfl
      | some v => simp [hr, hs] at hsome
    | some u =>
      cases hs : (ofSelection s).at? path with
      | none => simp [hr, hs] at hsome
      | some v =>
        have hu := firstsOf_iff.1 (h.names path u hr)
        have hv := firstsOf_iff.1 (h'.names path v hs)
        exact congrArg some (hu.trans hv.symm)
  · rintro rfl
    exact mirrors_ofSelection s

/-- A field that is selected twice is wanted once, with what is selected at both places. -/
example :
    ((ofSelection (.field "author" (.field "name" .empty .empty) (.field "author"
      (.field typenameField .empty (.field "name" .empty (.field "email" .empty .empty)))
        .empty))).at? ["author"]).map names = some ["name", "email"] := by
  decide

end Request

end SqlAssembly
