import SqlAssembly.Proofs.Request.Merging

/-!
# Empty requests under fields

A request may have an empty request under a field, which wants nothing that the field alone does not
want. `Request.pruned` takes such requests away, at every level.

* `Items.pruned_merge`: the merge of two lists may be pruned before or after it is made.
* `Request.ofSelection_stripped`: leaving `__typename` out of a selection prunes its request,
  because a field with nothing but `__typename` under it is left with an empty request.
-/

namespace SqlAssembly

namespace Request.Items

/-- The wanted fields without the empty lists under them. -/
def pruned : Items → Items
  | empty => empty
  | leaf name rest => leaf name rest.pruned
  | branch name nested rest =>
    if nested.names.isEmpty then leaf name rest.pruned else branch name nested.pruned rest.pruned

/-- What is left of a list under a field. -/
def prunedUnder (under : Option Items) : Option Items :=
  under.bind fun nested => if nested.names.isEmpty then none else some nested.pruned

theorem names_eq_nil_iff {r : Items} : r.names = [] ↔ r = empty := by
  cases r <;> simp [names]

theorem prunedUnder_some {r : Items} (h : r ≠ empty) : prunedUnder (some r) = some r.pruned := by
  have hn : r.names ≠ [] := fun e => h (names_eq_nil_iff.1 e)
  simp [prunedUnder, hn]

theorem exists_of_prunedUnder {under : Option Items} {r : Items}
    (h : prunedUnder under = some r) : ∃ nested, under = some nested ∧ nested.pruned = r := by
  obtain ⟨nested, hn, hr⟩ := Option.bind_eq_some_iff.1 h
  split at hr
  · cases hr
  · exact ⟨nested, hn, Option.some.inj hr⟩

theorem pruned_cons (name : String) (under : Option Items) (rest : Items) :
    (cons name under rest).pruned = cons name (prunedUnder under) rest.pruned := by
  cases under with
  | none => rfl
  | some nested =>
    rw [cons, pruned, prunedUnder, Option.bind_some]
    split <;> rfl

@[simp] theorem names_pruned (r : Items) : r.pruned.names = r.names := by
  induction r using cons_induction with
  | empty => rfl
  | cons name under rest _ ih => rw [pruned_cons, names_cons, names_cons, ih]

theorem nested?_pruned (r : Items) (name : String) :
    r.pruned.nested? name = prunedUnder (r.nested? name) := by
  induction r using cons_induction with
  | empty => rfl
  | cons n under rest _ ih =>
    rw [pruned_cons, nested?_cons, nested?_cons, ih]
    split <;> rfl

theorem Distinct.pruned {r : Items} (h : r.Distinct) : r.pruned.Distinct := by
  induction r using cons_induction with
  | empty => trivial
  | cons name under rest ihUnder ih =>
    obtain ⟨hname, hunder, hrest⟩ := distinct_cons.1 h
    rw [pruned_cons]
    refine distinct_cons.2 ⟨by rwa [names_pruned], fun nested hn => ?_, ih hrest⟩
    obtain ⟨present, rfl, rfl⟩ := exists_of_prunedUnder hn
    exact ihUnder present rfl (hunder present rfl)

/-! ### Merging -/

theorem mergeUnder_none_left (new : Option Items) : mergeUnder none new = new := by
  cases new <;> rfl

theorem empty_merge {r : Items} (h : r.Distinct) : empty.merge r = r := by
  refine eq_of_nested? (Distinct.merge trivial h) h ?_ fun name => ?_
  · simp [names_merge empty h, names]
  · rw [nested?_merge empty h]
    exact mergeUnder_none_left _

theorem merge_ne_empty {r s : Items} (hs : s.Distinct) (h : r ≠ empty) : r.merge s ≠ empty := by
  intro e
  have hnames := names_merge r hs
  rw [e, eq_comm] at hnames
  exact h (names_eq_nil_iff.1 (List.append_eq_nil_iff.1 hnames).1)

theorem mem_names_want (r : Items) (name : String) (new : Option Items) :
    name ∈ (r.want name new).names := by
  rw [names_want]
  split
  · next h => exact h
  · simp

/-- Merging under a field prunes as merging does. -/
theorem prunedUnder_mergeUnder (old : Option Items) {new : Option Items}
    (hn : ∀ nested, new = some nested → nested.Distinct)
    (h : ∀ x y : Items, old = some x → new = some y →
      (x.merge y).pruned = x.pruned.merge y.pruned) :
    prunedUnder (mergeUnder old new) = mergeUnder (prunedUnder old) (prunedUnder new) := by
  rcases new with _ | y
  · rfl
  rcases old with _ | x
  · exact (mergeUnder_none_left _).symm
  have hy := hn y rfl
  change prunedUnder (some (x.merge y)) = _
  -- an empty list adds nothing, on whichever side it stands
  by_cases hxe : x = empty
  · subst hxe
    rw [empty_merge hy]
    exact (mergeUnder_none_left _).symm
  by_cases hye : y = empty
  · subst hye
    rfl
  rw [prunedUnder_some (merge_ne_empty hy hxe), prunedUnder_some hxe, prunedUnder_some hye,
    h x y rfl rfl]
  rfl

theorem pruned_want {r : Items} (hr : r.Distinct) (name : String) {new : Option Items}
    (hn : ∀ nested, new = some nested → nested.Distinct)
    (h : ∀ x y : Items, x.Distinct → new = some y → (x.merge y).pruned = x.pruned.merge y.pruned) :
    (r.want name new).pruned = r.pruned.want name (prunedUnder new) := by
  have hn' : ∀ nested, prunedUnder new = some nested → nested.Distinct := by
    intro nested hp
    obtain ⟨present, rfl, rfl⟩ := exists_of_prunedUnder hp
    exact (hn present rfl).pruned
  refine eq_of_nested? (hr.want name hn).pruned (hr.pruned.want name hn') ?_ fun other => ?_
  · rw [names_pruned, names_want, names_want, names_pruned]
  · rw [nested?_pruned, nested?_want, nested?_want, nested?_pruned, nested?_pruned]
    split
    · exact prunedUnder_mergeUnder _ hn fun x y hx hy => h x y (hr.of_nested? hx) hy
    · rfl

/-- The merge of two lists may be pruned before or after it is made. -/
theorem pruned_merge {r s : Items} (hr : r.Distinct) (hs : s.Distinct) :
    (r.merge s).pruned = r.pruned.merge s.pruned := by
  induction s using cons_induction generalizing r with
  | empty => rfl
  | cons name under rest ihUnder ih =>
    obtain ⟨-, hunder, hrest⟩ := distinct_cons.1 hs
    rw [merge_cons, ih (hr.want name hunder) hrest, pruned_cons, merge_cons,
      pruned_want hr name hunder fun x y hx hy => ihUnder y hy hx (hunder y hy)]

end Request.Items

/-- The selection without `__typename`, at any depth, and without what is selected under it. -/
def Selection.stripped : Selection → Selection
  | empty => empty
  | field name children rest =>
    if name = typenameField then rest.stripped else field name children.stripped rest.stripped

namespace Request

/-- The request without the empty requests under its fields. -/
def pruned (r : Request) : Request :=
  ⟨r.items.pruned, r.distinct.pruned⟩

@[simp] theorem names_pruned (r : Request) : r.pruned.names = r.names :=
  Items.names_pruned r.items

@[simp] theorem isEmpty_pruned (r : Request) : r.pruned.isEmpty = r.isEmpty :=
  congrArg List.isEmpty r.names_pruned

theorem contains_eq (r : Request) (name : String) : r.contains name = decide (name ∈ r.names) := by
  rw [Bool.eq_iff_iff, decide_eq_true_iff]
  exact (r.items.mem_names_iff name).symm

@[simp] theorem contains_pruned (r : Request) (name : String) :
    r.pruned.contains name = r.contains name := by
  rw [contains_eq, contains_eq, names_pruned]

theorem nested?_pruned (r : Request) (name : String) :
    r.pruned.nested? name = (r.nested? name).bind fun nested =>
      if nested.isEmpty then none else some nested.pruned := by
  refine Option.map_injective (fun _ _ h => eq_of_items h) ?_
  rw [map_items_nested?]
  change r.items.pruned.nested? name = _
  rw [Items.nested?_pruned, ← map_items_nested?]
  cases r.nested? name with
  | none => rfl
  | some nested =>
    change (if nested.isEmpty then none else some nested.items.pruned) =
      Option.map items (if nested.isEmpty then none else some nested.pruned)
    split <;> rfl

/-! ### Selections -/

theorem pruned_add (r : Request) (name : String) : (r.add name).pruned = r.pruned.add name := by
  have hnone : ∀ nested : Items, none = some nested → nested.Distinct := nofun
  exact eq_of_items (Items.pruned_want r.distinct name hnone nofun)

theorem pruned_addNested (r : Request) (name : String) (nested : Request) :
    (r.addNested name nested).pruned =
      if nested.isEmpty then r.pruned.add name else r.pruned.addNested name nested.pruned := by
  have hnested : ∀ n, some nested.items = some n → n.Distinct := by
    rintro _ ⟨⟩
    exact nested.distinct
  have hwant : (r.addNested name nested).items.pruned =
      r.items.pruned.want name (Items.prunedUnder (some nested.items)) :=
    Items.pruned_want r.distinct name hnested fun x y hx hy =>
      Items.pruned_merge hx (hnested y hy)
  refine eq_of_items (hwant.trans ?_)
  split
  · next h =>
    have he : nested.items = .empty := Items.names_eq_nil_iff.1 (List.isEmpty_iff.1 h)
    rw [he]
    rfl
  · next h =>
    have he : nested.items ≠ .empty := fun e => h (by rw [isEmpty, names, e]; rfl)
    rw [Items.prunedUnder_some he]
    rfl

theorem isEmpty_add (r : Request) (name : String) : (r.add name).isEmpty = false :=
  List.isEmpty_eq_false_iff.2 (List.ne_nil_of_mem (r.items.mem_names_want name none))

theorem isEmpty_addNested (r : Request) (name : String) (nested : Request) :
    (r.addNested name nested).isEmpty = false :=
  List.isEmpty_eq_false_iff.2 (List.ne_nil_of_mem (r.items.mem_names_want name (some nested.items)))

/-- A selection wants something unless all of it is left out. -/
theorem isEmpty_addSelection (r : Request) (s : Selection) :
    (r.addSelection s).isEmpty = (r.isEmpty && s.stripped.isEmpty) := by
  induction s generalizing r with
  | empty => exact (Bool.and_true _).symm
  | field name children rest _ ih =>
    rw [addSelection, Selection.stripped]
    split
    · exact ih r
    · split
      · rw [ih, isEmpty_add, Bool.false_and]
        exact (Bool.and_false _).symm
      · rw [ih, isEmpty_addNested, Bool.false_and]
        exact (Bool.and_false _).symm

theorem addSelection_stripped (r : Request) (s : Selection) :
    r.pruned.addSelection s.stripped = (r.addSelection s).pruned := by
  induction s generalizing r with
  | empty => rfl
  | field name children rest ihChildren ih =>
    rw [Selection.stripped, addSelection]
    split
    · exact ih r
    · next hn =>
      rw [addSelection, if_neg hn]
      cases hc : children.isEmpty with
      | true =>
        have : children.stripped = .empty := by
          cases children with
          | empty => rfl
          | field => cases hc
        rw [this, Selection.isEmpty, if_pos rfl, if_pos rfl, ← ih, pruned_add]
      | false =>
        have hempty : (empty.addSelection children).isEmpty = children.stripped.isEmpty :=
          isEmpty_addSelection empty children
        rw [if_neg Bool.false_ne_true, ← ih, pruned_addNested, hempty, ← ihChildren]
        -- the field is left alone if nothing but `__typename` is selected under it
        split <;> rfl

/-- Without `__typename` a selection has the request that is left of the other one. -/
theorem ofSelection_stripped (s : Selection) :
    ofSelection s.stripped = (ofSelection s).pruned :=
  addSelection_stripped empty s

end Request

end SqlAssembly
