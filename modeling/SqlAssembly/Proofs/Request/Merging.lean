import SqlAssembly.Request.Selection

/-!
# Merging requests

Both sorts of cells are one, `Items.cons`, with an optional list under the field; `Items.want` is
the same for the operations. A list is determined by its names and by what it wants under each of
them (`Items.eq_of_nested?`), so merging is described by `Items.names_merge` and
`Items.nested?_merge`.

* `Request.merge_assoc`: it does not matter which requests are put together first.
* `Request.merge_eq_left_iff`: merging adds nothing exactly when everything is wanted already.
* `Request.ofSelection_append`: the request for two selections, one behind the other, is the merge
  of their requests.
-/

namespace SqlAssembly

namespace Request.Items

/-- A field in front of others, with the list under it if it has one. -/
def cons (name : String) (under : Option Items) (rest : Items) : Items :=
  match under with
  | none => leaf name rest
  | some nested => branch name nested rest

/-- Wants a field, and what is given under it. -/
def want (r : Items) (name : String) : Option Items → Items
  | none => r.add name
  | some nested => r.addNested name nested

/-- What is wanted under a field once `new` is wanted there besides `old`. -/
def mergeUnder (old : Option Items) : Option Items → Option Items
  | none => old
  | some nested => some (old.elim nested fun present => present.merge nested)

/-- Everything that the second list wants, at any depth, is wanted by the first. -/
def Includes (r : Items) : Items → Prop
  | empty => True
  | leaf name rest => name ∈ r.names ∧ r.Includes rest
  | branch name nested rest =>
    (∃ present, r.nested? name = some present ∧ present.Includes nested) ∧ r.Includes rest

/-- Induction on the cells, of whatever sort, and on the lists under them. -/
@[elab_as_elim]
theorem cons_induction {motive : Items → Prop} (empty : motive empty)
    (cons : ∀ name under rest, (∀ nested, under = some nested → motive nested) → motive rest →
      motive (cons name under rest)) (r : Items) : motive r := by
  induction r with
  | empty => exact empty
  | leaf name rest ih => exact cons name none rest nofun ih
  | branch name nested rest ihNested ih =>
    refine cons name (some nested) rest (fun _ h => ?_) ih
    cases h
    exact ihNested

@[simp] theorem names_cons (name : String) (under : Option Items) (rest : Items) :
    (cons name under rest).names = name :: rest.names := by
  cases under <;> rfl

theorem nested?_cons (n name : String) (under : Option Items) (rest : Items) :
    (cons n under rest).nested? name = if n = name then under else rest.nested? name := by
  cases under <;> simp only [cons, nested?, get?] <;> split <;> rfl

theorem distinct_cons {name : String} {under : Option Items} {rest : Items} :
    (cons name under rest).Distinct ↔
      name ∉ rest.names ∧ (∀ nested, under = some nested → nested.Distinct) ∧ rest.Distinct := by
  cases under <;> simp [cons, Distinct]

theorem merge_cons (r : Items) (name : String) (under : Option Items) (rest : Items) :
    r.merge (cons name under rest) = (r.want name under).merge rest := by
  cases under <;> rfl

theorem mem_names_of_nested? {r nested : Items} {name : String}
    (h : r.nested? name = some nested) : name ∈ r.names := by
  rw [mem_names_iff, Option.join_eq_some_iff.1 h]
  rfl

theorem nested?_eq_none {r : Items} {name : String} (h : name ∉ r.names) :
    r.nested? name = none :=
  Option.eq_none_iff_forall_ne_some.2 fun _ hn => h (mem_names_of_nested? hn)

/-! ### One more field -/

theorem names_want (r : Items) (name : String) (new : Option Items) :
    (r.want name new).names = if name ∈ r.names then r.names else r.names ++ [name] := by
  cases new with
  | none => exact names_add r name
  | some nested => exact names_place r name _

theorem nested?_want (r : Items) (name other : String) (new : Option Items) :
    (r.want name new).nested? other =
      if other = name then mergeUnder (r.nested? name) new else r.nested? other := by
  cases new with
  | none =>
    rw [nested?, want, get?_add]
    split <;> rfl
  | some nested =>
    rw [nested?, want, addNested, get?_place]
    split
    · cases r.nested? name <;> rfl
    · rfl

theorem Distinct.want {r : Items} (hr : r.Distinct) (name : String) {new : Option Items}
    (hn : ∀ nested, new = some nested → nested.Distinct) : (r.want name new).Distinct := by
  cases new with
  | none => exact hr.add name
  | some nested => exact hr.addNested name (hn nested rfl)

/-- Lists with the same names, in the same order, and the same under each of them are the same. -/
theorem eq_of_nested? {r s : Items} (hr : r.Distinct) (hs : s.Distinct) (hn : r.names = s.names)
    (hg : ∀ name, r.nested? name = s.nested? name) : r = s := by
  induction r using cons_induction generalizing s with
  | empty =>
    cases s using cons_induction with
    | empty => rfl
    | cons m under rest _ _ => simp [names] at hn
  | cons n under rest _ ih =>
    cases s using cons_induction with
    | empty => simp [names] at hn
    | cons m under' rest' _ _ =>
      rw [names_cons, names_cons, List.cons_eq_cons] at hn
      obtain ⟨rfl, hn⟩ := hn
      obtain ⟨hnr, -, hr⟩ := distinct_cons.1 hr
      obtain ⟨hns, -, hs⟩ := distinct_cons.1 hs
      have hunder : under = under' := by simpa [nested?_cons] using hg n
      have hrest : rest = rest' := by
        refine ih hr hs hn fun name => ?_
        by_cases h : n = name
        · subst h
          rw [nested?_eq_none hnr, nested?_eq_none hns]
        · simpa [nested?_cons, h] using hg name
      rw [hunder, hrest]

/-! ### Merging -/

/-- The known names keep their places, and the unknown ones come behind them. -/
theorem names_merge (r : Items) {s : Items} (hs : s.Distinct) :
    (r.merge s).names = r.names ++ s.names.filter fun name => name ∉ r.names := by
  induction s using cons_induction generalizing r with
  | empty => simp [merge, names]
  | cons n under rest _ ih =>
    obtain ⟨hn, -, hs⟩ := distinct_cons.1 hs
    rw [merge_cons, ih _ hs, names_want, names_cons]
    by_cases hr : n ∈ r.names
    · simp [hr]
    · -- no name of the rest is `n`, so only the names of `r` are left out
      have hfilter : (rest.names.filter fun name => name ∉ r.names ++ [n]) =
          rest.names.filter fun name => name ∉ r.names := by
        refine List.filter_congr fun name hname => ?_
        have : name ≠ n := fun e => hn (e ▸ hname)
        simp [this]
      simp only [if_neg hr, hfilter]
      simp [hr]

/-- A merged list wants under a field what both lists want there. -/
theorem nested?_merge (r : Items) {s : Items} (hs : s.Distinct) (name : String) :
    (r.merge s).nested? name = mergeUnder (r.nested? name) (s.nested? name) := by
  induction s using cons_induction generalizing r with
  | empty => rfl
  | cons n under rest _ ih =>
    obtain ⟨hn, -, hs⟩ := distinct_cons.1 hs
    rw [merge_cons, ih _ hs, nested?_cons, nested?_want]
    by_cases h : n = name
    · subst h
      rw [nested?_eq_none hn, if_pos rfl, if_pos rfl, mergeUnder]
    · rw [if_neg h, if_neg (Ne.symm h)]

theorem mergeUnder_assoc (a b : Option Items) {c : Option Items}
    (h : ∀ x y z, a = some x → b = some y → c = some z →
      (x.merge y).merge z = x.merge (y.merge z)) :
    mergeUnder a (mergeUnder b c) = mergeUnder (mergeUnder a b) c := by
  rcases c with _ | z
  · rfl
  rcases b with _ | y
  · rfl
  rcases a with _ | x
  · rfl
  exact congrArg some (h x y z rfl rfl rfl).symm

/-- What is wanted last may be wanted of the second list alone, if this holds under the field. -/
theorem merge_want {r s : Items} (hr : r.Distinct) (hs : s.Distinct) (name : String)
    {new : Option Items} (hn : ∀ nested, new = some nested → nested.Distinct)
    (h : ∀ x y z : Items, x.Distinct → y.Distinct → new = some z →
      (x.merge y).merge z = x.merge (y.merge z)) :
    r.merge (s.want name new) = (r.merge s).want name new := by
  have hsw := hs.want name hn
  refine eq_of_nested? (hr.merge hsw) ((hr.merge hs).want name hn) ?_ fun other => ?_
  · rw [names_merge r hsw, names_want, names_want, names_merge r hs]
    by_cases hms : name ∈ s.names <;> by_cases hmr : name ∈ r.names <;> simp [hms, hmr]
  · rw [nested?_merge r hsw, nested?_want, nested?_want, nested?_merge r hs, nested?_merge r hs]
    by_cases ho : other = name
    · subst ho
      rw [if_pos rfl, if_pos rfl]
      exact mergeUnder_assoc _ _ fun x y z hx hy hz =>
        h x y z (hr.of_nested? hx) (hs.of_nested? hy) hz
    · rw [if_neg ho, if_neg ho]

theorem merge_assoc {r s t : Items} (hr : r.Distinct) (hs : s.Distinct) (ht : t.Distinct) :
    (r.merge s).merge t = r.merge (s.merge t) := by
  induction t using cons_induction generalizing r s with
  | empty => rfl
  | cons name under rest ihUnder ih =>
    obtain ⟨-, hunder, hrest⟩ := distinct_cons.1 ht
    have hwant := merge_want hr hs name hunder fun x y z hx hy hz =>
      ihUnder z hz hx hy (hunder z hz)
    rw [merge_cons, merge_cons, ← hwant, ih hr (hs.want name hunder) hrest]

/-! ### Inclusion -/

theorem includes_cons {r : Items} {name : String} {under : Option Items} {rest : Items} :
    r.Includes (cons name under rest) ↔ name ∈ r.names ∧
      (∀ nested, under = some nested →
        ∃ present, r.nested? name = some present ∧ present.Includes nested) ∧
      r.Includes rest := by
  cases under with
  | none => simp [cons, Includes]
  | some nested =>
    simp only [cons, Includes, Option.some.injEq, forall_eq']
    exact ⟨fun ⟨⟨present, hp, hi⟩, h⟩ => ⟨mem_names_of_nested? hp, ⟨present, hp, hi⟩, h⟩,
      fun ⟨_, hi, h⟩ => ⟨hi, h⟩⟩

theorem merge_eq_left_iff_forall {r s : Items} (hr : r.Distinct) (hs : s.Distinct) :
    r.merge s = r ↔ (∀ n ∈ s.names, n ∈ r.names) ∧
      ∀ n, mergeUnder (r.nested? n) (s.nested? n) = r.nested? n := by
  constructor
  · intro h
    refine ⟨fun n hn => ?_, fun n => by rw [← nested?_merge r hs, h]⟩
    rw [← h, names_merge r hs]
    by_cases hnr : n ∈ r.names <;> simp [hn, hnr]
  · rintro ⟨hnames, hnested⟩
    refine eq_of_nested? (hr.merge hs) hr ?_ fun n => by rw [nested?_merge r hs, hnested]
    rw [names_merge r hs, List.append_right_eq_self, List.filter_eq_nil_iff]
    intro n hn
    simpa using hnames n hn

/-- Merging adds nothing exactly when everything is wanted already. -/
theorem merge_eq_left_iff {r s : Items} (hr : r.Distinct) (hs : s.Distinct) :
    r.merge s = r ↔ r.Includes s := by
  induction s using cons_induction generalizing r with
  | empty => simp [merge, Includes]
  | cons name under rest ihUnder ih =>
    obtain ⟨hname, hunder, hrest⟩ := distinct_cons.1 hs
    have hhere : mergeUnder (r.nested? name) under = r.nested? name ↔
        ∀ nested, under = some nested →
          ∃ present, r.nested? name = some present ∧ present.Includes nested := by
      cases under with
      | none => simp [mergeUnder]
      | some nested =>
        cases hp : r.nested? name with
        | none => simp [mergeUnder]
        | some present =>
          simpa [mergeUnder] using ihUnder nested rfl (hr.of_nested? hp) (hunder nested rfl)
    -- the rest says nothing of `name`, so what holds of the other names holds of all
    have hsplit : (∀ n, mergeUnder (r.nested? n) ((cons name under rest).nested? n) =
          r.nested? n) ↔
        mergeUnder (r.nested? name) under = r.nested? name ∧
          ∀ n, mergeUnder (r.nested? n) (rest.nested? n) = r.nested? n := by
      constructor
      · intro h
        refine ⟨by simpa [nested?_cons] using h name, fun n => ?_⟩
        by_cases hn : name = n
        · subst hn
          rw [nested?_eq_none hname, mergeUnder]
        · simpa [nested?_cons, hn] using h n
      · rintro ⟨h, hothers⟩ n
        rw [nested?_cons]
        split
        · next hn => rwa [← hn]
        · exact hothers n
    rw [includes_cons, ← hhere, ← ih hr hrest, merge_eq_left_iff_forall hr hs,
      merge_eq_left_iff_forall hr hrest, names_cons, List.forall_mem_cons, hsplit, and_assoc]
    exact and_congr_right fun _ => and_left_comm

end Request.Items

namespace Request

/-- Everything that the second request wants, at any depth, is wanted by the first. -/
def Includes (r s : Request) : Prop :=
  r.items.Includes s.items

/-- It does not matter which requests are put together first. -/
theorem merge_assoc (r s t : Request) : (r.merge s).merge t = r.merge (s.merge t) :=
  eq_of_items (Items.merge_assoc r.distinct s.distinct t.distinct)

/-- Merging adds nothing exactly when everything is wanted already. -/
theorem merge_eq_left_iff {r s : Request} : r.merge s = r ↔ r.Includes s := by
  rw [Includes, ← Items.merge_eq_left_iff r.distinct s.distinct]
  exact ⟨fun h => congrArg items h, fun h => eq_of_items h⟩

theorem merge_add_empty (r : Request) (name : String) : r.merge (empty.add name) = r.add name := rfl

theorem merge_addNested_empty (r : Request) (name : String) (nested : Request) :
    r.merge (empty.addNested name nested) = r.addNested name nested := rfl

/-! ### Selections -/

/-- The fields of a selection are wanted one after another, which is the same as all at once. -/
theorem addSelection_eq_merge (r : Request) (s : Selection) :
    r.addSelection s = r.merge (ofSelection s) := by
  induction s generalizing r with
  | empty => rfl
  | field name children rest _ ih =>
    rw [ofSelection, addSelection, addSelection]
    split
    · exact ih r
    split
    · rw [ih, ih (empty.add name), ← merge_assoc, merge_add_empty]
    · rw [ih, ih (empty.addNested name _), ← merge_assoc, merge_addNested_empty]

theorem addSelection_append (r : Request) (s t : Selection) :
    r.addSelection (s ++ t) = (r.addSelection s).addSelection t := by
  change r.addSelection (s.append t) = _
  induction s generalizing r with
  | empty => rfl
  | field name children rest _ ih =>
    rw [Selection.append, addSelection, addSelection, ih, ih, ih]
    split
    · rfl
    · split <;> rfl

/-- The request for one selection behind another is the merge of their requests. -/
theorem ofSelection_append (s t : Selection) :
    ofSelection (s ++ t) = (ofSelection s).merge (ofSelection t) := by
  rw [ofSelection, addSelection_append, addSelection_eq_merge]
  rfl

end Request

end SqlAssembly
