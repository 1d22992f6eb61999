import SqlAssembly.Model.Select
import SqlAssembly.Proofs.Assoc.Order
import SqlAssembly.Proofs.Request.Paths

/-!
# Requests as flat lists

A request is flattened into the list of its fields and one list for each field with a request under
it. The way back leads to the request without what lies deeper.

* `Request.cut` is a request without its lower levels, and `Request.levels` counts them.
* `Request.names_withRelated` and `Request.nested?_withRelated` say what is made of flat lists.
* `Request.withRelated_flatten`: the way there and back, what a caller gets who gives the flat lists
  of a request, and the way back and there.
-/

namespace SqlAssembly

namespace Request

namespace Items

/-- The list with so many levels under it, and nothing under those. -/
def cut : Items → Nat → Items
  | empty, _ => empty
  | leaf name rest, below => leaf name (rest.cut below)
  | branch name _ rest, 0 => leaf name (rest.cut 0)
  | branch name nested rest, below + 1 => branch name (nested.cut below) (rest.cut (below + 1))

/-- The number of levels, this one included. -/
def levels : Items → Nat
  | empty => 1
  | leaf _ rest => rest.levels
  | branch _ nested rest => max (nested.levels + 1) rest.levels

/-- The fields, one after another, each with what is given under it. -/
def wantAll (under : String → Option Items) (names : List String) : Items :=
  names.foldl (fun r name => r.want name (under name)) empty

/-! ### Lower levels -/

theorem names_cut (r : Items) (below : Nat) : (r.cut below).names = r.names := by
  induction r with
  | empty => rfl
  | leaf name rest ih => exact congrArg (name :: ·) ih
  | branch name nested rest _ ih => cases below <;> exact congrArg (name :: ·) ih

theorem nested?_cut_zero (r : Items) (name : String) : (r.cut 0).nested? name = none := by
  induction r with
  | empty => rfl
  | leaf n rest ih => exact (nested?_cons n name none _).trans (by rw [ih, ite_self])
  | branch n nested rest _ ih => exact (nested?_cons n name none _).trans (by rw [ih, ite_self])

theorem nested?_cut_succ (r : Items) (below : Nat) (name : String) :
    (r.cut (below + 1)).nested? name = (r.nested? name).map (cut · below) := by
  induction r with
  | empty => rfl
  | leaf n rest ih =>
    change (cons n none (rest.cut (below + 1))).nested? name =
      ((cons n none rest).nested? name).map _
    rw [nested?_cons, nested?_cons, ih, apply_ite (Option.map _), Option.map_none]
  | branch n nested rest _ ih =>
    change (cons n (some (nested.cut below)) (rest.cut (below + 1))).nested? name =
      ((cons n (some nested) rest).nested? name).map _
    rw [nested?_cons, nested?_cons, ih, apply_ite (Option.map _), Option.map_some]

theorem Distinct.cut {r : Items} (h : r.Distinct) (below : Nat) : (r.cut below).Distinct := by
  induction r generalizing below with
  | empty => trivial
  | leaf name rest ih => exact ⟨by rw [names_cut]; exact h.1, ih h.2 below⟩
  | branch name nested rest ihNested ih =>
    have hname : name ∉ (rest.cut below).names := by rw [names_cut]; exact h.1
    cases below with
    | zero => exact ⟨hname, ih h.2.2 0⟩
    | succ below => exact ⟨hname, ihNested h.2.1 below, ih h.2.2 (below + 1)⟩

theorem levels_pos (r : Items) : 0 < r.levels := by
  induction r with
  | empty => exact Nat.one_pos
  | leaf _ _ ih => exact ih
  | branch _ _ _ _ ih => exact Nat.lt_of_lt_of_le ih (Nat.le_max_right _ _)

/-- A list is what is left of it when it has no more levels. -/
theorem cut_eq_self_iff {below : Nat} {r : Items} : r.cut below = r ↔ r.levels ≤ below + 1 := by
  induction r generalizing below with
  | empty => simp [cut, levels]
  | leaf name rest ih => rw [cut, leaf.injEq, and_iff_right rfl, ih, levels]
  | branch name nested rest ihNested ih =>
    cases below with
    | zero =>
      have := nested.levels_pos
      refine iff_of_false nofun ?_
      rw [levels]
      omega
    | succ below =>
      rw [cut, branch.injEq, and_iff_right rfl, ihNested, ih, levels, Nat.max_le,
        Nat.add_le_add_iff_right]

/-! ### Flat lists -/

theorem wantAll_concat (under : String → Option Items) (names : List String) (name : String) :
    wantAll under (names ++ [name]) = (wantAll under names).want name (under name) := by
  rw [wantAll, List.foldl_append]
  rfl

theorem names_wantAll (under : String → Option Items) (names : List String) :
    (wantAll under names).names = names.eraseDups := by
  induction names using List.reverseRecOn with
  | nil => rfl
  | append_singleton names name ih =>
    rw [wantAll_concat, names_want, ih, eraseDups_concat]
    simp only [List.mem_eraseDups]

/-- What is wanted under a field is the same if it is wanted again. -/
theorem nested?_wantAll {under : String → Option Items}
    (h : ∀ name, mergeUnder (under name) (under name) = under name) (names : List String)
    (name : String) :
    (wantAll under names).nested? name = if name ∈ names then under name else none := by
  induction names using List.reverseRecOn with
  | nil => rfl
  | append_singleton names n ih =>
    have hmem : name ∈ names ++ [n] ↔ name = n ∨ name ∈ names := by
      rw [List.mem_append, List.mem_singleton, or_comm]
    rw [wantAll_concat, nested?_want]
    by_cases hn : name = n
    · subst hn
      rw [if_pos rfl, if_pos (hmem.2 (.inl rfl)), ih]
      split
      · exact h name
      · cases under name <;> rfl
    · simp only [hmem, hn, false_or, if_false, ih]

/-- The lists under the fields, told from the names and from what is under them. -/
theorem relatedLists_eq_filterMap {r : Items} (h : r.Distinct) :
    r.relatedLists = r.names.filterMap fun name =>
      (r.nested? name).map fun nested => (name, nested.names) := by
  induction r using cons_induction with
  | empty => rfl
  | cons n under rest _ ih =>
    obtain ⟨hn, -, hrest⟩ := distinct_cons.1 h
    -- no other name is that of the first field, so what is under it stays what it is
    have htail : (rest.names.filterMap fun name =>
        ((cons n under rest).nested? name).map fun nested => (name, nested.names)) =
        rest.relatedLists := by
      rw [ih hrest]
      refine List.filterMap_congr fun name hname => ?_
      have hne : n ≠ name := fun e => hn (e ▸ hname)
      rw [nested?_cons, if_neg hne]
    rw [names_cons, List.filterMap_cons, htail, nested?_cons, if_pos rfl]
    cases under <;> rfl

end Items

/-! ### Lower levels -/

/-- The request with so many levels under it, and nothing under those. -/
def cut (r : Request) (below : Nat) : Request :=
  ⟨r.items.cut below, r.distinct.cut below⟩

/-- The number of levels. -/
def levels (r : Request) : Nat :=
  r.items.levels

theorem names_cut (r : Request) (below : Nat) : (r.cut below).names = r.names :=
  r.items.names_cut below

theorem map_items_injective {a b : Option Request} (h : a.map items = b.map items) : a = b :=
  Option.map_injective (fun _ _ => eq_of_items) h

theorem nested?_cut_zero (r : Request) (name : String) : (r.cut 0).nested? name = none :=
  map_items_injective (((r.cut 0).map_items_nested? name).trans (r.items.nested?_cut_zero name))

theorem nested?_cut_succ (r : Request) (below : Nat) (name : String) :
    (r.cut (below + 1)).nested? name = (r.nested? name).map (cut · below) := by
  refine map_items_injective ?_
  have hcut : items ∘ (cut · below) = (Items.cut · below) ∘ items := rfl
  rw [map_items_nested?, Option.map_map, hcut, ← Option.map_map, map_items_nested?]
  exact r.items.nested?_cut_succ below name

theorem cut_eq_self_iff {below : Nat} {r : Request} : r.cut below = r ↔ r.levels ≤ below + 1 := by
  rw [levels, ← Items.cut_eq_self_iff]
  exact ⟨fun h => congrArg items h, fun h => eq_of_items h⟩

theorem mem_names_of_nested? {r nested : Request} {name : String}
    (h : r.nested? name = some nested) : name ∈ r.names := by
  have hitems := r.map_items_nested? name
  rw [h] at hitems
  exact Items.mem_names_of_nested? hitems.symm

theorem nodup_names (r : Request) : r.names.Nodup :=
  r.distinct.nodup_names

/-! ### Flat lists -/

theorem items_ofNames (names : List String) :
    (ofNames names).items = Items.wantAll (fun _ => none) names :=
  (List.foldl_hom items fun _ _ => rfl).symm

theorem items_withRelated (names : List String) (related : Assoc (List String)) :
    (withRelated names related).items =
      Items.wantAll (fun name => (related.get? name).map fun l => (ofNames l).items) names :=
  (List.foldl_hom items fun r name => by beta_reduce; cases related.get? name <;> rfl).symm

theorem names_ofNames (names : List String) : (ofNames names).names = names.eraseDups := by
  rw [Request.names, items_ofNames, Items.names_wantAll]

theorem nested?_ofNames (names : List String) (name : String) :
    (ofNames names).nested? name = none := by
  refine map_items_injective ?_
  rw [map_items_nested?, items_ofNames, Items.nested?_wantAll fun _ => rfl, ite_self]
  rfl

theorem names_withRelated (names : List String) (related : Assoc (List String)) :
    (withRelated names related).names = names.eraseDups := by
  rw [Request.names, items_withRelated, Items.names_wantAll]

/-- Under a field there is its list, if the field is wanted and has one. -/
theorem nested?_withRelated (names : List String) (related : Assoc (List String)) (name : String) :
    (withRelated names related).nested? name =
      if name ∈ names then (related.get? name).map ofNames else none := by
  have hagain (name : String) :
      Items.mergeUnder ((related.get? name).map fun l => (ofNames l).items)
        ((related.get? name).map fun l => (ofNames l).items) =
        (related.get? name).map fun l => (ofNames l).items := by
    cases related.get? name with
    | none => rfl
    | some l => exact congrArg (some ∘ items) (merge_eq_left_iff.2 (includes_refl (ofNames l)))
  refine map_items_injective ?_
  rw [map_items_nested?, items_withRelated, Items.nested?_wantAll hagain, apply_ite (Option.map _),
    Option.map_map]
  rfl

/-! ### Flattening -/

/-- The entries of a flattened request are the lists under its fields. -/
theorem entries_flatten (r : Request) :
    r.flatten.2.entries = r.names.filterMap fun name =>
      (r.nested? name).map fun nested => (name, nested.names) := by
  have hlists : r.items.relatedLists = r.names.filterMap fun name =>
      (r.nested? name).map fun nested => (name, nested.names) := by
    rw [Items.relatedLists_eq_filterMap r.distinct]
    refine List.filterMap_congr fun name _ => ?_
    rw [← map_items_nested?, Option.map_map]
    rfl
  have hkeys : r.items.relatedLists.map Prod.fst =
      r.names.filter fun name => (r.nested? name).isSome := by
    rw [hlists, List.map_filterMap, ← List.filterMap_eq_filter]
    refine List.filterMap_congr fun name _ => ?_
    cases h : r.nested? name <;> simp [Option.guard, h]
  have hnodup : (r.items.relatedLists.map Prod.fst).Nodup := by
    rw [hkeys]
    exact r.nodup_names.filter _
  rw [flatten, Assoc.entries_ofList hnodup, hlists]

/-- A field has a list when there is a request under it. -/
theorem get?_flatten (r : Request) (name : String) :
    r.flatten.2.get? name = (r.nested? name).map names := by
  ext l
  rw [Assoc.get?_eq_some_iff, entries_flatten, List.mem_filterMap]
  simp only [Option.map_eq_some_iff, Prod.mk.injEq]
  constructor
  · rintro ⟨n, -, nested, h, rfl, hl⟩
    exact ⟨nested, h, hl⟩
  · rintro ⟨nested, h, hl⟩
    exact ⟨name, mem_names_of_nested? h, nested, h, rfl, hl⟩

theorem cut_zero (r : Request) : r.cut 0 = ofNames r.names := by
  refine eq_of_nested? ?_ fun name => ?_
  · rw [names_cut, names_ofNames, eraseDups_of_nodup r.nodup_names]
  · rw [nested?_cut_zero, nested?_ofNames]

/-- What is made of a flattened request is the request without what lies deeper. -/
theorem withRelated_names (r : Request) {related : Assoc (List String)}
    (h : ∀ name, related.get? name = r.flatten.2.get? name) :
    withRelated r.names related = r.cut 1 := by
  refine eq_of_nested? ?_ fun name => ?_
  · rw [names_withRelated, names_cut, eraseDups_of_nodup r.nodup_names]
  · have hcut : ofNames ∘ names = (cut · 0) := funext fun nested => nested.cut_zero.symm
    rw [nested?_withRelated, nested?_cut_succ, h, get?_flatten, Option.map_map, hcut]
    split
    · rfl
    · next hname => 
      rw [Option.eq_none_iff_forall_ne_some.2 fun _ hn => hname (mem_names_of_nested? hn),
        Option.map_none]

/-- Without repetitions, the lists that are left are those of the wanted fields. -/
theorem entries_flatten_withRelated (names : List String) (related : Assoc (List String)) :
    (withRelated names related).flatten.2.entries =
      names.eraseDups.filterMap fun name =>
        (related.get? name).map fun l => (name, l.eraseDups) := by
  rw [entries_flatten, names_withRelated]
  refine List.filterMap_congr fun name hname => ?_
  rw [nested?_withRelated, if_pos (List.mem_eraseDups.1 hname), Option.map_map]
  exact congrArg (Option.map · _) (funext fun l => congrArg (name, ·) (names_ofNames l))

end Request

/-! ### What a caller says -/

namespace Wanted

/-- The names of fields under a field, besides what was said before. -/
def relate (w : Wanted) (name : String) (names : List String) : Wanted :=
  { w with related := w.related.insert name names }

/-- The names of fields, and one list after another of fields under fields. -/
def flat (names : List String) (lists : List (String × List String)) : Wanted :=
  lists.foldl (fun w entry => w.relate entry.1 entry.2) { names := some names }

theorem flat_eq (names : List String) (lists : List (String × List String)) :
    flat names lists = { names := some names, related := Assoc.ofList lists } :=
  List.foldl_hom (fun related : Assoc (List String) => ({ names := some names, related } : Wanted))
    fun _ _ => rfl

end Wanted

theorem Model.select_congr {m : Model} {w w' : Wanted}
    (h : w.resolve m.table = w'.resolve m.table) : m.select w = m.select w' := by
  rw [Model.select, h, ← Model.select]

/-- What a caller gets who gives the lists of a flattened request, in any order. -/
theorem Model.select_flat (m : Model) (r : Request) {lists : List (String × List String)}
    (h : lists.Perm r.flatten.2.entries) :
    m.select (.flat r.flatten.1 lists) = m.select { request := some (r.cut 1) } := by
  refine Model.select_congr ?_
  rw [Wanted.flat_eq]
  exact congrArg Except.ok (r.withRelated_names fun name => Assoc.get?_ofList_of_perm h name)

/-! ### The main statement -/

/-- **Flat lists say the first two levels of a request, and no more.** A flattened request leads
back to the request without its lower levels, which is the request itself when it has none, and a
caller who gives the lists, in any order, gets what the request gets. Flat lists in turn lead back
to themselves without repetitions, and without the lists of fields that are not wanted. -/
theorem Request.withRelated_flatten (r : Request) (m : Model) (names : List String)
    (related : Assoc (List String)) :
    withRelated r.flatten.1 r.flatten.2 = r.cut 1 ∧
      (r.cut 1 = r ↔ r.levels ≤ 2) ∧
      (∀ lists : List (String × List String), lists.Perm r.flatten.2.entries →
        m.select (.flat r.flatten.1 lists) = m.select { request := some (r.cut 1) } ∧
          (r.levels ≤ 2 →
            m.select (.flat r.flatten.1 lists) = m.select { request := some r })) ∧
      (withRelated names related).flatten.1 = names.eraseDups ∧
      (withRelated names related).flatten.2.entries =
        names.eraseDups.filterMap fun name =>
          (related.get? name).map fun l => (name, l.eraseDups) := by
  refine ⟨r.withRelated_names fun _ => rfl, cut_eq_self_iff, fun lists h => ?_,
    names_withRelated names related, entries_flatten_withRelated names related⟩
  have hflat := m.select_flat r h
  refine ⟨hflat, fun hlevels => ?_⟩
  rw [hflat, cut_eq_self_iff.2 hlevels]

/-- Two lists in the other order, one of them empty, and flat lists with repetitions. -/
theorem Request.withRelated_flatten_posts :
    let r : Request :=
      ((ofNames ["title"]).addNested "comments" (ofNames ["body"])).addNested "tags" ∅
    let m : Model := {
      table := "blog.posts p"
      fields := .relation "comments" (Link.ofText .many "c.post = p.id") "blog.comments c"
        (.column "body" (Column.ofSelect "c.body") .empty) .empty }
    let related : Assoc (List String) :=
      Assoc.ofList [("author", ["name"]), ("comments", ["body", "stars", "body"])]
    r.levels ≤ 2 ∧ [("tags", []), ("comments", ["body"])].Perm r.flatten.2.entries ∧
      m.select (.flat ["title", "comments", "tags"] [("tags", []), ("comments", ["body"])]) =
        m.select { request := some r } ∧
      (withRelated ["comments", "title", "comments"] related).flatten.2.entries =
        [("comments", ["body", "stars"])] := by
  intro r m related
  have hlevels : r.levels ≤ 2 := by decide
  have hlists : [("tags", []), ("comments", ["body"])].Perm r.flatten.2.entries := by decide
  obtain ⟨-, -, hselect, -, hrelated⟩ :=
    withRelated_flatten r m ["comments", "title", "comments"] related
  refine ⟨hlevels, hlists, (hselect _ hlists).2 hlevels, ?_⟩
  rw [hrelated]
  decide

end SqlAssembly
