import SqlAssembly.Proofs.Model.Emitted
import SqlAssembly.Proofs.Request.Agreement

/-!
# What counts of a request

A model answers a part of a request: the wanted columns, and the relations with a request under
them, of which again the part counts that their models answer. `Fields.effective` is this part,
listed as the model lists its fields.

* `effective_eq_iff`: two requests have the same effective part when they want the same columns, and
  the same of every relation.
* `effective_eq_of_agrees`: the order of a request does not count, at any level.
* `compile_eq_of_effective_eq`: nothing but the effective part counts for the query.
-/

namespace SqlAssembly

/-- The part of a request that is answered: the wanted columns, and the wanted relations under which
something is wanted, with the part of it that their models answer. The fields are in the order of
the model, be the request in whatever order. -/
def Fields.effective (r : Request) : Fields → Request.Items
  | empty => .empty
  | column name _ rest =>
    if r.contains name then .leaf name (rest.effective r) else rest.effective r
  | relation name _ _ target rest =>
    match r.under? name with
    | some nested => .branch name (target.effective nested) (rest.effective r)
    | none => rest.effective r

/-- Something is wanted only under a wanted field. -/
theorem Request.contains_of_under? {r nested : Request} {name : String}
    (h : r.under? name = some nested) : r.contains name = true := by
  rw [under?] at h
  split at h
  · assumption
  · cases h

/-! ### When two requests have the same effective part -/

namespace Fields

variable {r s : Request}

/-- What the effective part has of a field, the request has. -/
theorem of_get?_effective {fs : Fields} {name : String} {under : Option Request.Items}
    (h : (fs.effective r).get? name = some under) :
    r.contains name = true ∧ (under.isSome = true → (r.under? name).isSome = true) := by
  induction fs with
  | empty => cases h
  | column n c rest ih =>
    rw [effective] at h
    split at h
    · next hn =>
      rw [Request.Items.get?] at h
      split at h
      · next e =>
        subst e
        cases h
        exact ⟨hn, fun hnone => by cases hnone⟩
      · exact ih h
    · exact ih h
  | relation n link table target rest _ ih =>
    rw [effective] at h
    split at h
    · next nested hn =>
      rw [Request.Items.get?] at h
      split at h
      · next e =>
        subst e
        exact ⟨Request.contains_of_under? hn, fun _ => Option.isSome_iff_exists.2 ⟨nested, hn⟩⟩
      · exact ih h
    · exact ih h

theorem effective_ne_leaf {fs : Fields} {name : String} (h : r.contains name = false)
    (x : Request.Items) : fs.effective r ≠ .leaf name x := by
  intro he
  have hget : (fs.effective r).get? name = some none := by
    rw [he]
    exact if_pos rfl
  rw [(of_get?_effective hget).1] at h
  cases h

theorem effective_ne_branch {fs : Fields} {name : String} (h : r.under? name = none)
    (x y : Request.Items) : fs.effective r ≠ .branch name x y := by
  intro he
  have hget : (fs.effective r).get? name = some (some x) := by
    rw [he]
    exact if_pos rfl
  have hsome := (of_get?_effective hget).2 rfl
  rw [h] at hsome
  cases hsome

theorem effective_column_eq_iff {name : String} {c : Column} {rest : Fields} :
    (column name c rest).effective r = (column name c rest).effective s ↔
      r.contains name = s.contains name ∧ rest.effective r = rest.effective s := by
  rw [effective, effective]
  cases hr : r.contains name <;> cases hs : s.contains name
  · simp
  · simp [effective_ne_leaf hr]
  · simp [(effective_ne_leaf hs _).symm]
  · simp

theorem effective_relation_eq_iff {name : String} {link : Link} {table : String}
    {target rest : Fields} :
    (relation name link table target rest).effective r =
        (relation name link table target rest).effective s ↔
      (r.under? name).map (fun nested => target.effective nested) =
          (s.under? name).map (fun nested => target.effective nested) ∧
        rest.effective r = rest.effective s := by
  rw [effective, effective]
  cases hr : r.under? name <;> cases hs : s.under? name
  · simp
  · simp [effective_ne_branch hr]
  · simp [(effective_ne_branch hs _ _).symm]
  · simp

/-- Two requests have the same effective part when they want the same columns, and the same
relations with the same effective part under each. -/
theorem effective_eq_iff {fs : Fields} :
    fs.effective r = fs.effective s ↔
      (∀ name c, (name, Field.column c) ∈ fs.toList → r.contains name = s.contains name) ∧
        ∀ name link target, (name, Field.relation link target) ∈ fs.toList →
          (r.under? name).map (fun nested => target.fields.effective nested) =
            (s.under? name).map (fun nested => target.fields.effective nested) := by
  induction fs with
  | empty => simp [toList, effective]
  | column n c rest ih =>
    rw [effective_column_eq_iff, ih]
    simp only [toList, List.mem_cons, Prod.mk.injEq]
    constructor
    · rintro ⟨hn, hc, hr⟩
      refine ⟨?_, ?_⟩
      · rintro name d (⟨rfl, -⟩ | h)
        · exact hn
        · exact hc name d h
      · rintro name link target (⟨-, ⟨⟩⟩ | h)
        exact hr name link target h
    · rintro ⟨hc, hr⟩
      exact ⟨hc n c (.inl ⟨rfl, rfl⟩), fun name d h => hc name d (.inr h),
        fun name link target h => hr name link target (.inr h)⟩
  | relation n l table target rest _ ih =>
    rw [effective_relation_eq_iff, ih]
    simp only [toList, List.mem_cons, Prod.mk.injEq]
    constructor
    · rintro ⟨hn, hc, hr⟩
      refine ⟨?_, ?_⟩
      · rintro name d (⟨-, ⟨⟩⟩ | h)
        exact hc name d h
      · rintro name link target' (⟨rfl, ⟨⟩⟩ | h)
        · exact hn
        · exact hr name link target' h
    · rintro ⟨hc, hr⟩
      exact ⟨hr n l ⟨table, target⟩ (.inl ⟨rfl, rfl⟩), fun name d h => hc name d (.inr h),
        fun name link target h => hr name link target (.inr h)⟩

end Fields

/-! ### What the order of a request does -/

theorem Request.under?_of_agrees {r s : Request} (h : r.agrees s = true) (name : String) :
    Option.Rel (fun x y => x.agrees y = true) (r.under? name) (s.under? name) := by
  have hnested := nested?_of_agrees h name
  rw [under?, under?, contains_eq_of_agrees h]
  generalize r.nested? name = x, s.nested? name = y at hnested
  split
  · cases hnested with
    | none => exact .none
    | some hxy =>
      rw [Option.filter_some, Option.filter_some, isEmpty_eq_of_agrees hxy]
      split
      · exact .some hxy
      · exact .none
  · exact .none

/-- Requests that agree have the same effective part: their order does not count. -/
theorem Fields.effective_eq_of_agrees {fs : Fields} {r s : Request} (h : r.agrees s = true) :
    fs.effective r = fs.effective s := by
  induction fs generalizing r s with
  | empty => rfl
  | column name c rest ih =>
    exact effective_column_eq_iff.2 ⟨Request.contains_eq_of_agrees h name, ih h⟩
  | relation name link table target rest iht ih =>
    refine effective_relation_eq_iff.2 ⟨?_, ih h⟩
    have hunder := Request.under?_of_agrees h name
    generalize r.under? name = x, s.under? name = y at hunder
    cases hunder with
    | none => rfl
    | some hxy => exact congrArg some (iht hxy)

/-! ### The walk -/

theorem gather_eq_of_effective_eq {fs : Fields} {r s : Request}
    (h : fs.effective r = fs.effective s) (g : Gathered) :
    (fs.gather r g).result = (fs.gather s g).result := by
  induction fs generalizing r s g with
  | empty => rfl
  | column name c rest ih =>
    obtain ⟨hc, hrest⟩ := Fields.effective_column_eq_iff.1 h
    simp only [result_gather_column, hc, ih hrest]
  | relation name link table target rest iht ih =>
    obtain ⟨hu, hrest⟩ := Fields.effective_relation_eq_iff.1 h
    rw [result_gather_relation, result_gather_relation]
    cases hr : r.under? name <;> cases hs : s.under? name <;> rw [hr, hs] at hu
    · exact ih hrest g
    · cases hu
    · cases hu
    · simp only [iht (Option.some.inj hu), ih hrest]

/-- **A query depends on the effective part of the request alone.** Two requests with the same
effective part give the same query, or fail in the same way. -/
theorem compile_eq_of_effective_eq {m : Model} {r s : Request}
    (h : m.fields.effective r = m.fields.effective s) :
    (m.compile r).result = (m.compile s).result := by
  rw [result_compile, result_compile, gather_eq_of_effective_eq h]

/-- Posts with their title and date, their comments and their tags. -/
def posts : Model where
  table := "blog.posts p"
  fields :=
    .column "title" (Column.ofSelect "p.title") <|
    .column "date" (Column.ofSelect "p.date") <|
    .relation "comments" (Link.ofText .many "c.post = p.id") "blog.comments c"
      (.column "body" (Column.ofSelect "c.body") .empty) <|
    .relation "tags" (Link.ofText .many "t.post = p.id") "blog.tags t"
      (.column "name" (Column.ofSelect "t.name") .empty) .empty

/-- The titles of the posts and the bodies of their comments, besides a relation without a request
under it. -/
def titlesAndBodies : Request :=
  (Request.ofNames ["title", "tags"]).addNested "comments" (Request.ofNames ["body"])

/-- The same with other things that do not count: names that are not known, a request under a
column, and an empty request under a relation. -/
def bodiesAndTitles : Request :=
  (((Request.ofNames ["author"]).addNested "comments" (Request.ofNames ["stars", "body"])).addNested
    "title" (Request.ofNames ["length"])).addNested "tags" ∅

/-- The order, and what a model does not answer, do not count. -/
theorem compile_titlesAndBodies :
    posts.fields.effective titlesAndBodies = posts.fields.effective bodiesAndTitles ∧
      (posts.compile titlesAndBodies).result = (posts.compile bodiesAndTitles).result :=
  ⟨by decide, compile_eq_of_effective_eq (by decide)⟩

end SqlAssembly
