import SqlAssembly.Proofs.Request.Agreement
import SqlAssembly.Proofs.Request.Paths

/-!
# Building requests

A request is built by adding fields, some with a request under them. To add something is to merge
the request for it alone, so the result is the least request that includes all that was added.

* `agrees_iff_includes`: requests agree when each includes the other.
* `includes_addAll_iff`: what includes a built request includes everything that was added.
* `building_laws`: the order of what is added does not matter, and what is added again changes
  nothing.
-/

namespace SqlAssembly.Request

variable {r s t : Request}

/-! ### Agreement -/

/-- At the end of a path, requests that agree have requests that agree. -/
theorem at?_of_agrees (h : r.agrees s = true) (path : List String) :
    Option.Rel (fun x y => x.agrees y = true) (r.at? path) (s.at? path) := by
  induction path generalizing r s with
  | nil => exact .some h
  | cons name path ih =>
    rw [at?_cons, at?_cons]
    have hrel := nested?_of_agrees h name
    generalize r.nested? name = a at hrel ⊢
    generalize s.nested? name = b at hrel ⊢
    cases hrel with
    | none => exact .none
    | some hxy => exact ih hxy

theorem isSome_at?_of_agrees (h : r.agrees s = true) (path : List String) :
    (r.at? path).isSome = (s.at? path).isSome := by
  have hrel := at?_of_agrees h path
  generalize r.at? path = a at hrel ⊢
  generalize s.at? path = b at hrel ⊢
  cases hrel <;> rfl

theorem wants_iff_of_agrees (h : r.agrees s = true) (path : List String) :
    r.Wants path ↔ s.Wants path := by
  rcases List.eq_nil_or_concat path with rfl | ⟨path, name, rfl⟩
  · simp [not_wants_nil]
  · rw [List.concat_eq_append, wants_concat_iff, wants_concat_iff]
    have hrel := at?_of_agrees h path
    generalize r.at? path = a at hrel ⊢
    generalize s.at? path = b at hrel ⊢
    cases hrel with
    | none => simp
    | some hxy => simp [contains_eq_of_agrees hxy]

theorem includes_of_agrees (h : r.agrees s = true) : r.Includes s ∧ s.Includes r := by
  constructor
  · exact includes_iff.2 ⟨fun path => (wants_iff_of_agrees h path).2, fun path hs => by
      rwa [isSome_at?_of_agrees h]⟩
  · exact includes_iff.2 ⟨fun path => (wants_iff_of_agrees h path).1, fun path hr => by
      rwa [← isSome_at?_of_agrees h]⟩

theorem agrees_of_includes (h : r.Includes s) (h' : s.Includes r) : r.agrees s = true := by
  induction r using induction_on_nested generalizing s with
  | step r ih =>
    have hnames (name : String) : r.contains name = s.contains name :=
      Bool.eq_iff_iff.2 ⟨h'.contains, h.contains⟩
    refine agrees_of_nested? hnames fun name => ?_
    cases hr : r.nested? name with
    | none =>
      cases hs : s.nested? name with
      | none => exact .none
      | some y =>
        obtain ⟨x, hx, -⟩ := h.nested? hs
        rw [hr] at hx
        cases hx
    | some x =>
      obtain ⟨y, hs, hyx⟩ := h'.nested? hr
      obtain ⟨x', hr', hxy⟩ := h.nested? hs
      rw [hr] at hr'
      cases hr'
      rw [hs]
      exact .some (ih name x hr hxy hyx)

/-- Requests agree when each includes the other. -/
theorem agrees_iff_includes : r.agrees s = true ↔ r.Includes s ∧ s.Includes r :=
  ⟨includes_of_agrees, fun h => agrees_of_includes h.1 h.2⟩

/-! ### Additions -/

/-- Something to add to a request. -/
inductive Addition where
  | field (name : String)
  | nested (name : String) (request : Request)

/-- The request for an addition alone. -/
def Addition.request : Addition → Request
  | field name => empty.add name
  | nested name request => empty.addNested name request

/-- The request with an addition. -/
def put (r : Request) : Addition → Request
  | .field name => r.add name
  | .nested name request => r.addNested name request

/-- The request with additions, made one after another. -/
def addAll (r : Request) (l : List Addition) : Request :=
  l.foldl put r

theorem put_eq_merge (r : Request) (a : Addition) : r.put a = r.merge a.request := by
  cases a <;> rfl

theorem addAll_append (r : Request) (l m : List Addition) :
    r.addAll (l ++ m) = (r.addAll l).addAll m :=
  List.foldl_append

/-- What includes a built request includes what it was built from. -/
theorem includes_addAll_iff {l : List Addition} :
    t.Includes (r.addAll l) ↔ t.Includes r ∧ ∀ a ∈ l, t.Includes a.request := by
  induction l generalizing r with
  | nil => simp [addAll]
  | cons a l ih =>
    rw [List.forall_mem_cons, ← and_assoc, ← includes_merge_iff, ← put_eq_merge]
    exact ih

/-- What was added may be added again, which changes nothing. -/
theorem put_addAll {a : Addition} {l : List Addition} (h : a ∈ l) :
    (r.addAll l).put a = r.addAll l := by
  rw [put_eq_merge, merge_eq_left_iff]
  exact (includes_addAll_iff.1 (includes_refl _)).2 a h

theorem agrees_addAll_of_perm {l m : List Addition} (h : l.Perm m) :
    (r.addAll l).agrees (r.addAll m) = true := by
  have hl := includes_addAll_iff.1 (includes_refl (r.addAll l))
  have hm := includes_addAll_iff.1 (includes_refl (r.addAll m))
  refine agrees_of_includes ?_ ?_
  · exact includes_addAll_iff.2 ⟨hl.1, fun a ha => hl.2 a (h.mem_iff.2 ha)⟩
  · exact includes_addAll_iff.2 ⟨hm.1, fun a ha => hm.2 a (h.mem_iff.1 ha)⟩

/-- How a request grows by additions. -/
structure Grows (r : Request) (l : List Addition) : Prop where
  /-- In another order they give a request that agrees. -/
  perm : ∀ m, l.Perm m → (r.addAll l).agrees (r.addAll m) = true
  /-- Made again later, one of them changes nothing, not even the order of the names. -/
  again : ∀ a ∈ l, ∀ later, r.addAll (l ++ a :: later) = r.addAll (l ++ later)
  /-- No addition takes a path away. -/
  wants : ∀ a path, r.Wants path → (r.put a).Wants path
  /-- No addition takes the request at the end of a path away. -/
  at? : ∀ a path, (r.at? path).isSome = true → ((r.put a).at? path).isSome = true

/-- **Requests may be built in any order.** Additions in another order give a request that agrees,
one that is repeated changes nothing, and none takes a path away. Merging, which all of them come
down to, is associative and idempotent, and commutative up to the order of names. -/
theorem building_laws (r s t : Request) (l : List Addition) :
    r.Grows l ∧ (r.merge s).merge t = r.merge (s.merge t) ∧ r.merge r = r ∧
      (r.merge s).agrees (s.merge r) = true := by
  refine ⟨⟨fun m => agrees_addAll_of_perm, fun a ha later => ?_, fun a path h => ?_,
    fun a path h => ?_⟩, merge_assoc r s t, merge_eq_left_iff.2 (includes_refl r), ?_⟩
  · rw [addAll_append, addAll_append]
    exact congrArg (addAll · later) (put_addAll ha)
  · rw [put_eq_merge]
    exact (wants_merge r a.request path).2 (.inl h)
  · rw [put_eq_merge]
    exact (isSome_at?_merge r a.request path).2 (.inl h)
  · have hrs := includes_merge_iff.1 (includes_refl (r.merge s))
    have hsr := includes_merge_iff.1 (includes_refl (s.merge r))
    exact agrees_of_includes (includes_merge_iff.2 hrs.symm) (includes_merge_iff.2 hsr.symm)

end SqlAssembly.Request
