import SqlAssembly.Proofs.Firsts
import SqlAssembly.Proofs.Model.Parts

/-!
# What a query has in it

The query of a model has in it what its parts give, and nothing else.

* `Select.Assembles` says how a query is put together from what the parts give.
* `Model.Asks` leads from a model to the models below it whose queries the query contains. One that
  has nothing to select makes the whole query fail, and so does one whose parts bind a name to
  unequal data; nothing else does.
* `compile_emits`: queries are put together so, and fail so.
-/

namespace SqlAssembly

open Fields (Part)

/-! ### How a query is put together -/

/-- The query is put together from what its parts give. -/
structure Select.Assembles (s : Select) (table : String) (given : List Gathered) : Prop where
  /-- It selects the expressions of the parts from the table and their joins, each once. -/
  head : ∃ selects joins, FirstsOf selects (given.flatMap Gathered.selects) ∧
    FirstsOf joins (given.flatMap Gathered.joins) ∧
    s.head = "SELECT " ++ ",".intercalate selects ++ " FROM " ++ table ++
      if joins.isEmpty then "" else " " ++ " ".intercalate joins
  /-- The conditions are those of the parts, each once and without bindings. Behind them comes one
  without a text exactly when a part binds something; it binds every name to the first datum that a
  part has for it. -/
  conditions : ∃ (filters : List String) (carried : Option Bindings),
    FirstsOf filters (given.flatMap Gathered.filters) ∧
    s.conditions = filters.map Predicate.ofText ++ carried.toList.map Predicate.ofBindings ∧
    (carried.isSome = true ↔ ∃ g ∈ given, g.bindings.isEmpty = false) ∧
    ∀ b, carried = some b → ∀ n, b.get? n = given.findSome? fun g => g.bindings.get? n

theorem isEmpty_eraseDups (l : List String) : l.eraseDups.isEmpty = l.isEmpty := by
  cases l with
  | nil => rfl
  | cons a l => rw [List.eraseDups_cons]; rfl

/-- Something is bound in the end when a part binds something. -/
theorem Gathered.IsSum.isEmpty_bindings {total : Gathered} {given : List Gathered}
    (h : total.IsSum given) :
    total.bindings.isEmpty = false ↔ ∃ g ∈ given, g.bindings.isEmpty = false := by
  simp only [Assoc.isEmpty_eq_false_iff, h.get?, ← Option.isSome_iff_exists,
    List.findSome?_isSome_iff, ← exists_and_left]
  exact exists_comm

theorem Gathered.IsSum.assembles {total : Gathered} {given : List Gathered} {table : String}
    {s : Select} (h : total.IsSum given) (hs : total.finish table = .ok s) :
    s.Assembles table given := by
  obtain ⟨-, rfl⟩ := Gathered.finish_eq_ok_iff.1 hs
  refine ⟨⟨_, _, firstsOf_eraseDups _, firstsOf_eraseDups _, ?_⟩, ?_⟩
  · rw [← h.selects, ← h.joins, isEmpty_eraseDups]
    rfl
  · refine ⟨_, if total.bindings.isEmpty then none else some total.bindings, firstsOf_eraseDups _,
      ?_, ?_, ?_⟩
    · rw [← h.filters]
      show total.conditions = _
      rw [Gathered.conditions]
      split <;> rfl
    · rw [← h.isEmpty_bindings]
      cases total.bindings.isEmpty <;> simp
    · intro b hb n
      split at hb
      · cases hb
      · cases hb
        exact h.get? n

theorem compile_assembles {m : Model} {r : Request} {s : Select}
    (h : (m.compile r).result = .ok s) :
    ∃ given, m.given r = .ok given ∧ s.Assembles m.table given := by
  obtain ⟨given, hgiven, total, htotal, hs⟩ := compile_eq_ok_iff_given.1 h
  exact ⟨given, hgiven, (isSum_of_foldlM_append htotal).assembles hs⟩

/-! ### How a query fails -/

/-- Whoever asks `m` for `r` asks `m'` for `r'`: this is the model itself, or one that a part leads
to, at any depth. -/
inductive Model.Asks : Model → Request → Model → Request → Prop
  | self (m : Model) (r : Request) : Asks m r m r
  | part {m target m' : Model} {r nested r' : Request} {name : String} {link : Link}
      (hp : .relation name link target nested ∈ m.fields.parts r)
      (h : Asks target nested m' r') : Asks m r m' r'

namespace Model

/-- All parts are columns without an expression. -/
def SelectsNothing (m : Model) (r : Request) : Prop :=
  ∀ p ∈ m.fields.parts r, ∃ c, p = .column c ∧ c.selects = []

/-- Two parts bind a name to unequal data. -/
def Conflicts (m : Model) (r : Request) : Prop :=
  ∃ given, m.given r = .ok given ∧ ¬given.Pairwise Gathered.Agree

/-- No model that is asked has a conflict. -/
def ConflictFree (m : Model) (r : Request) : Prop :=
  ∀ m' r', m.Asks r m' r' → ¬m'.Conflicts r'

end Model

theorem selects_eq_nil_iff {p : Part} {g : Gathered} (h : p.given = .ok g) :
    g.selects = [] ↔ ∃ c, p = .column c ∧ c.selects = [] := by
  cases p with
  | column c =>
    cases h
    exact ⟨fun hc => ⟨c, rfl, hc⟩, by rintro ⟨_, ⟨⟩, hc⟩; exact hc⟩
  | relation name link target nested =>
    obtain ⟨s, -, hg⟩ := bind_eq_ok_iff.1 h
    cases hg
    exact ⟨nofun, by rintro ⟨_, ⟨⟩, -⟩⟩

/-- There is nothing to select when no part gives an expression. -/
theorem selectsNothing_iff {m : Model} {r : Request} {given : List Gathered}
    (h : m.given r = .ok given) :
    m.SelectsNothing r ↔ given.flatMap Gathered.selects = [] := by
  rw [Model.SelectsNothing]
  replace h := mapM_eq_ok_iff.1 h
  generalize m.fields.parts r = parts at h ⊢
  induction h with
  | nil => simp
  | cons hp _ ih =>
    rw [List.forall_mem_cons, List.flatMap_cons, List.append_eq_nil_iff]
    exact and_congr (selects_eq_nil_iff hp).symm ih

/-- All parts give something when the queries of all relations succeed. -/
theorem exists_given_iff {m : Model} {r : Request} :
    (∃ given, m.given r = .ok given) ↔
      ∀ name link target nested, .relation name link target nested ∈ m.fields.parts r →
        ∃ s, (target.compile nested).result = .ok s := by
  rw [Model.given, exists_mapM_iff]
  constructor
  · intro h name link target nested hp
    obtain ⟨g, hg⟩ := h _ hp
    obtain ⟨s, hs, -⟩ := bind_eq_ok_iff.1 hg
    exact ⟨s, hs⟩
  · intro h p hp
    cases p with
    | column c => exact ⟨_, rfl⟩
    | relation name link target nested =>
      obtain ⟨s, hs⟩ := h name link target nested hp
      exact ⟨_, bind_eq_ok_iff.2 ⟨s, hs, rfl⟩⟩

/-- A query fails when there is nothing to select, when its parts conflict, or when the query of a
relation fails. -/
theorem compile_fails_iff {m : Model} {r : Request} :
    (∃ e, (m.compile r).result = .error e) ↔
      m.SelectsNothing r ∨ m.Conflicts r ∨
        ∃ name link target nested, .relation name link target nested ∈ m.fields.parts r ∧
          ∃ e, (target.compile nested).result = .error e := by
  have hfails (m : Model) (r : Request) :
      (∃ e, (m.compile r).result = .error e) ↔ ¬∃ s, (m.compile r).result = .ok s := by
    cases (m.compile r).result <;> simp
  rw [hfails, exists_compile_iff]
  constructor
  · intro h
    by_cases hgiven : ∃ given, m.given r = .ok given
    · obtain ⟨given, hgiven⟩ := hgiven
      rw [selectsNothing_iff hgiven]
      by_cases hagree : given.Pairwise Gathered.Agree
      · exact .inl (by_contra fun hs => h ⟨given, hgiven, hagree, hs⟩)
      · exact .inr (.inl ⟨given, hgiven, hagree⟩)
    · simp only [exists_given_iff, not_forall] at hgiven
      obtain ⟨name, link, target, nested, hp, he⟩ := hgiven
      exact .inr (.inr ⟨name, link, target, nested, hp, (hfails target nested).2 he⟩)
  · rintro h ⟨given, hgiven, hagree, hselects⟩
    rcases h with h | ⟨given', hgiven', h⟩ | ⟨name, link, target, nested, hp, h⟩
    · exact hselects ((selectsNothing_iff hgiven).1 h)
    · rw [hgiven] at hgiven'
      cases hgiven'
      exact h hagree
    · exact (hfails target nested).1 h (exists_given_iff.1 ⟨given, hgiven⟩ _ _ _ _ hp)

/-- A query fails exactly when some model that is asked has nothing to select or a conflict. -/
theorem compile_fails_iff_exists_asks {m : Model} {r : Request} :
    (∃ e, (m.compile r).result = .error e) ↔
      ∃ m' r', m.Asks r m' r' ∧ (m'.SelectsNothing r' ∨ m'.Conflicts r') := by
  constructor
  · intro h
    induction m using Model.induction_on_parts generalizing r with
    | step m ih =>
      rcases compile_fails_iff.1 h with h | h | ⟨name, link, target, nested, hp, h⟩
      · exact ⟨m, r, .self m r, .inl h⟩
      · exact ⟨m, r, .self m r, .inr h⟩
      · obtain ⟨m', r', hasks, h'⟩ := ih r name link target nested hp h
        exact ⟨m', r', .part hp hasks, h'⟩
  · rintro ⟨m', r', hasks, h⟩
    induction hasks with
    | self m r => exact compile_fails_iff.2 (h.imp_right .inl)
    | part hp _ ih => exact compile_fails_iff.2 (.inr (.inr ⟨_, _, _, _, hp, ih h⟩))

/-! ### Consistent bindings -/

/-- The bindings of a part and of all that lies below it. -/
def Fields.Part.contributions : Part → List (String × Datum)
  | column c => c.bindings.entries
  | relation _ link target nested =>
    link.condition.bindings.entries ++ (target.fields.emitted nested).contributions

theorem Fields.contributions_emitted (fs : Fields) (r : Request) :
    (fs.emitted r).contributions = (fs.parts r).flatMap Part.contributions := by
  induction fs with
  | empty => rfl
  | column name c rest ih =>
    rw [emitted, parts]
    split
    · rw [contributions, List.flatMap_cons, ih]
      rfl
    · exact ih
  | relation name link table target rest _ ih =>
    rw [emitted, parts]
    cases r.under? name with
    | none => exact ih
    | some nested =>
      rw [contributions, List.flatMap_cons, ih]
      rfl

/-- A part binds every name to the first datum that it or something below it has. -/
theorem Fields.Part.get?_given {p : Part} {g : Gathered} (h : p.given = .ok g) (n : String) :
    g.bindings.get? n = p.contributions.lookup n := by
  cases p with
  | column c =>
    cases h
    rfl
  | relation name link target nested =>
    obtain ⟨s, hs, hg⟩ := bind_eq_ok_iff.1 h
    cases hg
    rw [Assoc.get?_merge, compile_get?_bindings hs, contributions, List.lookup_append]
    rfl

/-- Parts with consistent bindings do not conflict. -/
theorem pairwise_agree_of_consistent {m : Model} {r : Request} {given : List Gathered}
    (h : m.given r = .ok given) (hc : Consistent (m.fields.emitted r).contributions) :
    given.Pairwise Gathered.Agree := by
  rw [Fields.contributions_emitted] at hc
  replace h := mapM_eq_ok_iff.1 h
  generalize m.fields.parts r = parts at h hc
  induction h with
  | nil => exact List.Pairwise.nil
  | @cons p g parts given hp hparts ih =>
    rw [List.flatMap_cons, consistent_append] at hc
    obtain ⟨-, hrest, hcross⟩ := hc
    refine List.pairwise_cons.2 ⟨fun q hq n x y hx hy => ?_, ih hrest⟩
    obtain ⟨p', hp', hq⟩ := exists_of_mem_mapM (mapM_eq_ok_iff.2 hparts) hq
    rw [Fields.Part.get?_given hp] at hx
    rw [Fields.Part.get?_given hq] at hy
    exact hcross _ (Assoc.mem_of_lookup hx) _ (List.mem_flatMap_of_mem hp' (Assoc.mem_of_lookup hy)) rfl

/-- Consistent bindings lead to no conflict, at any depth. -/
theorem conflictFree_of_consistent {m : Model} {r : Request}
    (h : Consistent (m.fields.emitted r).contributions) : m.ConflictFree r := by
  intro m' r' hasks
  induction hasks with
  | self m r =>
    rintro ⟨given, hgiven, hagree⟩
    exact hagree (pairwise_agree_of_consistent hgiven h)
  | part hp _ ih =>
    rw [Fields.contributions_emitted] at h
    exact ih (consistent_append.1 ((List.pairwise_flatMap.1 h).1 _ hp)).2.1

/-- What the query of a model has in it, and when there is none. -/
structure Model.Emits (m : Model) (r : Request) : Prop where
  /-- A query is put together from what its parts give. -/
  succeeds : ∀ s, (m.compile r).result = .ok s →
    ∃ given, m.given r = .ok given ∧ s.Assembles m.table given
  /-- Without a conflict there is none, which is a fault of the configuration, exactly when a model
  that is asked has nothing to select. -/
  fails : m.ConflictFree r →
    ((∃ cause, (m.compile r).result = .error (.configuration cause)) ↔
      ∃ m' r', m.Asks r m' r' ∧ m'.SelectsNothing r')
  /-- There is no other fault. -/
  fault : ∀ e, (m.compile r).result = .error e → ∃ cause, e = .configuration cause
  /-- When no name is bound to unequal data by two things in the query, there is no conflict. -/
  consistent : Consistent (m.fields.emitted r).contributions → m.ConflictFree r

/-- **A query has in it what its parts give, and nothing else.** -/
theorem compile_emits (m : Model) (r : Request) : m.Emits r where
  succeeds _ h := compile_assembles h
  fails hfree := by
    constructor
    · rintro ⟨cause, h⟩
      obtain ⟨m', r', hasks, hn | hc⟩ := compile_fails_iff_exists_asks.1 ⟨_, h⟩
      · exact ⟨m', r', hasks, hn⟩
      · exact (hfree m' r' hasks hc).elim
    · rintro ⟨m', r', hasks, hn⟩
      obtain ⟨e, h⟩ := compile_fails_iff_exists_asks.2 ⟨m', r', hasks, .inl hn⟩
      obtain ⟨cause, rfl⟩ := compile_error h
      exact ⟨cause, h⟩
  fault _ h := compile_error h
  consistent h := conflictFree_of_consistent h

/-- A price in euro. -/
def euro (expression : String) : Column :=
  (((Column.ofSelect expression).join "JOIN price p ON p.article = a.id").filter
    "p.currency = :currency").bind "currency" (.text "EUR")

/-- Articles with two prices, that share a join, a condition and a binding, and with comments. -/
def priced : Model where
  table := "article a"
  fields :=
    .column "price" (euro "p.amount") <|
    .column "listPrice" (euro "p.listed") <|
    .relation "comments" (Link.ofText .many "c.article = a.id") "comment c"
      (.column "body" (Column.ofSelect "c.body") .empty) .empty

/-- Shared texts come once, and a relation without anything to select makes the query fail. -/
theorem compile_emits_priced :
    (∃ given, priced.given (Request.ofNames ["listPrice", "price"]) = .ok given ∧
      Select.Assembles ⟨"SELECT p.amount,p.listed FROM article a JOIN price p ON p.article = a.id",
        [.ofText "p.currency = :currency",
          .ofBindings ((∅ : Bindings).insert "currency" (.text "EUR"))]⟩ "article a" given) ∧
      ∃ cause, (priced.compile ((Request.ofNames ["price"]).addNested "comments"
        (Request.ofNames ["stars"]))).result = .error (.configuration cause) := by
  refine ⟨(compile_emits _ _).succeeds _ rfl, ?_⟩
  have hfails := compile_emits priced ((Request.ofNames ["price"]).addNested "comments"
    (Request.ofNames ["stars"]))
  refine (hfails.fails (hfails.consistent (List.pairwise_singleton _ _))).2 ?_
  refine ⟨_, _, .part (List.Mem.tail _ (List.Mem.head _)) (.self _ _), ?_⟩
  exact List.forall_mem_nil _

end SqlAssembly
