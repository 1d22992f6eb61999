import SqlAssembly.Proofs.Listing.Preparation
import SqlAssembly.Proofs.Model.Conflict
import SqlAssembly.Proofs.Model.Masking

/-!
# Listings without their data

The data of a listing are what its conditions and its filters bind, the two numbers of the page and
the text to search for. Of the text it shows whether there is anything to search for.

* `build_masked` and `counted_masked`: a listing and its mask are built and counted alike but for
  the data, and fail alike.
* `outlines_eq_of_masked_eq`: models with one mask give selections with one outline, and listings
  with one mask give queries with one outline and the same calls of the client.
-/

namespace SqlAssembly

/-- The paging without its numbers. What is left of a request that tells only numbers is what there
is without a request. -/
def Paging.masked (p : Paging) : Paging :=
  { p with
    request := some {
      order := p.request.bind PageRequest.order
      orderBy := p.request.bind PageRequest.orderBy }
    defaults := { p.defaults with perPage := 0 } }

/-- One text for all that have something to search for, and one for all others. -/
def maskedTerm (text : String) : String :=
  if (Text.scrub text).isEmpty then "" else "text"

/-- The listing without its data. -/
def Listing.masked (l : Listing) : Listing :=
  { l with
    conditions := l.conditions.map Predicate.masked
    filters := l.filters.map fun (filters, rules) => (filters.masked, rules)
    search := l.search.map fun (columns, text) => (columns, maskedTerm text)
    paging := l.paging.masked }

/-! ### The query for the whole list -/

theorem isEmpty_scrub_maskedTerm (text : String) :
    (Text.scrub (maskedTerm text)).isEmpty = (Text.scrub text).isEmpty := by
  rw [maskedTerm]
  split
  · next h =>
    rw [h]
    decide
  · next h =>
    rw [Bool.eq_false_iff.2 h]
    decide

/-- The condition of a search shows only that there is something to search for. -/
theorem containing?_maskedTerm (columns : List String) (text : String) :
    (Predicate.containing? columns (maskedTerm text)).map Predicate.masked =
      (Predicate.containing? columns text).map Predicate.masked := by
  rw [Predicate.containing?, Predicate.containing?]
  dsimp only
  rw [isEmpty_scrub_maskedTerm]
  split
  · rfl
  · rw [Option.map_some, Option.map_some, Predicate.masked_bind, Predicate.masked_bind]

theorem Listing.searchPredicate?_masked (l : Listing) :
    l.masked.searchPredicate?.map Predicate.masked = l.searchPredicate?.map Predicate.masked := by
  rw [searchPredicate?, searchPredicate?, masked]
  cases l.search with
  | none => rfl
  | some search =>
    rcases search with ⟨columns, text⟩
    rw [Option.map_some, Option.bind_some, Option.bind_some]
    exact containing?_maskedTerm columns text

theorem Listing.filterPredicates_masked (l : Listing) :
    l.masked.filterPredicates = List.map Predicate.masked <$> l.filterPredicates := by
  rw [filterPredicates, filterPredicates, masked]
  cases l.filters with
  | none => rfl
  | some f => exact compileFilters_masked f.1 f.2

theorem Listing.predicates_masked (l : Listing) :
    List.map Predicate.masked <$> l.masked.predicates =
      List.map Predicate.masked <$> l.predicates := by
  have hsearch : l.masked.searchPredicate?.toList.map Predicate.masked =
      l.searchPredicate?.toList.map Predicate.masked := by
    rw [← Option.toList_map, searchPredicate?_masked, Option.toList_map]
  have hconditions : l.masked.conditions = l.conditions.map Predicate.masked := rfl
  simp only [predicates, filterPredicates_masked, hconditions, map_bind, bind_map_left, map_pure,
    List.map_append, List.map_map, Function.comp_def, Predicate.masked_masked, hsearch]

/-- The query for the whole list that has these conditions. -/
def Listing.withPredicates (l : Listing) (ps : List Predicate) : NamedQuery :=
  let clause := joinPredicates ps l.continues
  { clause with text := l.text ++ clause.text ++ l.groupingText }

theorem Listing.filtered_eq (l : Listing) : l.filtered = l.withPredicates <$> l.predicates := by
  rw [map_eq_pure_bind]
  rfl

theorem Listing.withPredicates_masked (l : Listing) (ps : List Predicate) :
    (l.withPredicates ps).masked = l.withPredicates (ps.map Predicate.masked) := by
  rw [withPredicates, withPredicates, joinPredicates_masked]
  rfl

theorem Listing.filtered_masked (l : Listing) :
    NamedQuery.masked <$> l.masked.filtered = NamedQuery.masked <$> l.filtered := by
  have hwith : l.masked.withPredicates = l.withPredicates := rfl
  calc NamedQuery.masked <$> l.masked.filtered
      = l.withPredicates <$> List.map Predicate.masked <$> l.masked.predicates := by
        rw [filtered_eq, Functor.map_map, Functor.map_map, hwith]
        simp only [withPredicates_masked]
    _ = l.withPredicates <$> List.map Predicate.masked <$> l.predicates := by
        rw [predicates_masked]
    _ = NamedQuery.masked <$> l.filtered := by
        rw [filtered_eq, Functor.map_map, Functor.map_map]
        simp only [withPredicates_masked]

/-! ### The tail -/

theorem Paging.bindings_masked (p : Paging) : p.masked.bindings.masked = p.bindings.masked := by
  simp only [bindings, Bindings.masked, Assoc.map_insert]

/-- The end of a query shows neither of its numbers. -/
theorem Paging.tail_masked (p : Paging) :
    NamedQuery.masked <$> p.masked.tail = NamedQuery.masked <$> p.tail := by
  have hdirection : p.masked.direction = p.direction := by
    rw [direction, direction, masked]
    cases p.request <;> rfl
  have hordering (d : Direction) : p.masked.ordering? d = p.ordering? d := rfl
  simp only [tail, hdirection, hordering, map_bind, map_pure, NamedQuery.masked, bindings_masked]

/-! ### The query for the page, and the count -/

/-- A listing and its mask are built alike but for the data, and fail alike. -/
theorem Listing.build_masked (l : Listing) :
    NamedQuery.masked <$> l.masked.build = NamedQuery.masked <$> l.build := by
  -- what is built is a function of the two masked parts
  have hparts (l : Listing) : NamedQuery.masked <$> l.build =
      NamedQuery.masked <$> l.filtered >>= fun whole =>
        NamedQuery.masked <$> l.paging.tail >>= fun tail =>
          pure ⟨whole.text ++ tail.text, whole.bindings.merge tail.bindings⟩ := by
    simp only [build, map_bind, bind_map_left, map_pure, NamedQuery.masked, Bindings.masked_merge]
  have htail : NamedQuery.masked <$> l.masked.paging.tail = NamedQuery.masked <$> l.paging.tail :=
    Paging.tail_masked l.paging
  rw [hparts, hparts, filtered_masked]
  simp only [htail]

theorem NamedQuery.countStatement_masked (q : NamedQuery) :
    q.masked.countStatement = Statement.masked <$> q.countStatement :=
  q.bindings.statement_masked _

/-- A listing and its mask are counted alike but for the data, and fail alike. -/
theorem Listing.counted_masked (l : Listing) :
    Statement.masked <$> l.masked.counted = Statement.masked <$> l.counted := by
  have hparts (l : Listing) : Statement.masked <$> l.counted =
      NamedQuery.masked <$> l.filtered >>= fun whole =>
        NamedQuery.masked <$> l.paging.tail >>= fun _ => whole.countStatement := by
    simp only [counted, map_bind, bind_map_left, NamedQuery.countStatement_masked]
  have htail : NamedQuery.masked <$> l.masked.paging.tail = NamedQuery.masked <$> l.paging.tail :=
    Paging.tail_masked l.paging
  rw [hparts, hparts, filtered_masked]
  simp only [htail]

/-! ### Outlines -/

/-- A call as it looks to one who does not see data. -/
def Call.outline (c : Call) : Method × Statement.Outline :=
  (c.method, c.statement.outline)

/-- The outlines of the calls are told by the outline of the counted statement. -/
theorem Listing.outline_calls_prepare {σ : Type} (client : Client (StateM σ)) (l : Listing) (v : σ) :
    ((l.prepare client.recording).run ([], v)).2.1.map Call.outline =
      match Statement.outline <$> l.counted with
      | .ok count => [(.plan, count)]
      | .error _ => [] := by
  cases hs : l.counted with
  | error e =>
    rw [(run_prepare_of_error client v hs).2]
    rfl
  | ok s =>
    obtain ⟨whole, hw, tail, ht, hcount⟩ := counted_eq_ok_iff.1 hs
    rw [(run_prepare_of_ok client v hw ht hcount).2]
    rfl

/-- What a selection shows is told by its mask. -/
theorem Select.outline_congr {s s' : Select} (h : s.masked = s'.masked) :
    s.head = s'.head ∧
      (s.conditions.map fun p => (p.text, p.bindings.keys)) =
        (s'.conditions.map fun p => (p.text, p.bindings.keys)) ∧
      s.query.outline = s'.query.outline := by
  have hconditions (s : Select) : (s.conditions.map fun p => (p.text, p.bindings.keys)) =
      s.masked.conditions.map fun p => (p.text, p.bindings.keys) := by
    simp only [masked, List.map_map, Function.comp_def, Predicate.masked, Bindings.masked,
      Assoc.keys_map]
  have hhead : s.masked.head = s'.masked.head := by rw [h]
  refine ⟨hhead, ?_, ?_⟩
  · rw [hconditions s, hconditions s', h]
  · rw [← NamedQuery.outline_masked s.query, ← NamedQuery.outline_masked s'.query,
      ← query_masked, ← query_masked, h]

/-- **Data do not show in any text.** Two models that differ only in their data, asked for the same,
give selections that differ only in their data. Two listings that differ only in their data, in the
numbers of the page and in the text to search for are built alike: both fail with one fault, or
their queries have one outline. Their preparations call the client with one statement but for the
data. -/
theorem outlines_eq_of_masked_eq {m m' : Model} (hm : m.masked = m'.masked) {l l' : Listing}
    (hl : l.masked = l'.masked) :
    (∀ (w : Wanted) (s s' : Select), (m.select w).result = .ok s → (m'.select w).result = .ok s' →
      s.head = s'.head ∧
        (s.conditions.map fun p => (p.text, p.bindings.keys)) =
          (s'.conditions.map fun p => (p.text, p.bindings.keys)) ∧
        s.query.outline = s'.query.outline) ∧
      NamedQuery.outline <$> l.build = NamedQuery.outline <$> l'.build ∧
      ∀ {σ τ : Type} (client : Client (StateM σ)) (client' : Client (StateM τ)) (v : σ) (v' : τ),
        ((l.prepare client.recording).run ([], v)).2.1.map Call.outline =
          ((l'.prepare client'.recording).run ([], v')).2.1.map Call.outline := by
  refine ⟨?_, ?_, ?_⟩
  · intro w s s' hs hs'
    have hmask := select_masked hs
    have hmask' := select_masked hs'
    -- both are the selection of one model
    rw [hm, hmask'] at hmask
    exact Select.outline_congr (Except.ok.inj hmask).symm
  · apply map_eq_of_map_eq NamedQuery.outline_masked
    rw [← Listing.build_masked l, hl, Listing.build_masked l']
  · intro σ τ client client' v v'
    have hcount : Statement.outline <$> l.counted = Statement.outline <$> l'.counted := by
      apply map_eq_of_map_eq Statement.outline_masked
      rw [← Listing.counted_masked l, hl, Listing.counted_masked l']
    rw [Listing.outline_calls_prepare, Listing.outline_calls_prepare, hcount]

/-- Articles of a writer that contain a term, from a row on. -/
def articlesOf (writer : Datum) (term : String) (first : UInt32) : Listing where
  text := "SELECT * FROM article a"
  conditions := [(Predicate.ofText "a.size < :size").bind "size" (.int 9)]
  filters := some (Assoc.ofList [("writer", writer)],
    Assoc.ofList [("writer", ⟨"a", "writer", none⟩)])
  search := some (["a.body"], term)
  paging := { request := some { offset := some first } }

theorem outlines_eq_articlesOf :
    (∃ s s', ((commented 1).select commentBodies).result = .ok s ∧
      ((commented 2).select commentBodies).result = .ok s' ∧ s.query.outline = s'.query.outline) ∧
      NamedQuery.outline <$> (articlesOf (.int 1) "rain; --" 0).build =
        NamedQuery.outline <$> (articlesOf (.text "' OR 1 = 1") "snow" 50).build := by
  have hm : (commented 1).masked = (commented 2).masked := by
    simp only [commented, Model.masked, Fields.masked,
      Column.masked_bind _ "x" (.int 1) (.int 2)]
  have hl : (articlesOf (.int 1) "rain; --" 0).masked =
      (articlesOf (.text "' OR 1 = 1") "snow" 50).masked := rfl
  obtain ⟨hselect, hbuild, -⟩ := outlines_eq_of_masked_eq hm hl
  refine ⟨⟨_, _, rfl, rfl, ?_⟩, hbuild⟩
  exact (hselect commentBodies _ _ rfl rfl).2.2

end SqlAssembly
