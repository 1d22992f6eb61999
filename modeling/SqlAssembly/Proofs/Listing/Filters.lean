import SqlAssembly.Proofs.Clause.Filtering
import SqlAssembly.Proofs.Listing.Counting

/-!
# The data of filters

The conditions, the filters, the search and the page of a listing bind names in this order, and what
comes later wins. The search and the page have names of their own, but nothing keeps a filter from
having one of them.

* `NamedQuery.Evaluates` says that a query takes every filter with its own datum.
* `Listing.Undisturbed` says that neither the search nor the page binds the name of a filter to
  something else.
* `evaluates_iff`: the query for a page takes the filters with their data exactly then.
-/

namespace SqlAssembly

/-- The query takes every filter with its own datum. -/
structure NamedQuery.Evaluates (q : NamedQuery) (filters : Bindings) : Prop where
  bound : ∀ name datum, filters.get? name = some datum → q.bindings.get? name = some datum
  /-- The datum is that of the parameter which stands for the name. -/
  passed : ∀ s, q.statement = .ok s → ∀ name datum, filters.get? name = some datum →
    name ∈ Sql.placeholders q.text →
      s.data[Sql.numberOf (Sql.placeholders q.text) name - 1]? = some datum

/-- No filter has a name of the page, or that of the search besides a search, and another datum. -/
structure Listing.Undisturbed (l : Listing) (filters : Bindings) : Prop where
  offset : ∀ d, filters.get? offsetName = some d →
    d = .int (Int64.ofNat l.paging.offset.toNat)
  perPage : ∀ d, filters.get? perPageName = some d →
    d = .int (Int64.ofNat l.paging.perPage.toNat)
  /-- A filter with the name of the search has the pattern, if there is something to search for. -/
  search : ∀ d, filters.get? searchName = some d → ∀ columns text,
    l.search = some (columns, text) → columns ≠ [] → Text.scrub text ≠ "" →
      d = .text (containsPattern (Text.scrub text))

/-! ### What is bound last -/

theorem Paging.get?_offset (p : Paging) :
    p.bindings.get? offsetName = some (.int (Int64.ofNat p.offset.toNat)) := by
  rw [bindings, Assoc.get?_insert, if_pos rfl]

theorem Paging.get?_perPage (p : Paging) :
    p.bindings.get? perPageName = some (.int (Int64.ofNat p.perPage.toNat)) := by
  rw [bindings, Assoc.get?_insert, if_neg (by decide), Assoc.get?_insert, if_pos rfl]

/-- What the conditions, the filters and the search bind, the search winning. -/
theorem Listing.get?_filtered {l : Listing} {filters : Bindings} {rules : Rules} {q : NamedQuery}
    (hf : l.filters = some (filters, rules)) (h : l.filtered = .ok q) (n : String) :
    q.bindings.get? n = ((mergedBindings l.searchPredicate?.toList).get? n).or
      ((filters.get? n).or ((mergedBindings l.conditions).get? n)) := by
  obtain ⟨ps, hps, h⟩ := bind_eq_ok_iff.1 h
  obtain rfl := pure_eq_ok_iff.1 h
  obtain ⟨fs, hfs, h⟩ := bind_eq_ok_iff.1 hps
  obtain rfl := pure_eq_ok_iff.1 h
  rw [filterPredicates, hf] at hfs
  show (mergedBindings (l.conditions ++ fs ++ l.searchPredicate?.toList)).get? n = _
  rw [get?_mergedBindings_append, get?_mergedBindings_append,
    get?_mergedBindings_of_compileFilters hfs]

theorem Listing.searchPredicate?_eq_some_iff {l : Listing} {p : Predicate} :
    l.searchPredicate? = some p ↔ ∃ columns text, l.search = some (columns, text) ∧
      Predicate.containing? columns text = some p := by
  simp only [searchPredicate?, Option.bind_eq_some_iff, Prod.exists]

/-- The search binds its own name to its pattern, and nothing else. -/
theorem Listing.get?_search {l : Listing} {p : Predicate} (hp : l.searchPredicate? = some p)
    (n : String) :
    ∃ columns text, l.search = some (columns, text) ∧ columns ≠ [] ∧ Text.scrub text ≠ "" ∧
      (mergedBindings l.searchPredicate?.toList).get? n =
        if n = searchName then some (.text (containsPattern (Text.scrub text))) else none := by
  obtain ⟨columns, text, hs, hcontaining⟩ := searchPredicate?_eq_some_iff.1 hp
  obtain ⟨hc, ht, hbind⟩ := containing?_eq_some_iff.1 hcontaining
  refine ⟨columns, text, hs, hc, ht, ?_⟩
  rw [hp, Option.toList_some, get?_mergedBindings_cons, hbind, Predicate.bind, Assoc.get?_insert]
  split <;> rfl

/-- The datum of a parameter is that of its name. -/
theorem NamedQuery.getElem?_statement {q : NamedQuery} {s : Statement} (h : q.statement = .ok s)
    {n : String} (hn : n ∈ Sql.placeholders q.text) :
    s.data[Sql.numberOf (Sql.placeholders q.text) n - 1]? = q.bindings.get? n := by
  obtain ⟨hdata, -⟩ := Bindings.statement_eq_ok_iff.1 h
  rw [← Sql.idxOf_eraseDups hn, Nat.add_sub_cancel]
  exact Bindings.getElem?_idxOf hdata (List.mem_eraseDups.2 hn)

/-- What a query for a page binds: the page wins, then the search, then the filters. -/
theorem Listing.get?_build {l : Listing} {filters : Bindings} {rules : Rules} {q : NamedQuery}
    (hf : l.filters = some (filters, rules)) (hb : l.build = .ok q) (n : String) :
    q.bindings.get? n = (l.paging.bindings.get? n).or
      (((mergedBindings l.searchPredicate?.toList).get? n).or
        ((filters.get? n).or ((mergedBindings l.conditions).get? n))) := by
  obtain ⟨whole, hw, tail, ht, rfl⟩ := Listing.build_eq_ok_iff.1 hb
  obtain ⟨d, -, rfl⟩ := Paging.tail_eq_ok_iff.1 ht
  show (whole.bindings.merge l.paging.bindings).get? n = _
  rw [Assoc.get?_merge, get?_filtered hf hw]

/-- Whatever its name, an undisturbed filter is bound to its datum. -/
theorem Listing.Undisturbed.get?_build {l : Listing} {filters : Bindings} {rules : Rules}
    {q : NamedQuery} (h : l.Undisturbed filters) (hf : l.filters = some (filters, rules))
    (hb : l.build = .ok q) {name : String} {datum : Datum} (hd : filters.get? name = some datum) :
    q.bindings.get? name = some datum := by
  rw [Listing.get?_build hf hb, hd]
  by_cases hn : name ∈ pageNames
  · rcases List.mem_pair.1 hn with rfl | rfl
    · rw [Paging.get?_offset, ← h.offset datum hd, Option.some_or]
    · rw [Paging.get?_perPage, ← h.perPage datum hd, Option.some_or]
  · rw [Paging.get?_bindings hn, Option.none_or]
    cases hp : l.searchPredicate? with
    | none => rfl
    | some p =>
      obtain ⟨columns, text, hs, hc, ht, hsearch⟩ := Listing.get?_search hp name
      rw [← hp, hsearch]
      split
      · next hname =>
        subst hname
        rw [← h.search datum hd columns text hs hc ht, Option.some_or]
      · rfl

/-- **What is bound later wins over a filter.** The query for a page takes the filters with their
own data exactly when neither the search nor the page binds the name of one of them to something
else. -/
theorem evaluates_iff {l : Listing} {filters : Bindings} {rules : Rules} {q : NamedQuery}
    (hf : l.filters = some (filters, rules)) (hb : l.build = .ok q) :
    q.Evaluates filters ↔ l.Undisturbed filters := by
  constructor
  · intro h
    refine ⟨fun d hd => ?_, fun d hd => ?_, fun d hd columns text hs hc ht => ?_⟩
    · have hbound := h.bound _ _ hd
      rw [Listing.get?_build hf hb, Paging.get?_offset, Option.some_or] at hbound
      exact (Option.some.inj hbound).symm
    · have hbound := h.bound _ _ hd
      rw [Listing.get?_build hf hb, Paging.get?_perPage, Option.some_or] at hbound
      exact (Option.some.inj hbound).symm
    · have hbound := h.bound _ _ hd
      have hp := Listing.searchPredicate?_eq_some_iff.2
        ⟨columns, text, hs, containing?_eq_some_iff.2 ⟨hc, ht, rfl⟩⟩
      obtain ⟨columns', text', hs', -, -, hsearch⟩ := Listing.get?_search hp searchName
      cases hs.symm.trans hs'
      rw [Listing.get?_build hf hb, Paging.get?_bindings (by decide), Option.none_or, hsearch,
        if_pos rfl, Option.some_or] at hbound
      exact (Option.some.inj hbound).symm
  · intro h
    refine ⟨fun name datum hd => h.get?_build hf hb hd, fun s hs name datum hd hn => ?_⟩
    rw [NamedQuery.getElem?_statement hs hn]
    exact h.get?_build hf hb hd

/-- The events of a log at one place, with a filter of the given name for the place. -/
def eventsAt (filter : String) : Listing where
  text := "SELECT * FROM log.events e"
  filters := some (Assoc.ofList [(filter, .int 7)], Assoc.ofList [(filter, ⟨"e", "offset", none⟩)])
  search := some (["e.body"], "error")

theorem evaluates_eventsAt_place :
    ∃ q, (eventsAt "place").build = .ok q ∧
      q.Evaluates (Assoc.ofList [("place", .int 7)]) := by
  obtain ⟨q, hq⟩ : ∃ q, (eventsAt "place").build = .ok q := ⟨_, rfl⟩
  exact ⟨q, hq, (evaluates_iff rfl hq).2 ⟨nofun, nofun, nofun⟩⟩

/-- The name that the page has for the number of rows to skip takes this number. -/
theorem not_evaluates_eventsAt_offset :
    ∃ q, (eventsAt "offset").build = .ok q ∧
      ¬q.Evaluates (Assoc.ofList [("offset", .int 7)]) ∧
      q.bindings.get? "offset" = some (.int 0) := by
  refine ⟨_, rfl, fun h => ?_, rfl⟩
  cases h.bound "offset" (.int 7) rfl

end SqlAssembly
