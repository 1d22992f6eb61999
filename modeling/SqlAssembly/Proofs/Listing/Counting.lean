import SqlAssembly.Listing.Prepared
import SqlAssembly.Proofs.Clause.Merging
import SqlAssembly.Proofs.Sql.Extension
import SqlAssembly.Session.Script

/-!
# The counted query and the query of the page

A prepared listing asks the client for one plan, and the statement of that plan is the query for the
whole list. The query for the page is the same text with a tail, and other bindings besides.

* `Client.recording` is a client that keeps a record of what it is asked for.
* `Listing.Unreserved` leaves the two names of the tail to the tail.
* `prepare_counts_page`: the counted statement is the first part of the statement for the page, and
  what decides the page does not change it.
-/

namespace SqlAssembly

/-- The client that keeps a record of its calls beside its own state. -/
def Client.recording {σ : Type} (client : Client (StateM σ)) :
    Client (StateM (List Call × σ)) where
  query s := fun (calls, w) =>
    let (answer, w') := client.query s w
    (answer, (calls ++ [⟨.query, s⟩], w'))
  plan s := fun (calls, w) =>
    let (answer, w') := client.plan s w
    (answer, (calls ++ [⟨.plan, s⟩], w'))

/-- The names of the tail of a query. -/
def pageNames : List String := [offsetName, perPageName]

/-- No condition and no filter binds a name of the tail. -/
structure Listing.Unreserved (l : Listing) : Prop where
  conditions : ∀ p ∈ l.conditions, ∀ n ∈ pageNames, p.bindings.contains n = false
  filters : ∀ f ∈ l.filters, ∀ n ∈ pageNames, f.1.contains n = false

/-! ### What the conditions bind -/

theorem eq_of_contains_bind {text name n : String} {d : Datum}
    (h : ((Predicate.ofText text).bind name d).bindings.contains n = true) : n = name := by
  rw [Predicate.bind, Assoc.contains, Assoc.get?_insert] at h
  by_contra hn
  rw [if_neg hn] at h
  cases h

/-- A filter binds its own name. -/
theorem contains_of_compileFilters {filters : Bindings} {rules : Rules} {ps : List Predicate}
    (h : compileFilters filters rules = .ok ps) {p : Predicate} (hp : p ∈ ps) {n : String}
    (hn : p.bindings.contains n = true) : filters.contains n = true := by
  obtain ⟨⟨name, datum⟩, hmem, hf⟩ := exists_of_mem_mapM h hp
  cases hrule : rules.get? name with
  | none =>
    simp only [hrule] at hf
    cases hf
  | some rule =>
    simp only [hrule] at hf
    cases hf
    rw [eq_of_contains_bind hn]
    exact Assoc.mem_keys_iff.1 (List.mem_map_of_mem hmem)

/-- The search binds its own name. -/
theorem eq_searchName_of_containing? {columns : List String} {text : String} {p : Predicate}
    (h : Predicate.containing? columns text = some p) {n : String}
    (hn : p.bindings.contains n = true) : n = searchName := by
  unfold Predicate.containing? at h
  dsimp only at h
  split at h
  · cases h
  · cases h
    exact eq_of_contains_bind hn

/-- The names of the tail are not bound by the query for the whole list. -/
theorem Listing.Unreserved.get?_filtered {l : Listing} (hl : l.Unreserved) {q : NamedQuery}
    (h : l.filtered = .ok q) {n : String} (hn : n ∈ pageNames) : q.bindings.get? n = none := by
  obtain ⟨ps, hps, h⟩ := bind_eq_ok_iff.1 h
  obtain rfl := pure_eq_ok_iff.1 h
  obtain ⟨fs, hfs, h⟩ := bind_eq_ok_iff.1 hps
  obtain rfl := pure_eq_ok_iff.1 h
  rw [← Option.not_isSome_iff_eq_none]
  intro hsome
  -- what binds the name is a condition, a filter or the search
  obtain ⟨p, hp, hpn⟩ := contains_mergedBindings.1 hsome
  rcases List.mem_append.1 hp with hp | hp
  · rcases List.mem_append.1 hp with hp | hp
    · rw [hl.conditions p hp n hn] at hpn
      cases hpn
    · unfold Listing.filterPredicates at hfs
      split at hfs
      · next filters rules hf =>
        have := contains_of_compileFilters hfs hp hpn
        rw [hl.filters (filters, rules) hf n hn] at this
        cases this
      · cases hfs
        cases hp
  · obtain ⟨search, -, hsearch⟩ := Option.bind_eq_some_iff.1 (Option.mem_toList.1 hp)
    obtain rfl := eq_searchName_of_containing? hsearch hpn
    exact absurd hn (by decide)

/-! ### The tail -/

theorem Paging.tail_eq_ok_iff {p : Paging} {q : NamedQuery} :
    p.tail = .ok q ↔ ∃ d, p.direction = .ok d ∧ q = ⟨(match p.ordering? d with
      | some sql => " ORDER BY " ++ sql
      | none => "") ++ " OFFSET :" ++ offsetName ++ " LIMIT :" ++ perPageName, p.bindings⟩ := by
  rw [Paging.tail, bind_eq_ok_iff]
  constructor
  · rintro ⟨d, hd, h⟩
    obtain rfl := pure_eq_ok_iff.1 h
    exact ⟨d, hd, rfl⟩
  · rintro ⟨d, hd, rfl⟩
    exact ⟨d, hd, rfl⟩

/-- The tail starts with a blank. -/
theorem Paging.toList_tail {p : Paging} {q : NamedQuery} (h : p.tail = .ok q) :
    ∃ t, q.text.toList = ' ' :: t := by
  obtain ⟨d, -, rfl⟩ := Paging.tail_eq_ok_iff.1 h
  show ∃ t, (String.toList _) = _
  split
  · simp only [String.toList_append]
    exact ⟨_, rfl⟩
  · simp only [String.toList_append]
    exact ⟨_, rfl⟩

/-- The tail binds its own names. -/
theorem Paging.get?_bindings {p : Paging} {n : String} (hn : n ∉ pageNames) :
    p.bindings.get? n = none := by
  have hne : n ≠ offsetName ∧ n ≠ perPageName := by simpa [pageNames] using hn
  rw [Paging.bindings, Assoc.get?_insert, if_neg hne.1, Assoc.get?_insert, if_neg hne.2]
  rfl

/-! ### The run -/

@[simp] theorem Traced.result_liftM {α : Type} (x : Except Fault α) :
    (liftM x : Traced α).result = x := rfl

namespace Listing

theorem build_eq_ok_iff {l : Listing} {q : NamedQuery} :
    l.build = .ok q ↔ ∃ whole, l.filtered = .ok whole ∧ ∃ tail, l.paging.tail = .ok tail ∧
      q = ⟨whole.text ++ tail.text, whole.bindings.merge tail.bindings⟩ := by
  simp only [build, bind_eq_ok_iff, pure_eq_ok_iff, eq_comm (a := q)]

/-- The statement that counts the rows of the whole list, if what decides the page is valid. -/
def counted (l : Listing) : Except Fault Statement := do
  let whole ← l.filtered
  let _ ← l.paging.tail
  whole.countStatement

theorem counted_eq_ok_iff {l : Listing} {s : Statement} :
    l.counted = .ok s ↔ ∃ whole, l.filtered = .ok whole ∧
      ∃ tail, l.paging.tail = .ok tail ∧ whole.countStatement = .ok s := by
  simp only [counted, bind_eq_ok_iff]

section Run

variable {σ : Type} (client : Client (StateM σ)) {l : Listing} (w : σ)

/-- What is wrong with the description of the listing keeps the client from being asked. -/
theorem run_prepare_of_error {e : Fault} (h : l.counted = .error e) :
    ((l.prepare client.recording).run ([], w)).1.result = .error e ∧
      ((l.prepare client.recording).run ([], w)).2.1 = [] := by
  unfold counted at h
  unfold prepare
  cases hw : l.filtered with
  | error e' =>
    rw [hw] at h
    cases h
    exact ⟨rfl, rfl⟩
  | ok whole =>
    cases ht : l.paging.tail with
    | error e' =>
      rw [hw, ht] at h
      cases h
      exact ⟨rfl, rfl⟩
    | ok tail =>
      rw [hw, ht] at h
      have hs : whole.countStatement = .error e := h
      simp only [NamedQuery.countRows, hs]
      exact ⟨rfl, rfl⟩

/-- The client is asked for one plan, and for nothing else. The tail is put behind the query whose
rows are counted. -/
theorem run_prepare_of_ok {whole tail : NamedQuery} {s : Statement} (hw : l.filtered = .ok whole)
    (ht : l.paging.tail = .ok tail) (hs : whole.countStatement = .ok s) :
    ((l.prepare client.recording).run ([], w)).1.result =
        (do
          let total ← rowCount (← ((client.plan s).run w).1)
          return ⟨⟨whole.text ++ tail.text, whole.bindings.merge tail.bindings⟩, total⟩) ∧
      ((l.prepare client.recording).run ([], w)).2.1 = [⟨.plan, s⟩] := by
  unfold prepare NamedQuery.countRows
  simp only [hw, ht, hs]
  refine ⟨?_, rfl⟩
  change Traced.result (_ >>= _) = _
  simp only [Traced.result_bind, Traced.result_liftM, Traced.result_report, Traced.result_pure,
    bind_assoc]
  rfl

end Run

/-- A preparation that succeeds has counted and built. -/
theorem of_prepare {σ : Type} {client : Client (StateM σ)} {l : Listing} {w : σ} {p : Prepared}
    (h : ((l.prepare client.recording).run ([], w)).1.result = .ok p) :
    (∃ s, l.counted = .ok s) ∧ l.build = .ok p.query := by
  cases hs : l.counted with
  | error e =>
    rw [(run_prepare_of_error client w hs).1] at h
    cases h
  | ok s =>
    obtain ⟨whole, hw, tail, ht, hcount⟩ := counted_eq_ok_iff.1 hs
    rw [(run_prepare_of_ok client w hw ht hcount).1] at h
    obtain ⟨plan, -, h⟩ := bind_eq_ok_iff.1 h
    obtain ⟨total, -, h⟩ := bind_eq_ok_iff.1 h
    obtain rfl := pure_eq_ok_iff.1 h
    exact ⟨⟨s, rfl⟩, build_eq_ok_iff.2 ⟨whole, hw, tail, ht, rfl⟩⟩

end Listing

open Sql

/-- The counted statement is that of the query with two words in front. -/
theorem NamedQuery.countStatement_eq_ok_iff {q : NamedQuery} {s : Statement} :
    q.countStatement = .ok s ↔
      ∃ s₀, q.statement = .ok s₀ ∧ s = ⟨"EXPLAIN ANALYZE " ++ s₀.text, s₀.data⟩ := by
  have hplain : Plain "EXPLAIN ANALYZE" := by decide
  have hlead : "EXPLAIN ANALYZE" ++ " " = "EXPLAIN ANALYZE " := by decide
  have h := q.bindings.statement_lead hplain q.text
  rw [hlead] at h
  rw [NamedQuery.countStatement, h, NamedQuery.statement]
  cases q.bindings.statement q.text with
  | error e => simp [Except.map]
  | ok s₀ => simp [Except.map, eq_comm]

/-- Behind the tail the statement for the whole list stays as it is. -/
theorem statement_page {l : Listing} (hl : l.Unreserved) {whole q : NamedQuery}
    (hw : l.filtered = .ok whole) (hq : l.build = .ok q) {s page : Statement}
    (hs : whole.statement = .ok s) (hp : q.statement = .ok page) :
    (∃ rest, page.text = s.text ++ rest) ∧ s.data <+: page.data := by
  obtain ⟨whole', hw', tail, htail, rfl⟩ := Listing.build_eq_ok_iff.1 hq
  rw [hw] at hw'
  cases hw'
  obtain ⟨t, htext⟩ := Paging.toList_tail htail
  refine Bindings.statement_append htext (by decide) hs hp fun n hn => ?_
  -- the name is bound by the conditions, so it is none of the tail
  have hbound : whole.bindings.contains n = true := Bindings.exists_statement_iff.1 ⟨s, hs⟩ n hn
  have hfree : n ∉ pageNames := by
    intro hpage
    rw [Assoc.contains, hl.get?_filtered hw hpage] at hbound
    cases hbound
  obtain ⟨d, -, rfl⟩ := Paging.tail_eq_ok_iff.1 htail
  show (whole.bindings.merge l.paging.bindings).get? n = _
  rw [Assoc.get?_merge, Paging.get?_bindings hfree, Option.none_or]

/-- **The query for the page extends the counted query.** A preparation that succeeds has asked its
client for one plan. The statement of this plan is a first part of every statement for the page,
with the same numbers and the same data, and it does not depend on what decides the page, nor on the
client. -/
theorem prepare_counts_page {σ : Type} {client : Client (StateM σ)} {l : Listing}
    (hl : l.Unreserved) {w : σ} {p : Prepared}
    (h : ((l.prepare client.recording).run ([], w)).1.result = .ok p) :
    ∃ count : Statement, ((l.prepare client.recording).run ([], w)).2.1 = [⟨.plan, count⟩] ∧
      (∀ page, p.query.statement = .ok page →
        (∃ shown rest, count.text = "EXPLAIN ANALYZE " ++ shown ∧ page.text = shown ++ rest) ∧
          count.data <+: page.data) ∧
      ∀ (paging : Paging) (d : Direction), paging.direction = .ok d →
        ∀ {τ : Type} (other : Client (StateM τ)) (v : τ),
          (({ l with paging }.prepare other.recording).run ([], v)).2.1 = [⟨.plan, count⟩] := by
  obtain ⟨⟨count, hcount⟩, hbuild⟩ := Listing.of_prepare h
  obtain ⟨whole, hwhole, tail, htail, hstatement⟩ := Listing.counted_eq_ok_iff.1 hcount
  obtain ⟨s, hs, rfl⟩ := NamedQuery.countStatement_eq_ok_iff.1 hstatement
  -- neither the page nor the client has a part in `count`, so both ends use this one statement
  refine ⟨_, (Listing.run_prepare_of_ok client w hwhole htail hstatement).2, fun page hpage => ?_,
    ?_⟩
  · obtain ⟨⟨rest, hrest⟩, hdata⟩ := statement_page hl hwhole hbuild hs hpage
    exact ⟨⟨s.text, rest, rfl, hrest⟩, hdata⟩
  · intro paging d hd τ other v
    have htail' := Paging.tail_eq_ok_iff.2 ⟨d, hd, rfl⟩
    exact (Listing.run_prepare_of_ok (l := { l with paging }) other v hwhole htail' hstatement).2

/-- Articles of one kind, by a text that ends inside a comment. -/
def notes : Listing where
  text := "SELECT * FROM article a WHERE a.kind = :kind -- the kind"
  conditions := [Predicate.ofBindings (Assoc.ofList [("kind", .text "note")])]

/-- A client whose plans tell of three rows. -/
def threeRows : Client (StateM (List Call)) :=
  Script.client { plan := some ["Seq Scan on article a (actual rows=3 loops=1)"] }

theorem prepare_counts_page_notes :
    notes.Unreserved ∧ ∃ p count,
      ((notes.prepare threeRows.recording).run ([], [])).1.result = .ok p ∧
        ((notes.prepare threeRows.recording).run ([], [])).2.1 = [⟨.plan, count⟩] ∧
          ∀ page, p.query.statement = .ok page → count.data <+: page.data := by
  have hl : notes.Unreserved := ⟨by decide, nofun⟩
  have hok : ((notes.prepare threeRows.recording).run ([], [])).1.result.toBool = true := by
    decide +kernel
  cases hp : ((notes.prepare threeRows.recording).run ([], [])).1.result with
  | error e =>
    rw [hp] at hok
    cases hok
  | ok p =>
    obtain ⟨count, hcalls, hpage, -⟩ := prepare_counts_page hl hp
    exact ⟨hl, p, count, rfl, hcalls, fun page h => (hpage page h).2⟩

end SqlAssembly
