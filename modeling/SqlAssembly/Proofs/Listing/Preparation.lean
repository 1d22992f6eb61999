import SqlAssembly.Proofs.Clause.Filtering
import SqlAssembly.Proofs.Listing.Annotation
import SqlAssembly.Proofs.Listing.Counting

/-!
# Preparing is building and counting

A listing cannot be built for one of two reasons: a filter has no rule, or the word for the
direction is none of the two. A preparation fails for the same reasons without asking its client,
and else asks it for one plan.

* `Listing.build_eq_error_iff`: the reasons, a filter without a rule before a bad word.
* `Listing.Prepares` says with one case for each way how a preparation comes out, and what its
  client is asked for.
* `prepare_builds_and_counts`: every preparation comes out so.
-/

namespace SqlAssembly

/-- The first filter without a rule. -/
def Listing.unruled? (l : Listing) : Option String :=
  l.filters.bind fun (filters, rules) => filters.keys.find? fun name => !rules.contains name

/-- The word for the direction, if it names none. -/
def Paging.badWord? (p : Paging) : Option String :=
  (p.request.bind PageRequest.order).filter fun word =>
    (Text.trim word).map Char.toUpper ∉ ["ASC", "DESC"]

/-- The first placeholder of the counted query that has no datum. -/
def NamedQuery.uncountable? (q : NamedQuery) : Option String :=
  (Sql.placeholders ("EXPLAIN ANALYZE " ++ q.text)).find? fun name => !q.bindings.contains name

/-- How a preparation comes out when its client is in the state `w`: the result, and the calls of
the client. -/
inductive Listing.Prepares {σ : Type} (client : Client (StateM σ)) (l : Listing) (w : σ) :
    Except Fault Prepared → List Call → Prop
  | refused {e : Fault} (hb : l.build = .error e) : Prepares client l w (.error e) []
  /-- A placeholder of the counted query has no datum. -/
  | unbound {q whole : NamedQuery} {name : String} (hb : l.build = .ok q)
      (hw : l.filtered = .ok whole) (hn : whole.uncountable? = some name) :
      Prepares client l w (.error (.configuration (.unboundPlaceholder name))) []
  | failed {q whole : NamedQuery} {s : Statement} {e : Fault} (hb : l.build = .ok q)
      (hw : l.filtered = .ok whole) (hs : whole.countStatement = .ok s)
      (ha : ((client.plan s).run w).1 = .error e) :
      Prepares client l w (.error e) [⟨.plan, s⟩]
  /-- The plan tells no number of rows. -/
  | unreadable {q whole : NamedQuery} {s : Statement} {plan : List String} {cause : BadAnswer}
      (hb : l.build = .ok q) (hw : l.filtered = .ok whole) (hs : whole.countStatement = .ok s)
      (ha : ((client.plan s).run w).1 = .ok plan) (hc : rowCount plan = .error (.execution cause)) :
      Prepares client l w (.error (.execution cause)) [⟨.plan, s⟩]
  | counted {q whole : NamedQuery} {s : Statement} {plan : List String} {total : Nat}
      (hb : l.build = .ok q) (hw : l.filtered = .ok whole) (hs : whole.countStatement = .ok s)
      (ha : ((client.plan s).run w).1 = .ok plan) (hc : rowCount plan = .ok total) :
      Prepares client l w (.ok ⟨q, total⟩) [⟨.plan, s⟩]

/-! ### What cannot be built -/

theorem Listing.filtered_eq_error_iff {l : Listing} {e : Fault} :
    l.filtered = .error e ↔
      ∃ name, l.unruled? = some name ∧ e = .configuration (.missingRule name) := by
  simp only [filtered, predicates, bind_eq_error_iff, pure_ne_error, and_false, exists_false,
    or_false, filterPredicates, unruled?]
  cases l.filters with
  | none => simp
  | some f => exact compileFilters_eq_error_iff

theorem Direction.parse_eq_error_iff {word : String} {e : Fault} :
    parse word = .error e ↔
      (Text.trim word).map Char.toUpper ∉ ["ASC", "DESC"] ∧
        e = .validation (.badDirection word) := by
  rw [parse, ofWord?]
  by_cases ha : (Text.trim word).map Char.toUpper = "ASC"
  · simp [ha]
  · by_cases hd : (Text.trim word).map Char.toUpper = "DESC"
    · simp [hd]
    · simp [ha, hd, eq_comm]

/-- A word that names no direction is a fault, also where an ordering is given as SQL text. -/
theorem Paging.tail_eq_error_iff {p : Paging} {e : Fault} :
    p.tail = .error e ↔
      ∃ word, p.badWord? = some word ∧ e = .validation (.badDirection word) := by
  simp only [tail, bind_eq_error_iff, pure_ne_error, and_false, exists_false, or_false, direction,
    badWord?]
  cases p.request with
  | none => simp
  | some r =>
    simp only [PageRequest.direction, Option.bind_some]
    cases r.order with
    | none => simp
    | some word => simp [Direction.parse_eq_error_iff, Option.filter_eq_some_iff]

theorem Listing.exists_filtered_iff {l : Listing} :
    (∃ whole, l.filtered = .ok whole) ↔ l.unruled? = none := by
  cases hw : l.filtered with
  | ok whole =>
    refine iff_of_true ⟨whole, rfl⟩ (Option.eq_none_iff_forall_ne_some.2 fun name hname => ?_)
    have := filtered_eq_error_iff.2 ⟨name, hname, rfl⟩
    rw [hw] at this
    cases this
  | error e =>
    obtain ⟨name, hname, -⟩ := filtered_eq_error_iff.1 hw
    simp [hname]

/-- A listing cannot be built when a filter has no rule, or else when the word for the direction is
bad. -/
theorem Listing.build_eq_error_iff {l : Listing} {e : Fault} :
    l.build = .error e ↔
      (∃ name, l.unruled? = some name ∧ e = .configuration (.missingRule name)) ∨
        l.unruled? = none ∧
          ∃ word, l.paging.badWord? = some word ∧ e = .validation (.badDirection word) := by
  simp only [build, bind_eq_error_iff, pure_ne_error, and_false, exists_false, or_false]
  rw [filtered_eq_error_iff, exists_and_right, exists_filtered_iff, Paging.tail_eq_error_iff]

/-! ### The run -/

theorem NamedQuery.countStatement_eq_error_iff {q : NamedQuery} {e : Fault} :
    q.countStatement = .error e ↔
      ∃ name, q.uncountable? = some name ∧ e = .configuration (.unboundPlaceholder name) :=
  Bindings.statement_eq_error_iff

namespace Listing

/-- Where building fails, counting fails in the same way. -/
theorem counted_of_build_error {l : Listing} {e : Fault} (h : l.build = .error e) :
    l.counted = .error e := by
  simp only [build, bind_eq_error_iff, pure_ne_error, and_false, exists_false, or_false] at h
  rw [counted, bind_eq_error_iff]
  rcases h with hw | ⟨whole, hw, ht⟩
  · exact .inl hw
  · exact .inr ⟨whole, hw, bind_eq_error_iff.2 (.inl ht)⟩

/-- Where building succeeds, the query for the whole list is counted. -/
theorem counted_of_build {l : Listing} {q whole : NamedQuery} (hb : l.build = .ok q)
    (hw : l.filtered = .ok whole) : l.counted = whole.countStatement := by
  obtain ⟨-, -, tail, ht, -⟩ := build_eq_ok_iff.1 hb
  rw [counted, hw, ht]
  rfl

section Run

variable {σ : Type} (client : Client (StateM σ)) {l : Listing} (w : σ)

/-- The query of a preparation is the one that is built: both put the same tail behind the query for
the whole list. -/
theorem run_prepare_of_build {q whole : NamedQuery} (hb : l.build = .ok q)
    (hw : l.filtered = .ok whole) {s : Statement} (hs : whole.countStatement = .ok s) :
    ((l.prepare client.recording).run ([], w)).1.result =
        (((client.plan s).run w).1 >>= fun plan => rowCount plan >>= fun total => .ok ⟨q, total⟩) ∧
      ((l.prepare client.recording).run ([], w)).2.1 = [⟨.plan, s⟩] := by
  obtain ⟨whole', hw', tail, ht, rfl⟩ := build_eq_ok_iff.1 hb
  obtain rfl : whole = whole' := Except.ok.inj (hw.symm.trans hw')
  exact run_prepare_of_ok client w hw ht hs

variable {client w}

/-- A preparation comes out in the way that its client and its listing lead to. -/
theorem Prepares.run {result : Except Fault Prepared} {calls : List Call}
    (h : l.Prepares client w result calls) :
    ((l.prepare client.recording).run ([], w)).1.result = result ∧
      ((l.prepare client.recording).run ([], w)).2.1 = calls := by
  cases h with
  | refused hb => exact run_prepare_of_error client w (counted_of_build_error hb)
  | unbound hb hw hn =>
    refine run_prepare_of_error client w ?_
    rw [counted_of_build hb hw]
    exact NamedQuery.countStatement_eq_error_iff.2 ⟨_, hn, rfl⟩
  | failed hb hw hs ha =>
    obtain ⟨hresult, hcalls⟩ := run_prepare_of_build client w hb hw hs
    rw [hresult, ha]
    exact ⟨rfl, hcalls⟩
  | unreadable hb hw hs ha hc =>
    obtain ⟨hresult, hcalls⟩ := run_prepare_of_build client w hb hw hs
    rw [hresult, ha]
    refine ⟨?_, hcalls⟩
    show (rowCount _ >>= _) = _
    rw [hc]
    rfl
  | counted hb hw hs ha hc =>
    obtain ⟨hresult, hcalls⟩ := run_prepare_of_build client w hb hw hs
    rw [hresult, ha]
    refine ⟨?_, hcalls⟩
    show (rowCount _ >>= _) = _
    rw [hc]
    rfl

end Run

theorem exists_prepares {σ : Type} (client : Client (StateM σ)) (l : Listing) (w : σ) :
    ∃ result calls, l.Prepares client w result calls := by
  cases hb : l.build with
  | error e => exact ⟨_, _, .refused hb⟩
  | ok q =>
    obtain ⟨whole, hw, -⟩ := build_eq_ok_iff.1 hb
    cases hs : whole.countStatement with
    | error e =>
      obtain ⟨name, hn, rfl⟩ := NamedQuery.countStatement_eq_error_iff.1 hs
      exact ⟨_, _, .unbound hb hw hn⟩
    | ok s =>
      cases ha : ((client.plan s).run w).1 with
      | error e => exact ⟨_, _, .failed hb hw hs ha⟩
      | ok plan =>
        cases hc : rowCount plan with
        | error e =>
          obtain ⟨cause, rfl⟩ := rowCount_error hc
          exact ⟨_, _, .unreadable hb hw hs ha hc⟩
        | ok total => exact ⟨_, _, .counted hb hw hs ha hc⟩

end Listing

/-- **To prepare is to build and to count.** A listing cannot be built exactly when a filter has no
rule, or else when the word for the direction is bad. Its preparation comes out in the way that
`Listing.Prepares` describes: the same fault and no call, or the same query and one call. -/
theorem prepare_builds_and_counts {σ : Type} (client : Client (StateM σ)) (l : Listing) (w : σ) :
    (∀ e, l.build = .error e ↔
      (∃ name, l.unruled? = some name ∧ e = .configuration (.missingRule name)) ∨
        l.unruled? = none ∧
          ∃ word, l.paging.badWord? = some word ∧ e = .validation (.badDirection word)) ∧
      ∀ result calls, l.Prepares client w result calls ↔
        ((l.prepare client.recording).run ([], w)).1.result = result ∧
          ((l.prepare client.recording).run ([], w)).2.1 = calls := by
  refine ⟨fun e => Listing.build_eq_error_iff, fun result calls => ⟨Listing.Prepares.run, ?_⟩⟩
  obtain ⟨result', calls', h⟩ := Listing.exists_prepares client l w
  rw [h.run.1, h.run.2]
  rintro ⟨rfl, rfl⟩
  exact h

end SqlAssembly
