import SqlAssembly.Proofs.Clause.Merging
import SqlAssembly.Proofs.Datum.Equality
import SqlAssembly.Proofs.Model.Emitted

/-!
# Conflicts of bindings

The parts of a query bring bindings along: `Fields.contributions`. They are `Consistent` when no
name is bound to unequal data by two of them. A conflict is a failure, with one exception: the
condition of a relation takes precedence over what lies below the relation, `Fields.Overridden`.

* `Bindings.Holds b l` says that `b` has the first datum of every name in `l`, and that the data of
  `l` are consistent.
* `Collects.get?_bindings`: what a walk gives to a name is always the first contribution.
* `findsConflicts_iff`: conflicts are found but for those that a relation overrides.
-/

namespace SqlAssembly

/-- No name is bound to unequal data at two places of the list. -/
def Consistent (l : List (String × Datum)) : Prop :=
  l.Pairwise fun e f => e.1 = f.1 → (e.2 == f.2) = true

namespace Fields

/-- The bindings of all parts, those of a relation's condition before those of what lies below. -/
def contributions : Fields → List (String × Datum)
  | empty => []
  | column _ c rest => c.bindings.entries ++ rest.contributions
  | relation _ link _ target rest =>
    link.condition.bindings.entries ++ target.contributions ++ rest.contributions

/-- The condition of a relation, at any depth, binds a name to a datum that is unequal to one which
a part below the relation binds it to. -/
def Overridden : Fields → Prop
  | empty => False
  | column _ _ rest => rest.Overridden
  | relation _ link _ target rest =>
    (∃ e ∈ link.condition.bindings.entries, ∃ f ∈ target.contributions,
        e.1 = f.1 ∧ (e.2 == f.2) = false) ∨
      target.Overridden ∨ rest.Overridden

end Fields

/-- The bindings are the union of the list: they bind its names and no others, each to a datum that
the list has for it and that equals all other data it has for it. -/
structure Bindings.IsUnion (b : Bindings) (l : List (String × Datum)) : Prop where
  names : ∀ n, b.contains n = true ↔ ∃ d, (n, d) ∈ l
  /-- A datum is one of the list, and equals the others. -/
  data : ∀ n v, b.get? n = some v → (n, v) ∈ l ∧ ∀ d, (n, d) ∈ l → d = v ∨ (d == v) = true

/-! ### Consistent lists -/

theorem consistent_append {l k : List (String × Datum)} :
    Consistent (l ++ k) ↔ Consistent l ∧ Consistent k ∧
      ∀ e ∈ l, ∀ f ∈ k, e.1 = f.1 → (e.2 == f.2) = true :=
  List.pairwise_append

/-- The entries of bindings have distinct names. -/
theorem consistent_entries (b : Bindings) : Consistent b.entries := by
  have h : b.entries.Pairwise fun e f => e.1 ≠ f.1 := List.pairwise_map.1 b.keys_nodup
  exact h.imp fun hne e => (hne e).elim

theorem lookup_isSome_of_mem {l : List (String × Datum)} {n : String} {d : Datum}
    (h : (n, d) ∈ l) : (l.lookup n).isSome = true :=
  (Assoc.lookup_isSome_iff n l).2 (List.mem_map_of_mem h)

/-- All data of a name equal its first one. -/
theorem Consistent.lookup_equal {l : List (String × Datum)} (hl : Consistent l) {n : String}
    {v d : Datum} (h : l.lookup n = some v) (hd : (n, d) ∈ l) : d = v ∨ (v == d) = true := by
  induction l with
  | nil => cases h
  | cons e l ih =>
    obtain ⟨he, hl⟩ := List.pairwise_cons.1 hl
    rw [Assoc.lookup_cons_eq_ite] at h
    split at h
    · next hn =>
      cases h
      rcases List.mem_cons.1 hd with rfl | hd
      · exact .inl rfl
      · exact .inr (he _ hd hn.symm)
    · next hn =>
      rcases List.mem_cons.1 hd with rfl | hd
      · exact (hn rfl).elim
      · exact ih hl h hd

/-- Two consistent lists are consistent together when the first data of their common names are
equal. -/
theorem Consistent.append {l k : List (String × Datum)} (hl : Consistent l) (hk : Consistent k)
    (h : ∀ n x y, l.lookup n = some x → k.lookup n = some y → (x == y) = true) :
    Consistent (l ++ k) := by
  refine consistent_append.2 ⟨hl, hk, ?_⟩
  rintro ⟨n, d⟩ hd ⟨_, f⟩ hf rfl
  obtain ⟨x, hx⟩ := Option.isSome_iff_exists.1 (lookup_isSome_of_mem hd)
  obtain ⟨y, hy⟩ := Option.isSome_iff_exists.1 (lookup_isSome_of_mem hf)
  have hxy := h n x y hx hy
  -- `d` equals `x`, which equals `y`, which equals `f`
  have hdy : (d == y) = true := by
    rcases hl.lookup_equal hx hd with rfl | hxd
    · exact hxy
    · exact BEq.trans (BEq.symm hxd) hxy
  rcases hk.lookup_equal hy hf with rfl | hyf
  · exact hdy
  · exact BEq.trans hdy hyf

/-- An override is a conflict. -/
theorem Fields.Overridden.not_consistent {fs : Fields} (h : fs.Overridden) :
    ¬Consistent fs.contributions := by
  intro hc
  induction fs with
  | empty => exact h
  | column name c rest ih => exact ih h (consistent_append.1 hc).2.1
  | relation name link table target rest iht ih =>
    obtain ⟨hc, hrest, -⟩ := consistent_append.1 hc
    obtain ⟨-, htarget, hcross⟩ := consistent_append.1 hc
    rcases h with ⟨e, he, f, hf, hn, hne⟩ | h | h
    · rw [hcross e he f hf hn] at hne
      cases hne
    · exact iht h htarget
    · exact ih h hrest

/-! ### Bindings put together -/

namespace Bindings

/-- The data of the list are consistent, and the bindings have the first one of every name. -/
structure Holds (b : Bindings) (l : List (String × Datum)) : Prop where
  consistent : Consistent l
  get? : ∀ n, b.get? n = l.lookup n

theorem holds_entries (b : Bindings) : b.Holds b.entries :=
  ⟨consistent_entries b, fun _ => rfl⟩

theorem Holds.isUnion {b : Bindings} {l : List (String × Datum)} (h : b.Holds l) :
    b.IsUnion l where
  names n := by
    rw [Assoc.contains, h.get?]
    constructor
    · intro hn
      obtain ⟨d, hd⟩ := Option.isSome_iff_exists.1 hn
      exact ⟨d, Assoc.mem_of_lookup hd⟩
    · rintro ⟨d, hd⟩
      exact lookup_isSome_of_mem hd
  data n v hv := by
    rw [h.get?] at hv
    exact ⟨Assoc.mem_of_lookup hv, fun d hd => (h.consistent.lookup_equal hv hd).imp_right BEq.symm⟩

/-- Bindings unify when they agree on the names they share. The first bindings keep their data. -/
theorem unify_eq_ok {b other b' : Bindings} (h : b.unify other = .ok b') :
    (∀ n x y, b.get? n = some x → other.get? n = some y → (x == y) = true) ∧
      ∀ n, b'.get? n = (b.get? n).or (other.get? n) := by
  unfold unify at h
  change (∀ n x y, _ → other.entries.lookup n = _ → _) ∧
    ∀ n, _ = (b.get? n).or (other.entries.lookup n)
  have hnodup := other.keys_nodup
  generalize other.entries = l at h hnodup
  -- the bindings so far grow with each entry of the other ones
  induction l generalizing b with
  | nil =>
    cases h
    simp
  | cons e l ih =>
    obtain ⟨hne, hnodup⟩ := List.nodup_cons.1 hnodup
    rw [List.foldlM_cons, bind_eq_ok_iff] at h
    obtain ⟨b₁, hb₁, h⟩ := h
    obtain ⟨hagree, hget⟩ := ih h hnodup
    -- one entry changes nothing but a name without a datum
    have hstep : (∀ x, b.get? e.1 = some x → (x == e.2) = true) ∧
        ∀ n, b₁.get? n = (b.get? n).or (if n = e.1 then some e.2 else none) := by
      split at hb₁
      · next present hp =>
        split at hb₁
        · next heq =>
          cases hb₁
          refine ⟨fun x hx => ?_, fun n => ?_⟩
          · rw [hp] at hx
            cases hx
            exact heq
          · split
            · next hn => rw [hn, hp, Option.some_or]
            · rw [Option.or_none]
        · cases hb₁
      · next hp =>
        cases hb₁
        refine ⟨fun x hx => (by rw [hp] at hx; cases hx), fun n => ?_⟩
        rw [Assoc.get?_insert]
        split
        · next hn => rw [hn, hp, Option.none_or]
        · rw [Option.or_none]
    refine ⟨fun n x y hx hy => ?_, fun n => ?_⟩
    · rw [Assoc.lookup_cons_eq_ite] at hy
      split at hy
      · next hn =>
        cases hy
        exact hstep.1 x (hn ▸ hx)
      · refine hagree n x y ?_ hy
        rw [hstep.2, hx, Option.some_or]
    · rw [hget, hstep.2, Option.or_assoc, Assoc.lookup_cons_eq_ite]
      split
      · rw [Option.some_or]
      · rw [Option.none_or]

theorem Holds.unify {b c b' : Bindings} {l k : List (String × Datum)} (hb : b.Holds l)
    (hc : c.Holds k) (h : b.unify c = .ok b') : b'.Holds (l ++ k) := by
  obtain ⟨hagree, hget⟩ := unify_eq_ok h
  refine ⟨hb.consistent.append hc.consistent fun n x y hx hy => ?_, fun n => ?_⟩
  · exact hagree n x y (by rw [hb.get?, hx]) (by rw [hc.get?, hy])
  · rw [hget, hb.get?, hc.get?, List.lookup_append]

end Bindings

/-- The conditions of a query carry what was gathered. -/
theorem Gathered.get?_mergedBindings (g : Gathered) (n : String) :
    (mergedBindings g.conditions).get? n = g.bindings.get? n := by
  rw [Gathered.conditions]
  split
  · next h =>
    rw [List.append_nil, mergedBindings_map_ofText, Assoc.get?_empty, Assoc.get?,
      List.isEmpty_iff.1 h, List.lookup_nil]
  · rw [mergedBindings_append_singleton, mergedBindings_map_ofText, Assoc.get?_merge,
      Assoc.get?_empty, Option.or_none]
    rfl

/-- In the query of a relation the condition of the link wins. -/
theorem Link.get?_query_bindings {g : Gathered} {table : String} {s : Select}
    (h : g.finish table = .ok s) (link : Link) (n : String) :
    (link.query s).bindings.get? n =
      (link.condition.bindings.get? n).or (g.bindings.get? n) := by
  obtain ⟨-, rfl⟩ := Gathered.finish_eq_ok_iff.1 h
  show (mergedBindings (g.conditions ++ [link.condition])).get? n = _
  rw [mergedBindings_append_singleton, Assoc.get?_merge, Gathered.get?_mergedBindings]

/-! ### The walk -/

/-- A name is bound to the first datum that it has, be there a conflict or not. -/
theorem Collects.get?_bindings {g g' : Gathered} {fs : Fields} (h : Collects g fs g')
    (n : String) : g'.bindings.get? n = (g.bindings.get? n).or (fs.contributions.lookup n) := by
  induction h with
  | empty g => rw [Fields.contributions, List.lookup_nil, Option.or_none]
  | column hc _ ih =>
    obtain ⟨b, hb, rfl⟩ := Gathered.addColumn_eq_ok_iff.1 hc
    rw [ih, (Bindings.unify_eq_ok hb).2, Fields.contributions, List.lookup_append, Option.or_assoc]
    rfl
  | @relation _ link _ _ _ _ _ _ _ _ _ hs hr _ iht ih =>
    obtain ⟨b, hb, rfl⟩ := Gathered.addRelation_eq_ok_iff.1 hr
    rw [ih, (Bindings.unify_eq_ok hb).2, Link.get?_query_bindings hs, iht, Fields.contributions,
      List.lookup_append, List.lookup_append, Assoc.get?_empty, Option.none_or, Option.or_assoc]
    rfl

/-- Without an override a walk succeeds only if all contributions are consistent. -/
theorem Collects.holds {g g' : Gathered} {fs : Fields} (h : Collects g fs g')
    (ho : ¬fs.Overridden) {l : List (String × Datum)} (hl : g.bindings.Holds l) :
    g'.bindings.Holds (l ++ fs.contributions) := by
  induction h generalizing l with
  | empty g => rwa [Fields.contributions, List.append_nil]
  | column hc _ ih =>
    obtain ⟨b, hb, rfl⟩ := Gathered.addColumn_eq_ok_iff.1 hc
    rw [Fields.contributions, ← List.append_assoc]
    exact ih ho (hl.unify (Bindings.holds_entries _) hb)
  | @relation _ link _ target rest _ _ _ _ s _ hs hr _ iht ih =>
    obtain ⟨b, hb, rfl⟩ := Gathered.addRelation_eq_ok_iff.1 hr
    obtain ⟨hlink, ho⟩ := not_or.1 ho
    obtain ⟨htarget, hrest⟩ := not_or.1 ho
    -- below the relation a walk starts anew, with nothing bound
    have hinner := iht htarget (Bindings.holds_entries ∅)
    rw [Assoc.entries_empty, List.nil_append] at hinner
    have hquery : (link.query s).bindings.Holds
        (link.condition.bindings.entries ++ target.contributions) := by
      refine ⟨(consistent_entries _).append hinner.consistent fun n x y hx hy => ?_, fun n => ?_⟩
      -- nothing compares these two data, only that there is no override
      · by_contra hne
        exact hlink ⟨_, Assoc.mem_of_lookup hx, _, Assoc.mem_of_lookup hy, rfl, by simpa using hne⟩
      · rw [Link.get?_query_bindings hs, hinner.get?, List.lookup_append]
        rfl
    rw [Fields.contributions, ← List.append_assoc]
    exact ih hrest (hl.unify hquery hb)

/-! ### Selections -/

/-- The query for a request binds every name to its first datum. -/
theorem compile_get?_bindings {m : Model} {r : Request} {s : Select}
    (h : (m.compile r).result = .ok s) (n : String) :
    s.query.bindings.get? n = (m.fields.emitted r).contributions.lookup n := by
  obtain ⟨g, hg, hs⟩ := compile_eq_ok_iff.1 h
  obtain ⟨-, rfl⟩ := Gathered.finish_eq_ok_iff.1 hs
  show (mergedBindings g.conditions).get? n = _
  rw [Gathered.get?_mergedBindings, hg.get?_bindings, Assoc.get?_empty, Option.none_or]

/-- The query of a selection binds every name to its first datum. -/
theorem select_get?_bindings {m : Model} {w : Wanted} {r : Request} {s : Select}
    (hr : w.resolve m.table = .ok r) (h : (m.select w).result = .ok s) (n : String) :
    s.query.bindings.get? n = (m.fields.emitted r).contributions.lookup n :=
  compile_get?_bindings ((select_eq_ok_iff hr).1 h).2 n

/-- Without an override a selection succeeds only if all contributions are consistent. -/
theorem select_holds {m : Model} {w : Wanted} {r : Request} {s : Select}
    (hr : w.resolve m.table = .ok r) (h : (m.select w).result = .ok s)
    (ho : ¬(m.fields.emitted r).Overridden) :
    s.query.bindings.Holds (m.fields.emitted r).contributions := by
  refine ⟨?_, select_get?_bindings hr h⟩
  obtain ⟨-, h⟩ := (select_eq_ok_iff hr).1 h
  obtain ⟨g, hg, -⟩ := compile_eq_ok_iff.1 h
  exact (hg.holds ho (Bindings.holds_entries ∅)).consistent

/-- No conflict is passed over: names with unequal data make the selection fail, and the bindings of
its query are the union of all contributions. -/
structure Model.FindsConflicts (m : Model) (w : Wanted) (r : Request) : Prop where
  /-- A name with unequal data is a failure of the configuration. -/
  fails : ¬Consistent (m.fields.emitted r).contributions →
    ∃ cause, (m.select w).result = .error (.configuration cause)
  /-- The query binds what its parts contribute. -/
  unites : ∀ s, (m.select w).result = .ok s →
    s.query.bindings.IsUnion (m.fields.emitted r).contributions

/-- **A selection finds all conflicts but overrides.** It passes over a conflict exactly when it
succeeds although the condition of a relation overrides a binding below the relation. -/
theorem findsConflicts_iff {m : Model} {w : Wanted} {r : Request}
    (hr : w.resolve m.table = .ok r) :
    m.FindsConflicts w r ↔
      ((m.fields.emitted r).Overridden → ∃ e, (m.select w).result = .error e) := by
  constructor
  · intro h ho
    obtain ⟨cause, hc⟩ := h.fails ho.not_consistent
    exact ⟨_, hc⟩
  · intro h
    have hok : ∀ s, (m.select w).result = .ok s →
        s.query.bindings.Holds (m.fields.emitted r).contributions := by
      intro s hs
      refine select_holds hr hs fun ho => ?_
      obtain ⟨e, he⟩ := h ho
      rw [hs] at he
      cases he
    refine ⟨fun hc => ?_, fun s hs => (hok s hs).isUnion⟩
    cases hs : (m.select w).result with
    | ok s => exact (hc (hok s hs).consistent).elim
    | error e =>
      obtain ⟨cause, rfl⟩ := select_error hr hs
      exact ⟨cause, rfl⟩

/-- Articles with their comments: the link binds `x` to two, a column of the comments to `n`. -/
def commented (n : Int64) : Model where
  table := "a"
  fields := .relation "comments" ((Link.ofText .many "c.x = :x").bind "x" (.int 2)) "c"
    (.column "body" ((Column.ofSelect "c.body").bind "x" (.int n)) .empty) .empty

/-- The bodies of the comments. -/
def commentBodies : Wanted where
  names := some ["comments"]
  related := Assoc.ofList [("comments", ["body"])]

/-- Equal data are no conflict. -/
theorem findsConflicts_commented :
    ∃ r, commentBodies.resolve "a" = .ok r ∧ (commented 2).FindsConflicts commentBodies r := by
  refine ⟨_, rfl, (findsConflicts_iff rfl).2 fun h => ?_⟩
  rcases h with ⟨e, he, f, hf, hn, hne⟩ | h | h
  · obtain rfl := List.mem_singleton.1 he
    obtain rfl := List.mem_singleton.1 hf
    cases hne
  · exact False.elim h
  · exact False.elim h

/-- The link binds `x` to two and passes over the one below it. -/
theorem not_findsConflicts_commented :
    ∃ r, commentBodies.resolve "a" = .ok r ∧
      ¬(commented 1).FindsConflicts commentBodies r ∧
      ∃ s, ((commented 1).select commentBodies).result = .ok s ∧
        s.query.bindings.get? "x" = some (.int 2) := by
  refine ⟨_, rfl, fun h => ?_, _, rfl, rfl⟩
  obtain ⟨cause, hc⟩ := h.fails fun hc => by
    have := (List.pairwise_cons.1 hc).1 _ List.mem_cons_self rfl
    cases this
  cases hc

end SqlAssembly
