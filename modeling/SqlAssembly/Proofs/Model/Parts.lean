import SqlAssembly.Proofs.Model.Conflict

/-!
# The parts of a query

The query of a model is put together from parts, one for each field that is answered:
`Fields.parts`. A part gives texts and bindings, `Part.given`; a relation gives one expression
around a query of its own, which comes from the model it leads to.

* `gather_eq_foldlM`: the walk over the fields takes up what the parts give, one after another.
* `foldlM_append_isSum`: it leads to all their texts, and to the first datum of every name.
* `exists_foldlM_append_iff`: it succeeds when no two parts bind a name to unequal data.
* `Model.induction_on_parts`: the models below a model are taken before the model.
-/

namespace SqlAssembly

/-- A part of the query of a model. -/
inductive Fields.Part where
  | column (c : Column)
  | relation (name : String) (link : Link) (target : Model) (nested : Request)

open Fields (Part)

/-- The parts that a request leads to, in the order of the fields: the wanted columns, and the
wanted relations under which something is wanted. -/
def Fields.parts (r : Request) : Fields → List Part
  | empty => []
  | column name c rest =>
    if r.contains name then .column c :: rest.parts r else rest.parts r
  | relation name link table target rest =>
    match r.under? name with
    | some nested => .relation name link ⟨table, target⟩ nested :: rest.parts r
    | none => rest.parts r

/-- The text of a query with one more conjunct behind its conditions. A blank one adds nothing. -/
def Select.textWith (s : Select) (condition : Predicate) : String :=
  s.query.text ++ match condition.sql? with
    | some text =>
      (if (conjuncts s.conditions).isEmpty then " WHERE " else " AND ") ++ ("(" ++ text ++ ")")
    | none => ""

/-- What a part gives: a column its texts and its bindings, a relation the expression around its own
query, which ends with the condition of the link, and the bindings of both. -/
def Fields.Part.given : Part → Except Fault Gathered
  | column c => .ok ⟨c.selects, c.joins, c.filter?.toList, c.bindings⟩
  | relation name link target nested => do
    let s ← (target.compile nested).result
    return {
      selects := [link.expression name (s.textWith link.condition)]
      bindings := s.query.bindings.merge link.condition.bindings }

/-- What all parts give, in order. -/
def Model.given (m : Model) (r : Request) : Except Fault (List Gathered) :=
  (m.fields.parts r).mapM Part.given

/-! ### The query of a relation -/

theorem conjuncts_singleton (p : Predicate) :
    conjuncts [p] = (p.sql?.map fun text => "(" ++ text ++ ")").toList := by
  rw [conjuncts, List.filterMap_cons, List.filterMap_nil]
  cases p.sql? <;> rfl

/-- The condition of the link is the last conjunct. -/
theorem Link.text_query (link : Link) (s : Select) :
    (link.query s).text = s.textWith link.condition := by
  rw [Link.query, Select.textWith, Select.query]
  simp only [NamedQuery.ofParts, joinPredicates, conjuncts_append, conjuncts_singleton]
  cases link.condition.sql? with
  | none => simp
  | some text =>
    rw [Option.map_some, Option.toList_some]
    cases hc : conjuncts s.conditions with
    | nil => simp
    | cons x xs =>
      have hne : x :: xs ≠ [] := List.cons_ne_nil x xs
      simp only [List.cons_append]
      rw [← List.cons_append, String.intercalate_append_of_ne_nil hne (List.cons_ne_nil _ _),
        String.intercalate_singleton]
      simp [String.append_assoc]

theorem Link.bindings_query (link : Link) (s : Select) :
    (link.query s).bindings = s.query.bindings.merge link.condition.bindings :=
  mergedBindings_append_singleton s.conditions link.condition

/-! ### Taking up the parts -/

/-- Takes up what a part gives. -/
def Gathered.append (g h : Gathered) : Except Fault Gathered := do
  return ⟨g.selects ++ h.selects, g.joins ++ h.joins, g.filters ++ h.filters,
    ← g.bindings.unify h.bindings⟩

theorem Gathered.append_eq_ok_iff {g h g' : Gathered} :
    g.append h = .ok g' ↔ ∃ b, g.bindings.unify h.bindings = .ok b ∧
      g' = ⟨g.selects ++ h.selects, g.joins ++ h.joins, g.filters ++ h.filters, b⟩ := by
  rw [append, bind_eq_ok_iff]
  simp only [pure_eq_ok_iff, eq_comm (a := g')]

/-- The walk over the fields takes up the parts, each when it comes to it. -/
theorem gather_eq_foldlM (fs : Fields) (r : Request) (g : Gathered) :
    (fs.gather r g).result =
      (fs.parts r).foldlM (fun g p => p.given >>= g.append) g := by
  induction fs generalizing g with
  | empty => rfl
  | column name c rest ih =>
    rw [result_gather_column, Fields.parts]
    split
    · simp only [List.foldlM_cons, ih]
      rfl
    · exact ih g
  | relation name link table target rest _ ih =>
    rw [result_gather_relation, Fields.parts]
    cases r.under? name with
    | none => exact ih g
    | some nested =>
      simp only [List.foldlM_cons, Part.given, result_compile, ih, bind_assoc, pure_bind,
        Gathered.append, Gathered.addRelation, Link.text_query, Link.bindings_query,
        List.append_nil]

/-- What several parts give together: all their texts, and the first datum of every name. -/
structure Gathered.IsSum (total : Gathered) (given : List Gathered) : Prop where
  selects : total.selects = given.flatMap Gathered.selects
  joins : total.joins = given.flatMap Gathered.joins
  filters : total.filters = given.flatMap Gathered.filters
  get? : ∀ n, total.bindings.get? n = given.findSome? fun g => g.bindings.get? n

theorem findSome?_cons_or {α β : Type} (f : α → Option β) (a : α) (l : List α) :
    (a :: l).findSome? f = (f a).or (l.findSome? f) := by
  rw [List.findSome?_cons]
  cases f a <;> rfl

/-- Taking up parts one after another leads to what all give together. -/
theorem foldlM_append_isSum {given : List Gathered} {g total : Gathered}
    (h : given.foldlM Gathered.append g = .ok total) : total.IsSum (g :: given) := by
  induction given generalizing g with
  | nil =>
    cases h
    exact ⟨by simp, by simp, by simp, fun n => by simp⟩
  | cons p given ih =>
    rw [List.foldlM_cons, bind_eq_ok_iff] at h
    obtain ⟨g₁, hstep, h⟩ := h
    obtain ⟨b, hb, rfl⟩ := Gathered.append_eq_ok_iff.1 hstep
    obtain ⟨hs, hj, hf, hget⟩ := ih h
    refine ⟨?_, ?_, ?_, fun n => ?_⟩
    · rw [hs]
      simp only [List.flatMap_cons, List.append_assoc]
    · rw [hj]
      simp only [List.flatMap_cons, List.append_assoc]
    · rw [hf]
      simp only [List.flatMap_cons, List.append_assoc]
    · rw [hget, findSome?_cons_or, findSome?_cons_or, findSome?_cons_or, ← Option.or_assoc,
        ← (Bindings.unify_eq_ok hb).2]

/-! ### Parts that agree -/

namespace Bindings

/-- The names that both bind are bound to equal data. -/
def Agree (b c : Bindings) : Prop :=
  ∀ n x y, b.get? n = some x → c.get? n = some y → (x == y) = true

/-- Bindings that agree unify. -/
theorem exists_unify {b c : Bindings} (h : b.Agree c) : ∃ b', b.unify c = .ok b' := by
  unfold unify
  change ∀ n x y, _ → c.entries.lookup n = some y → _ at h
  have hnodup := c.keys_nodup
  generalize c.entries = l at h hnodup ⊢
  induction l generalizing b with
  | nil => exact ⟨b, rfl⟩
  | cons e l ih =>
    obtain ⟨hne, hnodup⟩ := List.nodup_cons.1 hnodup
    rw [List.foldlM_cons]
    -- the name of the entry does not come again
    have hrest {n : String} {y : Datum} (hy : l.lookup n = some y) :
        n ≠ e.1 ∧ (e :: l).lookup n = some y := by
      have hn : n ≠ e.1 := fun hn => hne (hn ▸ List.mem_map_of_mem (Assoc.mem_of_lookup hy))
      exact ⟨hn, by rw [Assoc.lookup_cons_eq_ite, if_neg hn, hy]⟩
    have hhead : (e :: l).lookup e.1 = some e.2 := by
      rw [Assoc.lookup_cons_eq_ite, if_pos rfl]
    cases hp : b.get? e.1 with
    | some present =>
      simp only [if_pos (h _ _ _ hp hhead)]
      exact ih (fun n x y hx hy => h n x y hx (hrest hy).2) hnodup
    | none =>
      refine ih (fun n x y hx hy => ?_) hnodup
      rw [Assoc.get?_insert, if_neg (hrest hy).1] at hx
      exact h n x y hx (hrest hy).2

/-- What two bindings agree with together, each agrees with. -/
theorem agree_unify_iff {b c b' d : Bindings} (h : b.unify c = .ok b') :
    b'.Agree d ↔ b.Agree d ∧ c.Agree d := by
  obtain ⟨hagree, hget⟩ := unify_eq_ok h
  constructor
  · intro hd
    refine ⟨fun n x y hx hy => hd n x y ?_ hy, fun n x y hx hy => ?_⟩
    · rw [hget, hx, Option.some_or]
    · cases hb : b.get? n with
      | none => exact hd n x y (by rw [hget, hb, Option.none_or, hx]) hy
      | some z =>
        -- `x` equals the datum of the first bindings, and that equals `y`
        have hzy := hd n z y (by rw [hget, hb, Option.some_or]) hy
        exact BEq.trans (BEq.symm (hagree n z x hb hx)) hzy
  · rintro ⟨hb, hc⟩ n x y hx hy
    rw [hget, Option.or_eq_some_iff] at hx
    rcases hx with hx | ⟨-, hx⟩
    · exact hb n x y hx hy
    · exact hc n x y hx hy

end Bindings

/-- Two parts bind no name to unequal data. -/
def Gathered.Agree (g h : Gathered) : Prop :=
  g.bindings.Agree h.bindings

/-- All parts can be taken up when no two of them bind a name to unequal data. -/
theorem exists_foldlM_append_iff {given : List Gathered} {g : Gathered} :
    (∃ total, given.foldlM Gathered.append g = .ok total) ↔
      (g :: given).Pairwise Gathered.Agree := by
  induction given generalizing g with
  | nil => exact ⟨fun _ => List.pairwise_singleton _ _, fun _ => ⟨g, rfl⟩⟩
  | cons p given ih =>
    simp only [List.foldlM_cons, bind_eq_ok_iff, Gathered.append_eq_ok_iff, List.pairwise_cons,
      List.forall_mem_cons]
    constructor
    · rintro ⟨total, _, ⟨b, hb, rfl⟩, h⟩
      obtain ⟨hall, hgiven⟩ := List.pairwise_cons.1 (ih.1 ⟨total, h⟩)
      have hagree := fun q hq => (Bindings.agree_unify_iff hb).1 (hall q hq)
      exact ⟨⟨(Bindings.unify_eq_ok hb).1, fun q hq => (hagree q hq).1⟩,
        fun q hq => (hagree q hq).2, hgiven⟩
    · rintro ⟨⟨hp, hg⟩, hpq, hgiven⟩
      obtain ⟨b, hb⟩ := Bindings.exists_unify hp
      obtain ⟨total, h⟩ := (ih (g := ⟨_, _, _, b⟩)).2 (List.pairwise_cons.2
        ⟨fun q hq => (Bindings.agree_unify_iff hb).2 ⟨hg q hq, hpq q hq⟩, hgiven⟩)
      exact ⟨total, _, ⟨b, hb, rfl⟩, h⟩

/-! ### Compilation -/

/-- A successful compilation takes up what all parts give, and finds something to select. -/
theorem compile_eq_ok_iff_given {m : Model} {r : Request} {s : Select} :
    (m.compile r).result = .ok s ↔
      ∃ given, m.given r = .ok given ∧
        ∃ total, given.foldlM Gathered.append {} = .ok total ∧ total.finish m.table = .ok s := by
  rw [result_compile, gather_eq_foldlM, bind_eq_ok_iff]
  simp only [foldlM_bind_eq_ok_iff, Model.given]
  constructor
  · rintro ⟨total, ⟨given, hgiven, htotal⟩, hs⟩
    exact ⟨given, hgiven, total, htotal, hs⟩
  · rintro ⟨given, hgiven, total, htotal, hs⟩
    exact ⟨total, ⟨given, hgiven, htotal⟩, hs⟩

/-- What is taken up from nothing on is what the parts give together. -/
theorem isSum_of_foldlM_append {given : List Gathered} {total : Gathered}
    (h : given.foldlM Gathered.append {} = .ok total) : total.IsSum given := by
  obtain ⟨hs, hj, hf, hget⟩ := foldlM_append_isSum h
  refine ⟨hs, hj, hf, fun n => ?_⟩
  rw [hget, findSome?_cons_or, Assoc.get?_empty, Option.none_or]

/-- A compilation succeeds when every part gives something, no two of them bind a name to unequal
data, and there is something to select. -/
theorem exists_compile_iff {m : Model} {r : Request} :
    (∃ s, (m.compile r).result = .ok s) ↔
      ∃ given, m.given r = .ok given ∧ given.Pairwise Gathered.Agree ∧
        given.flatMap Gathered.selects ≠ [] := by
  have hempty (given : List Gathered) :
      (({} : Gathered) :: given).Pairwise Gathered.Agree ↔ given.Pairwise Gathered.Agree := by
    rw [List.pairwise_cons, and_iff_right]
    exact fun g _ n x y hx => nomatch hx
  simp only [compile_eq_ok_iff_given]
  constructor
  · rintro ⟨s, given, hgiven, total, htotal, hs⟩
    refine ⟨given, hgiven, (hempty given).1 (exists_foldlM_append_iff.1 ⟨total, htotal⟩), ?_⟩
    rw [← (isSum_of_foldlM_append htotal).selects]
    exact (Gathered.finish_eq_ok_iff.1 hs).1
  · rintro ⟨given, hgiven, hagree, hselects⟩
    obtain ⟨total, htotal⟩ := exists_foldlM_append_iff.2 ((hempty given).2 hagree)
    rw [← (isSum_of_foldlM_append htotal).selects] at hselects
    exact ⟨_, given, hgiven, total, htotal, Gathered.finish_eq_ok_iff.2 ⟨hselects, rfl⟩⟩

/-! ### The models below a model -/

/-- The model of a relation has less in it than the model it belongs to. -/
theorem Fields.sizeOf_lt_of_mem_parts {fs : Fields} {r nested : Request} {name : String}
    {link : Link} {target : Model} (h : Part.relation name link target nested ∈ fs.parts r) :
    sizeOf target.fields < sizeOf fs := by
  induction fs with
  | empty => cases h
  | column n c rest ih =>
    rw [parts] at h
    have hrest : Part.relation name link target nested ∈ rest.parts r := by
      split at h
      · exact (List.mem_cons.1 h).resolve_left nofun
      · exact h
    have := ih hrest
    rw [column.sizeOf_spec]
    omega
  | relation n l table fields rest _ ih =>
    rw [parts] at h
    rw [relation.sizeOf_spec]
    split at h
    · rcases List.mem_cons.1 h with h | h
      · cases h
        change sizeOf fields < _
        omega
      · have := ih h
        omega
    · have := ih h
      omega

/-- What holds of a model as soon as it holds of the models its parts lead to, holds of every
model. -/
theorem Model.induction_on_parts {P : Model → Prop}
    (step : ∀ m : Model, (∀ r name link target nested,
      Part.relation name link target nested ∈ m.fields.parts r → P target) → P m) (m : Model) :
    P m := by
  induction h : sizeOf m.fields using Nat.strongRecOn generalizing m with
  | _ n ih =>
    refine step m fun r name link target nested hp => ih _ ?_ target rfl
    rw [← h]
    exact Fields.sizeOf_lt_of_mem_parts hp

end SqlAssembly
