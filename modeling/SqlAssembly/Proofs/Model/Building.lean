import SqlAssembly.Proofs.Clause.Splitting
import SqlAssembly.Proofs.Model.Emission

/-!
# Columns built call by call

A column is built by calls, each of which gives it an expression, a join, a condition or a binding.
Expressions, joins and bindings add up. Of the conditions only the last one counts.

* `Column.built` is the column that calls build; `Column.built_eq` says what is in it.
* `Column.KeepsRestrictions` says that no query with the column loses anything that the calls gave.
* `keepsRestrictions_iff`: this is so exactly when no condition is followed by another one.
-/

namespace SqlAssembly

namespace Column

/-- A call that builds a column. -/
inductive Call where
  | select (expression : String)
  | join (clause : String)
  | filter (text : String)
  | bind (name : String) (datum : Datum)

namespace Call

/-- The expression of a call. -/
def expression? : Call → Option String
  | select expression => some expression
  | _ => none

/-- The join of a call. -/
def clause? : Call → Option String
  | join clause => some clause
  | _ => none

/-- The condition of a call. -/
def condition? : Call → Option String
  | filter text => some text
  | _ => none

/-- The binding of a call. -/
def binding? : Call → Option (String × Datum)
  | bind name datum => some (name, datum)
  | _ => none

end Call

/-- The column after a call. -/
def call (c : Column) : Call → Column
  | .select expression => c.select expression
  | .join clause => c.join clause
  | .filter text => c.filter text
  | .bind name datum => c.bind name datum

/-- The column that calls build, one after another. -/
def built (calls : List Call) : Column :=
  calls.foldl call { selects := [] }

/-- The calls of each kind are the same in the same order, whatever stands between them. -/
structure SameCalls (calls others : List Call) : Prop where
  expressions : calls.filterMap Call.expression? = others.filterMap Call.expression?
  clauses : calls.filterMap Call.clause? = others.filterMap Call.clause?
  conditions : calls.filterMap Call.condition? = others.filterMap Call.condition?
  bindings : calls.filterMap Call.binding? = others.filterMap Call.binding?

end Column

/-- A query from a table has in it what calls gave to a column. -/
structure Select.Carries (s : Select) (table : String) (calls : List Column.Call) : Prop where
  /-- It selects every expression, and has every join behind the table. -/
  head : ∃ selects joins, (∀ x, .select x ∈ calls → x ∈ selects) ∧
    (∀ x, .join x ∈ calls → x ∈ joins) ∧
    s.head = "SELECT " ++ ",".intercalate selects ++ " FROM " ++ table ++
      if joins.isEmpty then "" else " " ++ " ".intercalate joins
  /-- Every condition that is not blank is one of its conditions. -/
  conditions : ∀ t, .filter t ∈ calls → Text.isBlankText t = false →
    Predicate.ofText t ∈ s.conditions
  /-- Hence it is a conjunct of the clause behind the head. -/
  clause : ∀ t, .filter t ∈ calls → Text.isBlankText t = false →
    ∃ parts, s.query.text = s.head ++ " WHERE " ++ " AND ".intercalate parts ∧
      "(" ++ t ++ ")" ∈ parts

/-- Nothing that calls give to a column is lost. -/
structure Column.KeepsRestrictions (calls : List Call) : Prop where
  /-- A query for a field that the column stands for has in it what the calls gave. -/
  carried : ∀ (m : Model) (w : Wanted) (r : Request) (name : String) (s : Select),
    m.fields.get? name = some (.column (built calls)) → w.resolve m.table = .ok r →
      r.contains name = true → (m.select w).result = .ok s → s.Carries m.table calls
  /-- Calls of different kinds may come in any order. -/
  order : ∀ others, SameCalls calls others → built others = built calls

/-! ### What is in a column -/

namespace Column

/-- The column with what calls of each kind give it. -/
def ofGiven (expressions clauses conditions : List String) (bindings : List (String × Datum)) :
    Column where
  selects := expressions
  joins := clauses
  condition := if conditions.isEmpty && bindings.isEmpty then none
    else some ⟨conditions.getLast?, Assoc.ofList bindings⟩

theorem getD_condition_ofGiven (expressions clauses conditions : List String)
    (bindings : List (String × Datum)) :
    (ofGiven expressions clauses conditions bindings).condition.getD {} =
      ⟨conditions.getLast?, Assoc.ofList bindings⟩ := by
  cases conditions with
  | nil => cases bindings <;> rfl
  | cons t conditions => rfl

/-- A call adds to what calls of its kind gave. -/
theorem call_ofGiven (expressions clauses conditions : List String)
    (bindings : List (String × Datum)) (x : Call) :
    (ofGiven expressions clauses conditions bindings).call x =
      ofGiven (expressions ++ x.expression?.toList) (clauses ++ x.clause?.toList)
        (conditions ++ x.condition?.toList) (bindings ++ x.binding?.toList) := by
  cases x with
  | select expression =>
    simp [call, select, ofGiven, Call.expression?, Call.clause?, Call.condition?, Call.binding?]
  | join clause =>
    simp [call, join, ofGiven, Call.expression?, Call.clause?, Call.condition?, Call.binding?]
  | filter text =>
    -- the text takes the place of an earlier one, and the bindings stay
    rw [call, filter, getD_condition_ofGiven]
    simp [ofGiven, Call.expression?, Call.clause?, Call.condition?, Call.binding?]
  | bind name datum =>
    rw [call, bind, getD_condition_ofGiven]
    simp [ofGiven, Call.expression?, Call.clause?, Call.condition?, Call.binding?, Predicate.bind,
      Assoc.ofList]

/-- All expressions, joins and bindings are in a column, and the last condition. -/
theorem built_eq (calls : List Call) :
    built calls = ofGiven (calls.filterMap Call.expression?) (calls.filterMap Call.clause?)
      (calls.filterMap Call.condition?) (calls.filterMap Call.binding?) := by
  induction calls using List.reverseRecOn with
  | nil => rfl
  | append_singleton calls x ih =>
    have hstep : built (calls ++ [x]) = (built calls).call x := by
      rw [built, List.foldl_append]
      rfl
    have hone {α : Type} (f : Call → Option α) : [x].filterMap f = (f x).toList := by
      cases h : f x <;> simp [h]
    rw [hstep, ih, call_ofGiven]
    simp only [List.filterMap_append, hone]

theorem built_congr {calls others : List Call} (h : SameCalls calls others) :
    built others = built calls := by
  rw [built_eq, built_eq, h.expressions, h.clauses, h.conditions, h.bindings]

/-- The condition of a column is the last one that it was given, unless that is blank. -/
theorem filter?_built (calls : List Call) :
    (built calls).filter? =
      (calls.filterMap Call.condition?).getLast?.filter fun t => !Text.isBlankText t := by
  rw [built_eq, filter?, ofGiven]
  cases calls.filterMap Call.condition? with
  | nil => cases calls.filterMap Call.binding? <;> rfl
  | cons t conditions => rfl

/-- What a column gives to a query. -/
def gathered (c : Column) : Gathered :=
  ⟨c.selects, c.joins, c.filter?.toList, c.bindings⟩

end Column

/-! ### What is in a query -/

/-- The column of a wanted field is a part of the query. -/
theorem Fields.column_mem_parts {fs : Fields} {r : Request} {name : String} {c : Column}
    (h : fs.get? name = some (.column c)) (hr : r.contains name = true) :
    .column c ∈ fs.parts r := by
  induction fs with
  | empty => cases h
  | column n c' rest ih =>
    rw [get?] at h
    rw [parts]
    split at h
    · next hn =>
      cases h
      subst hn
      rw [if_pos hr]
      exact List.mem_cons_self
    · split
      · exact List.mem_cons_of_mem _ (ih h)
      · exact ih h
  | relation n link table target rest _ ih =>
    rw [get?] at h
    rw [parts]
    split at h
    · cases h
    · split
      · exact List.mem_cons_of_mem _ (ih h)
      · exact ih h

/-- A condition with a text is a conjunct of the clause. -/
theorem Select.exists_clause {s : Select} {t : String} (h : Predicate.ofText t ∈ s.conditions)
    (ht : Text.isBlankText t = false) :
    ∃ parts, s.query.text = s.head ++ " WHERE " ++ " AND ".intercalate parts ∧
      "(" ++ t ++ ")" ∈ parts := by
  have hsql : (Predicate.ofText t).sql? = some t := by
    rw [Predicate.sql?, Predicate.ofText, Option.filter_some, ht]
    rfl
  have hmem : "(" ++ t ++ ")" ∈ conjuncts s.conditions :=
    List.mem_filterMap.2 ⟨_, h, by rw [hsql]; rfl⟩
  have htext : hasText s.conditions = true := by
    rw [← Bool.not_eq_false, ← conjuncts_eq_nil_iff]
    exact List.ne_nil_of_mem hmem
  refine ⟨conjuncts s.conditions, ?_, hmem⟩
  show s.head ++ (joinPredicates s.conditions false).text = _
  rw [text_joinPredicates_of_hasText htext, String.append_assoc]
  rfl

open Column

/-- Nothing is lost when every condition that is not blank is the last one. -/
theorem Select.Assembles.carries {s : Select} {table : String} {given : List Gathered}
    {calls : List Call} (h : s.Assembles table given) (hpart : (built calls).gathered ∈ given)
    (hlast : ∀ t, .filter t ∈ calls → Text.isBlankText t = false →
      (calls.filterMap Call.condition?).getLast? = some t) :
    s.Carries table calls := by
  obtain ⟨selects, joins, hselects, hjoins, hhead⟩ := h.head
  obtain ⟨filters, carried, hfilters, hconditions, -⟩ := h.conditions
  have hmem (t : String) (ht : .filter t ∈ calls) (hb : Text.isBlankText t = false) :
      Predicate.ofText t ∈ s.conditions := by
    have hfilter : (built calls).filter? = some t := by
      rw [filter?_built, hlast t ht hb, Option.filter_some, hb]
      rfl
    rw [hconditions]
    refine List.mem_append_left _ (List.mem_map_of_mem ((hfilters.mem t).2 ?_))
    exact List.mem_flatMap.2 ⟨_, hpart, by simp [gathered, hfilter]⟩
  refine ⟨⟨selects, joins, fun x hx => ?_, fun x hx => ?_, hhead⟩, hmem,
    fun t ht hb => Select.exists_clause (hmem t ht hb) hb⟩
  · refine (hselects.mem x).2 (List.mem_flatMap.2 ⟨_, hpart, ?_⟩)
    rw [gathered, built_eq]
    exact List.mem_filterMap.2 ⟨_, hx, rfl⟩
  · refine (hjoins.mem x).2 (List.mem_flatMap.2 ⟨_, hpart, ?_⟩)
    rw [gathered, built_eq]
    exact List.mem_filterMap.2 ⟨_, hx, rfl⟩

/-- A model with the column that calls build, besides its numbers. -/
def numberedWith (calls : List Call) : Model where
  table := "article a"
  fields := .column "field" (built calls) (.column "id" (ofSelect "a.id") .empty)

/-- The column can be selected from the model, whatever is in it. -/
theorem exists_select_numberedWith (calls : List Call) :
    ∃ s, ((numberedWith calls).select { names := some ["field", "id"] }).result = .ok s ∧
      s.Assembles "article a" [(built calls).gathered, (ofSelect "a.id").gathered] := by
  let r := Request.ofNames ["field", "id"]
  have hgiven : (numberedWith calls).given r =
      .ok [(built calls).gathered, (ofSelect "a.id").gathered] := rfl
  have hresolve : ({ names := some ["field", "id"] } : Wanted).resolve (numberedWith calls).table =
      .ok r := rfl
  -- the second part binds nothing, so it agrees with the first one
  have hagree : (built calls).gathered.Agree (ofSelect "a.id").gathered :=
    fun n x y _ hy => nomatch hy
  obtain ⟨s, hs⟩ : ∃ s, ((numberedWith calls).compile r).result = .ok s :=
    exists_compile_iff.2 ⟨_, hgiven, List.pairwise_pair.2 hagree, by simp [gathered, ofSelect]⟩
  obtain ⟨given, hgiven', hassembles⟩ := compile_assembles hs
  obtain rfl := Except.ok.inj (hgiven.symm.trans hgiven')
  exact ⟨s, (select_eq_ok_iff hresolve).2 ⟨rfl, hs⟩, hassembles⟩

/-- **Of several conditions the last one counts.** Nothing that calls give to a column is lost
exactly when every condition that is not blank is the last one. -/
theorem keepsRestrictions_iff (calls : List Call) :
    KeepsRestrictions calls ↔ ∀ t, .filter t ∈ calls → Text.isBlankText t = false →
      (calls.filterMap Call.condition?).getLast? = some t := by
  constructor
  · intro h t ht hb
    obtain ⟨s, hs, hassembles⟩ := exists_select_numberedWith calls
    have hmem := (h.carried (numberedWith calls) _ _ "field" s rfl rfl rfl hs).conditions t ht hb
    obtain ⟨filters, carried, hfilters, hconditions, -⟩ := hassembles.conditions
    rw [hconditions] at hmem
    -- a condition with a text is not the one that carries bindings
    have hfilter : t ∈ filters := by
      rcases List.mem_append.1 hmem with hmem | hmem
      · obtain ⟨u, hu, hut⟩ := List.mem_map.1 hmem
        cases hut
        exact hu
      · obtain ⟨b, -, hb⟩ := List.mem_map.1 hmem
        cases hb
    have hgathered : t ∈ (built calls).filter?.toList := by
      simpa [gathered, ofSelect, filter?] using (hfilters.mem t).1 hfilter
    rw [Option.mem_toList, filter?_built] at hgathered
    exact (Option.filter_eq_some_iff.1 hgathered).1
  · intro hlast
    refine ⟨fun m w r name s hm hw hr hs => ?_, fun others h => built_congr h⟩
    obtain ⟨given, hgiven, hassembles⟩ := compile_assembles ((select_eq_ok_iff hw).1 hs).2
    exact hassembles.carries
      (mem_mapM_of_mem hgiven (Fields.column_mem_parts hm hr) rfl) hlast

/-- The calls for the numbers of articles that are to be neither hidden nor deleted. -/
def visibleCalls : List Call :=
  [.select "a.id", .filter "a.hidden = false", .filter "a.deleted = false"]

/-- Articles with such numbers only. -/
def visible : Model where
  table := "article a"
  fields := .column "id" (built visibleCalls) .empty

/-- The first of the two conditions is lost, so that hidden articles are found. -/
theorem not_keepsRestrictions_visibleCalls :
    (visible.select { names := some ["id"] }).result =
        .ok ⟨"SELECT a.id FROM article a", [.ofText "a.deleted = false"]⟩ ∧
      ¬KeepsRestrictions visibleCalls := by
  refine ⟨rfl, fun h => ?_⟩
  have hlost := (h.carried visible { names := some ["id"] } _ "id" _ rfl rfl rfl rfl).conditions
    "a.hidden = false" (by simp [visibleCalls]) (by decide)
  have htext := congrArg Predicate.text (List.mem_singleton.1 hlost)
  revert htext
  decide

end SqlAssembly
