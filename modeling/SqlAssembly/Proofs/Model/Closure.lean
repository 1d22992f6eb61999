import SqlAssembly.Proofs.Model.Conflict
import SqlAssembly.Proofs.Sql.Composition

/-!
# Every placeholder of a selection is bound

A model is `WellBound` when each of its texts is closed and has no placeholders but those that are
bound in the same place. The query of a selection is then made of the texts of the emitted fields,
and it has a statement: `select_statement`.

The walk keeps `Gathered.Made`, which says what the gathered texts are made of.
-/

namespace SqlAssembly

/-- The text is closed, and the bindings have data for all its placeholders. -/
def Bindings.Bind (b : Bindings) (text : String) : Prop :=
  Sql.Closed text ∧ ∀ n ∈ Sql.placeholders text, b.contains n = true

instance (b : Bindings) (text : String) : Decidable (b.Bind text) :=
  inferInstanceAs (Decidable (Sql.Closed text ∧ ∀ n ∈ Sql.placeholders text, b.contains n = true))

/-- The texts of a column. -/
def Column.texts (c : Column) : List String :=
  c.selects ++ c.joins ++ c.filter?.toList

/-- The text is closed and has no placeholder. -/
def Sql.Bare (text : String) : Prop :=
  Sql.Closed text ∧ Sql.placeholders text = []

instance : DecidablePred Sql.Bare := fun text =>
  inferInstanceAs (Decidable (Sql.Closed text ∧ Sql.placeholders text = []))

namespace Fields

/-- The texts of every column and of every link, at any depth, are bound in the same place. -/
def WellBound : Fields → Prop
  | empty => True
  | column _ c rest => (∀ text ∈ c.texts, c.bindings.Bind text) ∧ rest.WellBound
  | relation _ link table target rest =>
    (∀ text ∈ link.condition.sql?, link.condition.bindings.Bind text) ∧ Sql.Bare table ∧
      target.WellBound ∧ rest.WellBound

/-- It can be decided whether fields are bound. -/
instance decidableWellBound : (fs : Fields) → Decidable fs.WellBound
  | empty => .isTrue trivial
  | column _ c rest =>
    have := rest.decidableWellBound
    inferInstanceAs (Decidable ((∀ text ∈ c.texts, c.bindings.Bind text) ∧ rest.WellBound))
  | relation _ link table target rest =>
    have := target.decidableWellBound
    have := rest.decidableWellBound
    inferInstanceAs (Decidable ((∀ text ∈ link.condition.sql?, link.condition.bindings.Bind text) ∧
      Sql.Bare table ∧ target.WellBound ∧ rest.WellBound))

/-- The texts of the fields, at any depth, and the tables that the relations lead to. -/
def fragments : Fields → List String
  | empty => []
  | column _ c rest => c.texts ++ rest.fragments
  | relation _ link table target rest =>
    table :: (target.fragments ++ link.condition.sql?.toList) ++ rest.fragments

end Fields

/-- The tables are bare, and all texts are bound in their places. -/
structure Model.WellBound (m : Model) : Prop where
  table : Sql.Bare m.table
  fields : m.fields.WellBound

/-- The texts that a request makes a query of. -/
def Model.fragments (m : Model) (r : Request) : List String :=
  m.table :: (m.fields.emitted r).fragments

theorem Fields.WellBound.emitted {fs : Fields} (h : fs.WellBound) (r : Request) :
    (fs.emitted r).WellBound := by
  induction fs generalizing r with
  | empty => trivial
  | column name c rest ih =>
    rw [Fields.emitted]
    split
    · exact ⟨h.1, ih h.2 r⟩
    · exact ih h.2 r
  | relation name link table target rest iht ih =>
    obtain ⟨hlink, htable, htarget, hrest⟩ := h
    rw [Fields.emitted]
    split
    · exact ⟨hlink, htable, iht htarget _, ih hrest r⟩
    · exact ih hrest r

theorem Bindings.Bind.mem_keys {b : Bindings} {text n : String} (h : b.Bind text)
    (hn : n ∈ Sql.placeholders text) : n ∈ b.keys :=
  Assoc.mem_keys_iff.2 (h.2 n hn)

/-- What a fragment needs is contributed. -/
theorem Fields.WellBound.mem_contributions {fs : Fields} (h : fs.WellBound) {f n : String}
    (hf : f ∈ fs.fragments) (hn : n ∈ Sql.placeholders f) :
    n ∈ fs.contributions.map Prod.fst := by
  induction fs with
  | empty => cases hf
  | column name c rest ih =>
    rw [Fields.contributions, List.map_append, List.mem_append]
    rcases List.mem_append.1 hf with hf | hf
    · exact .inl ((h.1 f hf).mem_keys hn)
    · exact .inr (ih h.2 hf)
  | relation name link table target rest iht ih =>
    obtain ⟨hlink, htable, htarget, hrest⟩ := h
    rw [Fields.contributions, List.map_append, List.map_append, List.mem_append, List.mem_append]
    rcases List.mem_append.1 hf with hf | hf
    · rcases List.mem_cons.1 hf with rfl | hf
      · rw [htable.2] at hn
        cases hn
      · rcases List.mem_append.1 hf with hf | hf
        · exact .inl (.inr (iht htarget hf))
        · exact .inl (.inl ((hlink f (Option.mem_toList.1 hf)).mem_keys hn))
    · exact .inr (ih hrest hf)

/-! ### The texts of a query -/

/-- The texts that were gathered. -/
def Gathered.texts (g : Gathered) : List String :=
  g.selects ++ g.joins ++ g.filters

/-- The gathered texts are made of the fragments, and no condition is blank. -/
structure Gathered.Made (g : Gathered) (fs : List String) : Prop where
  texts : Sql.MadeOf g.texts fs
  filters : ∀ t ∈ g.filters, Text.isBlankText t = false

open Sql

theorem Gathered.head_madeOf {g : Gathered} (h : ∀ t ∈ g.texts, Closed t) {table : String}
    (ht : Closed table) : MadeOf [g.head table] (g.selects ++ table :: g.joins) := by
  have hselects : MadeOf [",".intercalate g.selects.eraseDups] g.selects :=
    MadeOf.intercalate_eraseDups (by decide) fun t ht => h t (by simp [Gathered.texts, ht])
  have hjoins : MadeOf [" ".intercalate g.joins.eraseDups] g.joins :=
    MadeOf.intercalate_eraseDups (by decide) fun t ht => h t (by simp [Gathered.texts, ht])
  have hfrom : MadeOf ["SELECT " ++ ",".intercalate g.selects.eraseDups ++ " FROM " ++ table]
      (g.selects ++ [table]) := by
    have hs : MadeOf ["SELECT " ++ ",".intercalate g.selects.eraseDups] g.selects :=
      (MadeOf.plain (s := "SELECT") (by decide)).glue (g := " ") (by decide) hselects
    exact hs.glue (by decide) (MadeOf.refl (by simpa using ht))
  rw [Gathered.head]
  split
  · next hj =>
    rw [List.isEmpty_iff.1 hj, String.append_empty]
    exact hfrom
  · rw [← String.append_assoc, List.append_cons]
    exact hfrom.glue (by decide) hjoins

theorem madeOf_conjunct {text : String} (h : Closed text) : MadeOf ["(" ++ text ++ ")"] [text] := by
  have htext : MadeOf [text] [text] := MadeOf.refl (by simpa using h)
  -- a bracket is glue between a text and nothing
  have hopen := (MadeOf.plain (s := "") (by decide)).glue (g := "(") (by decide) htext
  have := hopen.glue (g := ")") (by decide) (MadeOf.plain (s := "") (by decide))
  simpa using this

theorem madeOf_conjuncts {ps : List Predicate} (h : ∀ t ∈ ps.filterMap Predicate.sql?, Closed t) :
    MadeOf (conjuncts ps) (ps.filterMap Predicate.sql?) := by
  rw [conjuncts_eq_map]
  generalize ps.filterMap Predicate.sql? = texts at h
  induction texts with
  | nil => exact MadeOf.refl nofun
  | cons t texts ih =>
    obtain ⟨ht, htexts⟩ := List.forall_mem_cons.1 h
    exact (madeOf_conjunct ht).append (ih htexts)

/-- A query is made of its head and the texts of its conditions. -/
theorem ofParts_madeOf {head : String} {fs : List String} (h : MadeOf [head] fs)
    {ps : List Predicate} (hp : ∀ t ∈ ps.filterMap Predicate.sql?, Closed t) :
    MadeOf [(NamedQuery.ofParts head ps).text] (fs ++ ps.filterMap Predicate.sql?) := by
  have hps := madeOf_conjuncts hp
  have hall : MadeOf [" AND ".intercalate (conjuncts ps)] (ps.filterMap Predicate.sql?) :=
    (MadeOf.intercalate (by decide) hps.closed).trans hps
  show MadeOf [head ++ (joinPredicates ps false).text] _
  rw [joinPredicates]
  split
  · next hnil =>
    have : ps.filterMap Predicate.sql? = [] := by
      simpa [conjuncts, List.filterMap_eq_nil_iff] using hnil
    rwa [this, List.append_nil, String.append_empty]
  · rw [if_neg Bool.false_ne_true, ← String.append_assoc]
    exact h.glue (by decide) hall

/-- The expression for a relation is made of the query for its rows. -/
theorem Link.expression_madeOf (link : Link) (name : String) {query : String} {fs : List String}
    (h : MadeOf [query] fs) : MadeOf [link.expression name query] fs := by
  have hopen : MadeOf ["(SELECT " ++ Link.jsonFunction link.cardinality] [] := by
    cases link.cardinality <;> exact MadeOf.plain (by decide)
  have hinner := MadeOf.resultName (name ++ Link.rowSuffix link.cardinality)
  have := ((((hopen.glue (g := "(") (by decide) hinner).glue (g := ") FROM (") (by decide)
    h).glue (g := ") AS ") (by decide) hinner).glue (g := ") AS ") (by decide)
    (MadeOf.resultName name))
  simp only [List.nil_append, List.append_nil] at this
  exact this

/-- The texts of the conditions: the gathered ones, and that of the link. -/
theorem Gathered.mem_condition_texts {g : Gathered}
    (h : ∀ t ∈ g.filters, Text.isBlankText t = false) {t : String} :
    t ∈ g.conditions.filterMap Predicate.sql? ↔ t ∈ g.filters := by
  have hsql : ∀ f ∈ g.filters, (Predicate.ofText f).sql? = some f := fun f hf => by
    simp [Predicate.ofText, Predicate.sql?, h f hf]
  have hlast : (if g.bindings.isEmpty then [] else [Predicate.ofBindings g.bindings]).filterMap
      Predicate.sql? = [] := by
    split <;> rfl
  rw [Gathered.conditions, List.filterMap_append, hlast, List.append_nil, List.filterMap_map]
  simp only [List.mem_filterMap, List.mem_eraseDups, Function.comp]
  constructor
  · rintro ⟨f, hf, ht⟩
    rw [hsql f hf] at ht
    cases ht
    exact hf
  · intro ht
    exact ⟨t, ht, hsql t ht⟩

/-- The query of all that was gathered, with more conditions, is made of the fragments, the table
and the texts of these conditions. -/
theorem Gathered.Made.query {g : Gathered} {fs : List String} (h : g.Made fs) {table : String}
    (ht : Closed table) {ps : List Predicate} (hp : ∀ t ∈ ps.filterMap Predicate.sql?, Closed t) :
    MadeOf [(NamedQuery.ofParts (g.head table) (g.conditions ++ ps)).text]
      (table :: (fs ++ ps.filterMap Predicate.sql?)) := by
  have hcond : ∀ t, t ∈ (g.conditions ++ ps).filterMap Predicate.sql? ↔
      t ∈ g.filters ∨ t ∈ ps.filterMap Predicate.sql? := fun t => by
    rw [List.filterMap_append, List.mem_append, Gathered.mem_condition_texts h.filters]
  have hq : MadeOf [(NamedQuery.ofParts (g.head table) (g.conditions ++ ps)).text]
      ([table] ++ g.texts ++ ps.filterMap Predicate.sql?) := by
    refine (ofParts_madeOf (Gathered.head_madeOf h.texts.closed ht) fun t ht => ?_).congr
      (fun _ => Iff.rfl) fun t => ?_
    · rcases (hcond t).1 ht with ht | ht
      · exact h.texts.closed t (List.mem_append_right _ ht)
      · exact hp t ht
    · simp only [List.mem_append, List.mem_cons, hcond, Gathered.texts, List.not_mem_nil]
      tauto
  refine hq.trans (((MadeOf.refl ?_).append h.texts).append (MadeOf.refl hp))
  simpa using ht

/-! ### The walk -/

theorem Gathered.made_empty : Gathered.Made {} [] :=
  ⟨MadeOf.refl nofun, nofun⟩

theorem Column.not_isBlankText {c : Column} {t : String} (h : c.filter? = some t) :
    Text.isBlankText t = false := by
  obtain ⟨p, -, hp⟩ := Option.bind_eq_some_iff.1 h
  simpa using (Option.filter_eq_some_iff.1 hp).2

theorem Gathered.Made.addColumn {g g' : Gathered} {fs : List String} (h : g.Made fs) {c : Column}
    (hc : ∀ t ∈ c.texts, Closed t) (hg : g.addColumn c = .ok g') : g'.Made (fs ++ c.texts) := by
  obtain ⟨b, -, rfl⟩ := Gathered.addColumn_eq_ok_iff.1 hg
  constructor
  · refine (h.texts.append (MadeOf.refl hc)).congr (fun t => ?_) fun _ => Iff.rfl
    simp only [Gathered.texts, Column.texts, List.mem_append]
    tauto
  · intro t ht
    rcases List.mem_append.1 ht with ht | ht
    · exact h.filters t ht
    · exact Column.not_isBlankText (Option.mem_toList.1 ht)

theorem Gathered.Made.addRelation {g g' : Gathered} {fs gs : List String} (h : g.Made fs)
    {x : String} (hx : MadeOf [x] gs) {b : Bindings} (hg : g.addRelation x b = .ok g') :
    g'.Made (fs ++ gs) := by
  obtain ⟨b, -, rfl⟩ := Gathered.addRelation_eq_ok_iff.1 hg
  refine ⟨(h.texts.append hx).congr (fun t => ?_) fun _ => Iff.rfl, h.filters⟩
  simp only [Gathered.texts, List.mem_append]
  tauto

/-- A walk over bound fields gathers what is made of their fragments. -/
theorem Collects.made {g g' : Gathered} {fs : Fields} (h : Collects g fs g')
    (hfs : fs.WellBound) {l : List String} (hg : g.Made l) : g'.Made (l ++ fs.fragments) := by
  induction h generalizing l with
  | empty g => rwa [Fields.fragments, List.append_nil]
  | column hc _ ih =>
    rw [Fields.fragments, ← List.append_assoc]
    exact ih hfs.2 (hg.addColumn (fun t ht => (hfs.1 t ht).1) hc)
  | @relation name link table target rest _ inner _ _ s _ hs hr _ iht ih =>
    obtain ⟨hlink, htable, htarget, hrest⟩ := hfs
    obtain ⟨-, rfl⟩ := Gathered.finish_eq_ok_iff.1 hs
    -- the query for the rows is made of the fragments below and of the text of the link
    have hinner : inner.Made target.fragments := iht htarget Gathered.made_empty
    have hlast : [link.condition].filterMap Predicate.sql? = link.condition.sql?.toList := by
      cases h : link.condition.sql? <;> simp [h]
    have hquery : MadeOf [(link.query ⟨inner.head table, inner.conditions⟩).text]
        (table :: (target.fragments ++ link.condition.sql?.toList)) := by
      rw [← hlast]
      refine hinner.query htable.1 fun t ht => ?_
      rw [hlast, Option.mem_toList] at ht
      exact (hlink t ht).1
    rw [Fields.fragments, ← List.append_assoc]
    exact ih hrest (hg.addRelation (link.expression_madeOf name hquery) hr)

/-! ### Selections -/

/-- The query of a selection is made of the fragments. -/
theorem select_madeOf {m : Model} {w : Wanted} {r : Request} {s : Select} (hm : m.WellBound)
    (hr : w.resolve m.table = .ok r) (h : (m.select w).result = .ok s) :
    MadeOf [s.query.text] (m.fragments r) := by
  obtain ⟨-, h⟩ := (select_eq_ok_iff hr).1 h
  obtain ⟨g, hg, hs⟩ := compile_eq_ok_iff.1 h
  obtain ⟨-, rfl⟩ := Gathered.finish_eq_ok_iff.1 hs
  have hlast : ∀ t ∈ ([] : List Predicate).filterMap Predicate.sql?, Closed t := nofun
  have hmade := (hg.made (hm.fields.emitted r) Gathered.made_empty).query hm.table.1 hlast
  rwa [List.filterMap_nil, List.append_nil, List.append_nil] at hmade

/-- The query of a selection binds what a fragment needs. -/
theorem contains_of_mem_fragments {m : Model} {w : Wanted} {r : Request} {s : Select}
    (hm : m.WellBound) (hr : w.resolve m.table = .ok r) (h : (m.select w).result = .ok s)
    {f n : String} (hf : f ∈ m.fragments r) (hn : n ∈ placeholders f) :
    s.query.bindings.contains n = true := by
  rw [Assoc.contains, select_get?_bindings hr h, Assoc.lookup_isSome_iff]
  rcases List.mem_cons.1 hf with rfl | hf
  · rw [hm.table.2] at hn
    cases hn
  · exact (hm.fields.emitted r).mem_contributions hf hn

/-- **The query of a selection has a statement.** For a model whose texts are bound in their places,
no placeholder of the query is without a datum; the query is closed, its placeholders are exactly
those of the fragments that it is made of, and the lexemes of a fragment stand in it as they are. -/
theorem select_statement {m : Model} {w : Wanted} {r : Request} {s : Select} (hm : m.WellBound)
    (hr : w.resolve m.table = .ok r) (h : (m.select w).result = .ok s) :
    (∃ st, s.query.statement = .ok st) ∧ Closed s.query.text ∧
      (∀ n, n ∈ placeholders s.query.text ↔ ∃ f ∈ m.fragments r, n ∈ placeholders f) ∧
      ∀ f ∈ m.fragments r, lexemes none f.toList <:+: lexemes none s.query.text.toList := by
  obtain ⟨hclosed, hwhole, hnames⟩ := select_madeOf hm hr h
  simp only [List.mem_singleton, forall_eq, exists_eq_left] at hclosed hwhole hnames
  refine ⟨Bindings.exists_statement_iff.2 fun n hn => ?_, hclosed, fun n => ⟨hnames n, ?_⟩, hwhole⟩
  -- a placeholder of the query is one of a fragment, which is bound where the fragment stands
  · obtain ⟨f, hf, hn⟩ := hnames n hn
    exact contains_of_mem_fragments hm hr h hf hn
  · rintro ⟨f, hf, hn⟩
    rw [mem_placeholders_iff] at hn ⊢
    exact (hwhole f hf).subset hn

/-- Articles whose newest comment hangs under a name that looks like SQL. -/
def annotated : Model where
  table := "article a"
  fields := .relation "it's \"new\" -- :x"
    ((Link.ofText .one "c.article = a.id AND c.kind = :kind").bind "kind" (.text "note")) "comment c"
    (.column "body" ((Column.ofSelect "c.body || :mark").bind "mark" (.text "!")) .empty) .empty

/-- The body of the newest comment. -/
def newestBody : Wanted where
  names := some ["it's \"new\" -- :x"]
  related := Assoc.ofList [("it's \"new\" -- :x", ["body"])]

theorem select_statement_annotated :
    annotated.WellBound ∧ ∃ r s, newestBody.resolve annotated.table = .ok r ∧
      (annotated.select newestBody).result = .ok s ∧ ∃ st, s.query.statement = .ok st := by
  have hm : annotated.WellBound := ⟨by decide +kernel, by decide +kernel⟩
  obtain ⟨r, hr⟩ : ∃ r, newestBody.resolve annotated.table = .ok r := ⟨_, rfl⟩
  obtain ⟨s, hs⟩ : ∃ s, (annotated.select newestBody).result = .ok s := ⟨_, rfl⟩
  exact ⟨hm, r, s, hr, hs, (select_statement hm hr hs).1⟩

end SqlAssembly
