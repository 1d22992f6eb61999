import SqlAssembly.Proofs.Listing.Filters
import SqlAssembly.Proofs.Text.Scrubbing

/-!
# The field that a caller orders by

The field to order by stands in the text of the query itself, and not among the data. Behind a
closed text, what scrubbing leaves of it is read as single characters.

* `Frame` is a statement with one text left open, and `Bindings.frame` is the frame that a sequence
  of lexemes has around single characters.
* `Listing.orderedBy` is a listing with the field that a caller gives.
* `orderedBy_inert`: the fields of a closed query fill the same frame.
-/

namespace SqlAssembly

open Sql

/-- A statement with one text left open. -/
structure Frame where
  before : String
  after : String
  data : List Datum

/-- The statement with the text filled in. -/
def Frame.fill (f : Frame) (text : String) : Statement :=
  ⟨f.before ++ text ++ f.after, f.data⟩

namespace Bindings

/-- The statement of two sequences of lexemes, with single characters left open between them. -/
def frame (b : Bindings) (before after : List Lexeme) : Except Fault Frame := do
  let names := (uses (before ++ after)).eraseDups
  let data ← names.mapM b.require
  return ⟨String.ofList (before.flatMap (numbered names)),
    String.ofList (after.flatMap (numbered names)), data⟩

/-- Single characters fill the frame of the lexemes around them. -/
theorem statement_eq_fill (b : Bindings) {before after : List Lexeme} {sql text : String}
    (h : lexemes none sql.toList = before ++ (text.toList.map .other ++ after)) :
    b.statement sql = (b.frame before after).map fun f => f.fill text := by
  have hnames : placeholders sql = uses (before ++ after) := by
    rw [placeholders_eq_uses, h]
    simp [uses, List.filterMap_map, Lexeme.name?]
  rw [statement, frame, hnames, h]
  simp only [List.flatMap_append, flatMap_numbered_other, String.ofList_append,
    String.ofList_toList]
  cases (uses (before ++ after)).eraseDups.mapM b.require with
  | error e => rfl
  | ok data =>
    simp only [Except.map, Frame.fill, String.append_assoc]
    rfl

/-- The datum at the place of a name is the datum of the name. -/
theorem getElem?_frame {b : Bindings} {before after : List Lexeme} {f : Frame}
    (h : b.frame before after = .ok f) {n : String} (hn : n ∈ uses (before ++ after)) :
    f.data[(uses (before ++ after)).eraseDups.idxOf n]? = b.get? n := by
  obtain ⟨data, hdata, h⟩ := bind_eq_ok_iff.1 h
  obtain rfl := pure_eq_ok_iff.1 h
  exact getElem?_idxOf (mapM_require_eq_ok_iff.1 hdata) (List.mem_eraseDups.2 hn)

end Bindings

/-! ### The field among the lexemes -/

/-- What is left after scrubbing is plain. -/
theorem Text.plain_scrub (s : String) : Plain (Text.scrub s) := by
  intro c hc hmem
  have hspecial : ['\'', '"', '$', ':', '-', '/'].all isSpecial = true := by decide
  have := List.all_eq_true.1 hspecial c hmem
  rw [isSpecial_of_mem_scrub hc] at this
  cases this

/-- A plain text with glue on both sides is read as single characters. -/
theorem Sql.lexemes_glue_plain {s g f : String} (hs : Closed s) (hg : Glue g) (hf : Plain f)
    (rest : String) :
    lexemes none (s ++ g ++ (f ++ " " ++ rest)).toList =
      (lexemes none s.toList ++ g.toList.map .other) ++
        (f.toList.map .other ++ (.other ' ' :: lexemes none rest.toList)) := by
  rw [lexemes_glue hs hg, lexemes_glue (closed_plain hf) (by decide), lexemes_plain hf,
    List.append_assoc]
  rfl

/-- The end of a query behind the field. -/
def Direction.pageEnd (d : Direction) : String :=
  d.sql ++ " OFFSET :" ++ offsetName ++ " LIMIT :" ++ perPageName

/-- The end has two placeholders. -/
theorem Direction.lexemes_pageEnd (d : Direction) :
    lexemes none d.pageEnd.toList = (d.sql ++ " OFFSET ").toList.map .other ++
      (.placeholder offsetName.toList :: (" LIMIT ".toList.map .other ++
        [.placeholder perPageName.toList])) := by
  cases d <;> decide +kernel

/-- The end with the numbers of its placeholders. -/
theorem Direction.numbered_pageEnd (d : Direction) (names : List String) :
    String.ofList ((.other ' ' :: lexemes none d.pageEnd.toList).flatMap (numbered names)) =
      " " ++ d.sql ++ " OFFSET $" ++ toString (names.idxOf offsetName + 1) ++ " LIMIT $" ++
        toString (names.idxOf perPageName + 1) := by
  rw [lexemes_pageEnd, ← String.toList_inj]
  simp [flatMap_numbered_other, numbered, marker, Lexeme.text]

/-! ### The listing of a field -/

/-- What qualifies a column of the table. -/
def Paging.qualifier (p : Paging) : String :=
  match p.table with
  | some table => table ++ "."
  | none => ""

namespace Listing

/-- The listing ordered by the field that a caller gives. -/
def orderedBy (l : Listing) (field : String) : Listing :=
  { l with paging := { l.paging with
    request := some { l.paging.request.getD {} with orderBy := some field } } }

/-- The statement for the page. -/
def statement (l : Listing) : Except Fault Statement := do
  (← l.build).statement

/-- The text of the query in front of the field. -/
def fieldLead (l : Listing) (whole : NamedQuery) : String :=
  whole.text ++ " ORDER BY " ++ l.paging.qualifier

/-- The frame of the statement, with the field left open. -/
def fieldFrame (l : Listing) : Except Fault Frame := do
  let whole ← l.filtered
  let d ← l.paging.direction
  Bindings.frame (whole.bindings.merge l.paging.bindings)
    (lexemes none (l.fieldLead whole).toList) (.other ' ' :: lexemes none d.pageEnd.toList)

variable {l : Listing} {field : String}

theorem direction_orderedBy : (l.orderedBy field).paging.direction = l.paging.direction := by
  unfold orderedBy Paging.direction
  cases l.paging.request <;> rfl

theorem bindings_orderedBy : (l.orderedBy field).paging.bindings = l.paging.bindings := by
  unfold orderedBy Paging.bindings Paging.perPage Paging.offset
  cases l.paging.request <;> rfl

/-- The ordering is by the field, if anything is left of it. -/
theorem ordering?_orderedBy (ho : l.paging.ordering = none) (hf : Text.scrub field ≠ "")
    (d : Direction) : (l.orderedBy field).paging.ordering? d =
      some (l.paging.qualifier ++ Text.scrub field ++ " " ++ d.sql) := by
  have hfield : (l.orderedBy field).paging.orderField? = some (Text.scrub field) := by
    simp [orderedBy, Paging.orderField?, hf]
  have hordering : (l.orderedBy field).paging.ordering = none := ho
  rw [Paging.ordering?, hfield, hordering, Paging.qualifier]
  cases htable : l.paging.table with
  | none =>
    have : (l.orderedBy field).paging.table = none := htable
    simp [this]
  | some table =>
    have : (l.orderedBy field).paging.table = some table := htable
    simp [this]

/-- The query is that for the whole list, the field, and the end. -/
theorem build_orderedBy (ho : l.paging.ordering = none) (hf : Text.scrub field ≠ "") :
    (l.orderedBy field).build = (do
      let whole ← l.filtered
      let d ← l.paging.direction
      return ⟨l.fieldLead whole ++ (Text.scrub field ++ " " ++ d.pageEnd),
        whole.bindings.merge l.paging.bindings⟩) := by
  have hfiltered : (l.orderedBy field).filtered = l.filtered := rfl
  rw [build, hfiltered]
  refine bind_congr fun whole => ?_
  rw [Paging.tail, direction_orderedBy]
  cases l.paging.direction with
  | error e => rfl
  | ok d =>
    refine congrArg Except.ok ?_
    simp only [ordering?_orderedBy ho hf, bindings_orderedBy, fieldLead, Direction.pageEnd,
      String.append_assoc]

/-- In front of the field there is glue behind a closed text. -/
theorem exists_glue {whole : NamedQuery} (hw : Closed whole.text)
    (ht : ∀ table, l.paging.table = some table → Closed table) :
    ∃ s g, Closed s ∧ Glue g ∧ l.fieldLead whole = s ++ g := by
  unfold fieldLead Paging.qualifier
  cases htable : l.paging.table with
  | none => exact ⟨whole.text, " ORDER BY ", hw, by decide, String.append_empty⟩
  | some table =>
    refine ⟨whole.text ++ " ORDER BY " ++ table, ".", ?_, by decide, ?_⟩
    · exact hw.glue (by decide) (ht table htable)
    · simp only [String.append_assoc]

/-- The characters of the field stand single among the lexemes of the query. -/
theorem lexemes_field {whole : NamedQuery} (hw : Closed whole.text)
    (ht : ∀ table, l.paging.table = some table → Closed table) (field rest : String) :
    lexemes none (l.fieldLead whole ++ (Text.scrub field ++ " " ++ rest)).toList =
      lexemes none (l.fieldLead whole).toList ++
        ((Text.scrub field).toList.map .other ++ (.other ' ' :: lexemes none rest.toList)) := by
  obtain ⟨s, g, hs, hg, hlead⟩ := exists_glue hw ht
  have hglue : lexemes none (s ++ g).toList = lexemes none s.toList ++ g.toList.map .other := by
    simpa [lexemes] using lexemes_glue hs hg ""
  rw [hlead, hglue]
  exact lexemes_glue_plain hs hg (Text.plain_scrub field) rest

/-- The field fills the frame. -/
theorem statement_orderedBy (hw : ∀ whole, l.filtered = .ok whole → Closed whole.text)
    (ht : ∀ table, l.paging.table = some table → Closed table) (ho : l.paging.ordering = none)
    (hf : Text.scrub field ≠ "") :
    (l.orderedBy field).statement = l.fieldFrame.map fun f => f.fill (Text.scrub field) := by
  rw [statement, build_orderedBy ho hf, fieldFrame]
  cases hwhole : l.filtered with
  | error e => rfl
  | ok whole =>
    cases l.paging.direction with
    | error e => rfl
    | ok d => exact Bindings.statement_eq_fill _ (lexemes_field (hw whole hwhole) ht _ _)

/-- Behind the field stand the direction and the numbers of the two data of the page. -/
theorem of_fieldFrame {f : Frame} (h : l.fieldFrame = .ok f) :
    ∃ d i j, l.paging.direction = .ok d ∧
      f.after = " " ++ d.sql ++ " OFFSET $" ++ toString (i + 1) ++ " LIMIT $" ++
        toString (j + 1) ∧
      f.data[i]? = some (.int (Int64.ofNat l.paging.offset.toNat)) ∧
      f.data[j]? = some (.int (Int64.ofNat l.paging.perPage.toNat)) := by
  obtain ⟨whole, -, h⟩ := bind_eq_ok_iff.1 h
  obtain ⟨d, hd, h⟩ := bind_eq_ok_iff.1 h
  -- the names of the page stand in the end, and what the page binds wins
  have hpage : ∀ n ∈ pageNames, n ∈ uses (lexemes none (l.fieldLead whole).toList ++
      .other ' ' :: lexemes none d.pageEnd.toList) := by
    intro n hn
    rw [mem_uses_iff, d.lexemes_pageEnd]
    rcases List.mem_pair.1 hn with rfl | rfl <;> simp
  refine ⟨d, _, _, hd, ?_, (Bindings.getElem?_frame h (hpage offsetName (by decide))).trans ?_,
    (Bindings.getElem?_frame h (hpage perPageName (by decide))).trans ?_⟩
  · obtain ⟨data, -, h⟩ := bind_eq_ok_iff.1 h
    obtain rfl := pure_eq_ok_iff.1 h
    exact d.numbered_pageEnd _
  · rw [Assoc.get?_merge, Paging.get?_offset, Option.some_or]
  · rw [Assoc.get?_merge, Paging.get?_perPage, Option.some_or]

end Listing

/-- **The field that a caller orders by is inert.** Let the query for the whole list and the table
be closed, and no ordering be given as SQL text. Take all fields of which scrubbing leaves
something. Their statements fail in the same way, or they are one frame with the scrubbed fields
filled in, so they have the same data; behind the field stand the direction and the markers of the
page. In the query itself the field is a sequence of single characters, and the text around it has
the lexemes that it has alone. -/
theorem orderedBy_inert {l : Listing}
    (hw : ∀ whole, l.filtered = .ok whole → Closed whole.text)
    (ht : ∀ table, l.paging.table = some table → Closed table) (ho : l.paging.ordering = none) :
    (∃ outcome : Except Fault Frame,
      (∀ field, Text.scrub field ≠ "" →
        (l.orderedBy field).statement = outcome.map fun f => f.fill (Text.scrub field)) ∧
      ∀ f, outcome = .ok f → ∃ d i j, l.paging.direction = .ok d ∧
        f.after = " " ++ d.sql ++ " OFFSET $" ++ toString (i + 1) ++ " LIMIT $" ++
          toString (j + 1) ∧
        f.data[i]? = some (.int (Int64.ofNat l.paging.offset.toNat)) ∧
        f.data[j]? = some (.int (Int64.ofNat l.paging.perPage.toNat))) ∧
      ∀ field q, Text.scrub field ≠ "" → (l.orderedBy field).build = .ok q →
        ∃ whole d, l.filtered = .ok whole ∧ l.paging.direction = .ok d ∧
          lexemes none q.text.toList = lexemes none (l.fieldLead whole).toList ++
            ((Text.scrub field).toList.map .other ++
              (.other ' ' :: lexemes none d.pageEnd.toList)) := by
  refine ⟨⟨l.fieldFrame, fun field hf => Listing.statement_orderedBy hw ht ho hf,
    fun f hf => Listing.of_fieldFrame hf⟩, fun field q hf hq => ?_⟩
  rw [Listing.build_orderedBy ho hf] at hq
  obtain ⟨whole, hwhole, hq⟩ := bind_eq_ok_iff.1 hq
  obtain ⟨d, hd, hq⟩ := bind_eq_ok_iff.1 hq
  obtain rfl := pure_eq_ok_iff.1 hq
  exact ⟨whole, d, hwhole, hd, Listing.lexemes_field (hw whole hwhole) ht field _⟩

/-- Articles of one kind, from the last one on. -/
def articlesOfKind : Listing where
  text := "SELECT * FROM article a WHERE a.kind = :kind"
  conditions := [Predicate.ofBindings (Assoc.ofList [("kind", .text "note")])]
  paging := { request := some { order := some "desc" }, table := some "a" }

theorem orderedBy_inert_articlesOfKind :
    ∃ f : Frame, (articlesOfKind.orderedBy "title").statement = .ok (f.fill "title") ∧
      (articlesOfKind.orderedBy "title; --").statement = .ok (f.fill "title") ∧
      (articlesOfKind.orderedBy "E'x' OR $$ :kind /*").statement = .ok (f.fill "Ex OR  kind") := by
  have hw : ∀ whole, articlesOfKind.filtered = .ok whole → Closed whole.text := by
    intro whole hwhole
    obtain rfl := pure_eq_ok_iff.1 hwhole
    decide +kernel
  have ht : ∀ table, articlesOfKind.paging.table = some table → Closed table := by
    intro table htable
    obtain rfl := Option.some.inj htable
    decide +kernel
  obtain ⟨⟨outcome, hfill, -⟩, -⟩ := orderedBy_inert hw ht rfl
  have hok : (articlesOfKind.orderedBy "title").statement.toBool = true := by decide +kernel
  have h₁ := hfill "title" (by decide +kernel)
  have h₂ := hfill "title; --" (by decide +kernel)
  have h₃ := hfill "E'x' OR $$ :kind /*" (by decide +kernel)
  cases outcome with
  | error e =>
    rw [h₁] at hok
    cases hok
  | ok f =>
    have hscrub : Text.scrub "title" = "title" ∧ Text.scrub "title; --" = "title" ∧
        Text.scrub "E'x' OR $$ :kind /*" = "Ex OR  kind" := by decide +kernel
    rw [hscrub.1] at h₁
    rw [hscrub.2.1] at h₂
    rw [hscrub.2.2] at h₃
    exact ⟨f, h₁, h₂, h₃⟩

example : (articlesOfKind.orderedBy "title; --").statement.toOption.map Statement.text =
    some "SELECT * FROM article a WHERE a.kind = $1 ORDER BY a.title DESC OFFSET $2 LIMIT $3" := by
  decide +kernel

end SqlAssembly
