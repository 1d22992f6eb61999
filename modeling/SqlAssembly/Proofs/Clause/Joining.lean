import SqlAssembly.Clause.Predicate
import SqlAssembly.Proofs.Sql.Nesting

/-!
# Clauses read back

A clause has each condition in parentheses and `AND` between them.

* `SelfContained` holds of texts that are closed and whose parentheses match.
* `Nest.run_intercalate`: such texts, put into a clause, are read as that many groups.
* `joinPredicates_readBack`: hence a clause tells the conditions it was made of.
-/

namespace SqlAssembly

open Sql

/-- The text of a clause, told from the texts that go into it. -/
theorem text_joinPredicates (ps : List Predicate) (continues : Bool) :
    (joinPredicates ps continues).text =
      if ps.filterMap Predicate.sql? = [] then ""
      else (if continues then " AND " else " WHERE ") ++
        " AND ".intercalate ((ps.filterMap Predicate.sql?).map fun s => "(" ++ s ++ ")") := by
  rw [joinPredicates, conjuncts_eq_map]
  cases ps.filterMap Predicate.sql? <;> rfl

/-- A clause is empty exactly when nothing goes into it. -/
theorem text_joinPredicates_eq_empty_iff {ps : List Predicate} {continues : Bool} :
    (joinPredicates ps continues).text = "" ↔ ps.filterMap Predicate.sql? = [] := by
  rw [text_joinPredicates]
  split
  · next h => simp [h]
  · next h => cases continues <;> simp [h]

/-- The texts are closed, and their parentheses match. -/
def SelfContained (texts : List String) : Prop :=
  ∀ s ∈ texts, Closed s ∧ Balanced (lexemes none s.toList)

instance : DecidablePred SelfContained := fun texts =>
  inferInstanceAs (Decidable (∀ s ∈ texts, Closed s ∧ Balanced (lexemes none s.toList)))

/-- The pieces of a clause: the word in front, and the conditions with `AND` between them. -/
def clausePieces (continues : Bool) (texts : List String) : List Piece :=
  if texts = [] then []
  else .outer (if continues then " AND " else " WHERE ") ::
    (texts.map Piece.group).intersperse (.outer " AND ")

/-! ### Groups -/

theorem closed_paren {s : String} (hs : Closed s) : Closed ("(" ++ s ++ ")") := by
  have hopen : Closed ("" ++ "(" ++ s) := (closed_plain (by decide)).glue (by decide) hs
  have hclose : Closed ("" ++ "(" ++ s ++ ")" ++ "") :=
    hopen.glue (by decide) (closed_plain (by decide))
  simpa using hclose

theorem lexemes_paren {s : String} (hs : Closed s) :
    lexemes none ("(" ++ s ++ ")").toList =
      .other '(' :: (lexemes none s.toList ++ [.other ')']) := by
  have hnil : Closed "" := closed_plain (by decide)
  have hopen : lexemes none ("" ++ "(" ++ s).toList = .other '(' :: lexemes none s.toList := by
    rw [lexemes_glue hnil (by decide)]
    simp [lexemes]
  have hclose := lexemes_glue (hnil.glue (g := "(") (by decide) hs) (g := ")") (by decide) ""
  rw [hopen] at hclose
  simpa [lexemes] using hclose

/-- A closed text whose parentheses match is, in parentheses, one group. -/
theorem Sql.Nest.run_paren (pieces : List Piece) (current : List Char) {s : String}
    (hs : Closed s) (hbalanced : Balanced (lexemes none s.toList)) :
    Nest.run ⟨pieces, current, 0⟩ (lexemes none ("(" ++ s ++ ")").toList) =
      some ⟨Nest.outside ⟨pieces, current, 0⟩ ++ [.group s], [], 0⟩ := by
  rw [lexemes_paren hs, Nest.run_group pieces current hbalanced, flatMap_text_lexemes,
    String.ofList_toList]

/-- Texts in parentheses, with `AND` between them, are that many groups. -/
theorem Sql.Nest.run_intercalate (pieces : List Piece) (current : List Char) {texts : List String}
    (hne : texts ≠ []) (h : SelfContained texts) :
    Nest.run ⟨pieces, current, 0⟩
        (lexemes none (" AND ".intercalate (texts.map fun s => "(" ++ s ++ ")")).toList) =
      some ⟨Nest.outside ⟨pieces, current, 0⟩ ++
        (texts.map Piece.group).intersperse (.outer " AND "), [], 0⟩ := by
  induction texts generalizing pieces current with
  | nil => exact (hne rfl).elim
  | cons s texts ih =>
    obtain ⟨⟨hs, hbalanced⟩, htexts⟩ := List.forall_mem_cons.1 h
    have hgroup := Nest.run_paren pieces current hs hbalanced
    cases texts with
    | nil => simpa using hgroup
    | cons t texts =>
      have htail := ih (Nest.outside ⟨pieces, current, 0⟩ ++ [.group s]) " AND ".toList (by simp)
        htexts
      rw [List.map_cons] at htail
      rw [List.map_cons, List.map_cons, String.intercalate_cons_cons,
        lexemes_glue (closed_paren hs) (by decide), Nest.run_append, hgroup, Option.bind_some,
        Nest.run_append, Nest.run_outer _ _ (by decide), Option.bind_some, List.nil_append, htail]
      simp [Nest.outside]

/-- The pieces of a clause of closed texts whose parentheses match. -/
theorem pieces?_joinPredicates {ps : List Predicate} (continues : Bool)
    (h : SelfContained (ps.filterMap Predicate.sql?)) :
    pieces? (joinPredicates ps continues).text =
      some (clausePieces continues (ps.filterMap Predicate.sql?)) := by
  rw [text_joinPredicates, clausePieces]
  generalize ps.filterMap Predicate.sql? = texts at h
  split
  · simp [pieces?, lexemes, Nest.run, Nest.outside]
  · next hne =>
    generalize hword : (if continues then " AND " else " WHERE ") = word
    have hglue : Glue word ∧ '(' ∉ word.toList ∧ ')' ∉ word.toList ∧ word.toList ≠ [] := by
      rw [← hword]
      cases continues <;> decide
    obtain ⟨hglue, ho, hc, hword⟩ := hglue
    have hlex := lexemes_glue (closed_plain (s := "") (by decide)) hglue
      (" AND ".intercalate (texts.map fun s => "(" ++ s ++ ")"))
    rw [String.empty_append] at hlex
    rw [pieces?, hlex, String.toList_empty, lexemes, List.nil_append, Nest.run_append,
      Nest.run_outer _ _ ⟨ho, hc⟩, Option.bind_some, List.nil_append,
      Nest.run_intercalate _ _ hne h]
    simp [Nest.outside, hword]

/-- The contents of the groups are the texts. -/
theorem filterMap_content?_clausePieces (continues : Bool) (texts : List String) :
    (clausePieces continues texts).filterMap Piece.content? = texts := by
  have hgroups : ((texts.map Piece.group).intersperse (.outer " AND ")).filterMap
      Piece.content? = texts := by
    induction texts with
    | nil => rfl
    | cons s texts ih =>
      cases texts with
      | nil => rfl
      | cons t texts =>
        rw [List.map_cons] at ih
        rw [List.map_cons, List.map_cons, List.intersperse_cons_cons,
          List.filterMap_cons_some (f := Piece.content?) rfl,
          List.filterMap_cons_none (f := Piece.content?) rfl, ih]
  rw [clausePieces]
  split
  · next h => exact h.symm
  · exact hgroups

/-! ### Reading back -/

/-- A clause of closed texts whose parentheses match is read back as its word and one group for each
text, with `AND` between them. It is empty exactly when there is no text, and no other texts of this
kind make the same clause. -/
theorem joinPredicates_readBack (ps : List Predicate) (continues : Bool)
    (h : SelfContained (ps.filterMap Predicate.sql?)) :
    pieces? (joinPredicates ps continues).text =
        some (clausePieces continues (ps.filterMap Predicate.sql?)) ∧
      ((joinPredicates ps continues).text = "" ↔ ps.filterMap Predicate.sql? = []) ∧
      ∀ qs continued, SelfContained (qs.filterMap Predicate.sql?) →
        (joinPredicates qs continued).text = (joinPredicates ps continues).text →
        qs.filterMap Predicate.sql? = ps.filterMap Predicate.sql? := by
  refine ⟨pieces?_joinPredicates continues h, text_joinPredicates_eq_empty_iff, ?_⟩
  intro qs continued hqs heq
  have hpieces : some (clausePieces continued (qs.filterMap Predicate.sql?)) =
      some (clausePieces continues (ps.filterMap Predicate.sql?)) := by
    rw [← pieces?_joinPredicates continued hqs, heq, pieces?_joinPredicates continues h]
  have hcontents := congrArg (List.filterMap Piece.content?) (Option.some.inj hpieces)
  rwa [filterMap_content?_clausePieces, filterMap_content?_clausePieces] at hcontents

/-- Three conditions, of which one has parentheses within a literal and one within a comment, next
to a blank one and one that only carries bindings. -/
theorem joinPredicates_readBack_quotedParens :
    let ps : List Predicate := [
      .ofText "title = ') AND (' OR (id = :id)",
      .ofText "  ",
      .ofBindings ∅,
      .ofText "kind IN ('a', 'b') /* ) OR ( */",
      .ofText "body ~ $re$(($re$"]
    let texts := [
      "title = ') AND (' OR (id = :id)",
      "kind IN ('a', 'b') /* ) OR ( */",
      "body ~ $re$(($re$"]
    ps.filterMap Predicate.sql? = texts ∧
      pieces? (joinPredicates ps false).text =
        some [.outer " WHERE ", .group "title = ') AND (' OR (id = :id)", .outer " AND ",
          .group "kind IN ('a', 'b') /* ) OR ( */", .outer " AND ", .group "body ~ $re$(($re$"] ∧
      (texts.map Predicate.ofText).filterMap Predicate.sql? = texts := by
  intro ps texts
  have hps : SelfContained (ps.filterMap Predicate.sql?) := by decide +kernel
  have hqs : SelfContained ((texts.map Predicate.ofText).filterMap Predicate.sql?) := by
    decide +kernel
  have htexts : ps.filterMap Predicate.sql? = texts := by decide +kernel
  obtain ⟨hpieces, -, hunique⟩ := joinPredicates_readBack ps false hps
  refine ⟨htexts, ?_, ?_⟩
  · rw [hpieces, htexts]
    rfl
  · rw [hunique _ false hqs (by decide +kernel), htexts]

end SqlAssembly
