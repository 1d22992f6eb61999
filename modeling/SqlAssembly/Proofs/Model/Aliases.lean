import SqlAssembly.Model.Select
import SqlAssembly.Proofs.Sql.Identifiers

/-!
# Aliases of relations

The expression for a relation names its rows within, and itself, after the field.

* `Link.ReadsAliases`: read from left to right, the expression has exactly these two names, the
  inner one twice, and the texts around them.
* `Link.LexesAliases`: the scanner finds them, too, and no lexeme goes from one part into another.
* `Link.aliases_denote`: both hold whatever the name of the field.
-/

namespace SqlAssembly

open Sql

namespace Link

/-- The text that the expression starts with. -/
def opening (l : Link) : String :=
  "(SELECT " ++ jsonFunction l.cardinality ++ "("

theorem expression_eq (l : Link) (name query : String) :
    l.expression name query =
      l.opening ++ resultName (name ++ rowSuffix l.cardinality) ++ ") FROM (" ++ query ++
        ") AS " ++ resultName (name ++ rowSuffix l.cardinality) ++ ") AS " ++ resultName name :=
  rfl

/-- The identifiers of the expression are its aliases: the inner one, for the rows, and the outer
one, for the field. -/
def ReadsAliases (l : Link) (name query : String) : Prop :=
  ∃ inner outer : Identifier,
    inner.name? = some (name ++ rowSuffix l.cardinality) ∧ (name ≠ "" → outer.name? = some name) ∧
      Consists
        [.text l.opening, .identifier inner, .text (") FROM (" ++ query ++ ") AS "),
          .identifier inner, .text ") AS ", .identifier outer]
        (l.expression name query).toList

/-- The lexemes of the expression are those of its parts, and an alias is one identifier. -/
def LexesAliases (l : Link) (name query : String) : Prop :=
  ∃ inner outer : List Lexeme,
    IsIdentifier inner ∧ IsIdentifier outer ∧
      lexemes none (l.expression name query).toList =
        l.opening.toList.map .other ++ inner ++ ") FROM (".toList.map .other ++
          lexemes none query.toList ++ ") AS ".toList.map .other ++ inner ++
          ") AS ".toList.map .other ++ outer

theorem append_rowSuffix_ne_empty (name : String) (c : Cardinality) :
    name ++ rowSuffix c ≠ "" := by
  cases c <;> simp [rowSuffix]

theorem readsAliases (l : Link) (name query : String) : l.ReadsAliases name query := by
  refine ⟨.ofName (name ++ rowSuffix l.cardinality), .ofName name,
    Identifier.name?_ofName (append_rowSuffix_ne_empty name l.cardinality),
    Identifier.name?_ofName, ?_⟩
  -- behind each alias there is a parenthesis, or nothing
  have houter := Consists.nil.resultName name endsIdentifier_nil
  have hsecond := (houter.text ") AS ").resultName (name ++ rowSuffix l.cardinality)
    (endsIdentifier_cons (c := ')') (by decide) (by decide) _)
  have hfirst := (hsecond.text (") FROM (" ++ query ++ ") AS ")).resultName
    (name ++ rowSuffix l.cardinality) (by
      rw [String.toList_append, String.toList_append]
      exact endsIdentifier_cons (c := ')') (by decide) (by decide) _)
  have := hfirst.text l.opening
  simpa only [expression_eq, String.toList_append, List.append_assoc, List.append_nil] using this

theorem glue_opening (l : Link) : Glue l.opening := by
  rw [opening]
  cases l.cardinality <;> decide

theorem lexesAliases (l : Link) (name : String) {query : String} (h : Closed query) :
    l.LexesAliases name query := by
  refine ⟨_, _, isIdentifier_lexemes_resultName (name ++ rowSuffix l.cardinality),
    isIdentifier_lexemes_resultName name, ?_⟩
  have hinner := closed_resultName (name ++ rowSuffix l.cardinality)
  have hempty : Closed "" := closed_plain (by decide)
  have hfirst := hempty.glue l.glue_opening hinner
  have hquery := hfirst.glue (g := ") FROM (") (by decide) h
  have hsecond := hquery.glue (g := ") AS ") (by decide) hinner
  have := lexemes_glue hsecond (g := ") AS ") (by decide) (resultName name)
  rw [lexemes_glue hquery (by decide), lexemes_glue hfirst (by decide),
    lexemes_glue hempty l.glue_opening] at this
  simpa only [expression_eq, String.empty_append, String.append_assoc, List.append_assoc,
    String.toList_empty, lexemes, List.nil_append] using this

/-- An alias denotes the name of its field and nothing else: as an identifier it is read whole and
stands for the name, different names have different aliases, and in the expression for a relation
both aliases are single identifiers, whatever the name. -/
theorem aliases_denote :
    (∀ name, name ≠ "" →
      ∃ i, identifier? (resultName name).toList = some (i, []) ∧ i.name? = some name) ∧
    Function.Injective resultName ∧
    ∀ (l : Link) (name query : String),
      l.ReadsAliases name query ∧ (Closed query → l.LexesAliases name query) := by
  refine ⟨fun name hname => ?_, resultName_injective, fun l name query =>
    ⟨l.readsAliases name query, l.lexesAliases name⟩⟩
  have h := identifier?_resultName name endsIdentifier_nil
  rw [List.append_nil] at h
  exact ⟨_, h, Identifier.name?_ofName hname⟩

theorem aliases_denote_quote_comment :
    (∃ i, identifier? (resultName "a\"b /*").toList = some (i, []) ∧ i.name? = some "a\"b /*") ∧
      resultName "listPrice" ≠ resultName "listprice" ∧
      (ofText .many "b.a = a.id").LexesAliases "a\"b /*" "SELECT b.id FROM b" := by
  refine ⟨aliases_denote.1 _ (by decide), fun h => ?_,
    (aliases_denote.2.2 _ _ _).2 (closed_plain (by decide))⟩
  exact absurd (aliases_denote.2.1 h) (by decide)

end Link

end SqlAssembly
