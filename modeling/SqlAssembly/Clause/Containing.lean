import SqlAssembly.Clause.Predicate
import SqlAssembly.Text.Scrub

/-!
# Free text search

`Predicate.containing?` is the condition that one of several columns contains a text. The text is
scrubbed first, which leaves the underscore as the only character with a meaning in a pattern; it is
escaped.

A pattern is matched character by character, which is `Sql.Like`: `%` stands for any text, `_` for
any character, a backslash makes the next character stand for itself, and any other character stands
for itself. `Sql.like_contains_iff`: the pattern with an escaped term between two `%` matches the
texts that contain the term.
-/

namespace SqlAssembly

/-- The placeholder of the search pattern. -/
def searchName : String := "search"

/-- A character of the term as it stands in a pattern. -/
def escapePatternChar (c : Char) : List Char :=
  if c = '_' then ['\\', '_'] else [c]

/-- The pattern of the texts that contain `term`. -/
def containsPattern (term : String) : String :=
  "%" ++ String.ofList (term.toList.flatMap escapePatternChar) ++ "%"

/-- The condition that one of the columns contains the text, or `none` if there is no column or
nothing is left of the text. -/
def Predicate.containing? (columns : List String) (text : String) : Option Predicate :=
  let term := Text.scrub text
  if term.isEmpty || columns.isEmpty then none
  else
    let tests := columns.map fun column => column ++ " ILIKE :" ++ searchName
    some ((ofText (" OR ".intercalate tests)).bind searchName (.text (containsPattern term)))

/-- A search stands for a predicate when there is a column to search in and something to search
for. -/
theorem containing?_eq_some_iff {columns : List String} {text : String} {p : Predicate} :
    Predicate.containing? columns text = some p ↔ columns ≠ [] ∧ Text.scrub text ≠ "" ∧
      p = (Predicate.ofText (" OR ".intercalate
        (columns.map fun column => column ++ " ILIKE :" ++ searchName))).bind searchName
          (.text (containsPattern (Text.scrub text))) := by
  rw [Predicate.containing?]
  dsimp only
  split
  · next h =>
    have : Text.scrub text = "" ∨ columns = [] := by simpa using h
    refine iff_of_false nofun ?_
    rintro ⟨hc, ht, -⟩
    exact this.elim ht hc
  · next h =>
    have : ¬(Text.scrub text = "" ∨ columns = []) := by simpa using h
    obtain ⟨ht, hc⟩ := not_or.1 this
    rw [Option.some.injEq, eq_comm]
    exact ⟨fun hp => ⟨hc, ht, hp⟩, fun hp => hp.2.2⟩

/-! ### Patterns -/

namespace Sql

/-- The characters with a meaning in a pattern. -/
def patternMarks : List Char := ['%', '_', '\\']

/-- The pattern matches the subject. -/
inductive Like : List Char → List Char → Prop
  | nil : Like [] []
  /-- `%` matches any text. -/
  | any {p x : List Char} (s : List Char) (h : Like p x) : Like ('%' :: p) (s ++ x)
  /-- `_` matches any character. -/
  | one {p x : List Char} (c : Char) (h : Like p x) : Like ('_' :: p) (c :: x)
  /-- A character behind a backslash matches itself. -/
  | escaped {p x : List Char} (c : Char) (h : Like p x) : Like ('\\' :: c :: p) (c :: x)
  /-- Any other character matches itself. -/
  | char {p x : List Char} {c : Char} (hc : c ∉ patternMarks) (h : Like p x) :
      Like (c :: p) (c :: x)

theorem like_nil_iff {x : List Char} : Like [] x ↔ x = [] := by
  constructor
  · rintro ⟨⟩
    rfl
  · rintro rfl
    exact .nil

theorem like_any_iff {p x : List Char} :
    Like ('%' :: p) x ↔ ∃ s y, x = s ++ y ∧ Like p y := by
  constructor
  · intro h
    cases h with
    | any s h => exact ⟨s, _, rfl, h⟩
    | char hc h => exact (hc (by decide)).elim
  · rintro ⟨s, y, rfl, h⟩
    exact .any s h

theorem like_escaped_iff {p x : List Char} {c : Char} :
    Like ('\\' :: c :: p) x ↔ ∃ y, x = c :: y ∧ Like p y := by
  constructor
  · intro h
    cases h with
    | escaped _ h => exact ⟨_, rfl, h⟩
    | char hc h => exact (hc (by decide)).elim
  · rintro ⟨y, rfl, h⟩
    exact .escaped c h

theorem like_char_iff {p x : List Char} {c : Char} (hc : c ∉ patternMarks) :
    Like (c :: p) x ↔ ∃ y, x = c :: y ∧ Like p y := by
  constructor
  · intro h
    cases h with
    | any => exact (hc (by decide)).elim
    | one => exact (hc (by decide)).elim
    | escaped => exact (hc (by decide)).elim
    | char _ h => exact ⟨_, rfl, h⟩
  · rintro ⟨y, rfl, h⟩
    exact .char hc h

/-- An escaped term matches itself. Of the marks it holds the underscore alone, which is escaped. -/
theorem like_term_append_iff {term p x : List Char} (ht : ∀ c ∈ term, c ≠ '%' ∧ c ≠ '\\') :
    Like (term.flatMap escapePatternChar ++ p) x ↔ ∃ y, x = term ++ y ∧ Like p y := by
  induction term generalizing x with
  | nil => simp
  | cons c term ih =>
    obtain ⟨hc, ht⟩ := List.forall_mem_cons.1 ht
    have hhead : Like (escapePatternChar c ++ (term.flatMap escapePatternChar ++ p)) x ↔
        ∃ y, x = c :: y ∧ Like (term.flatMap escapePatternChar ++ p) y := by
      rw [escapePatternChar]
      split
      · next h =>
        subst h
        exact like_escaped_iff
      · next h => exact like_char_iff (by simp [patternMarks, h, hc])
    rw [List.flatMap_cons, List.append_assoc, hhead]
    simp only [ih ht]
    constructor
    · rintro ⟨_, rfl, y, rfl, h⟩
      exact ⟨y, rfl, h⟩
    · rintro ⟨y, rfl, h⟩
      exact ⟨_, rfl, y, rfl, h⟩

/-- The pattern of a term between two `%` matches the texts that contain the term. -/
theorem like_contains_iff {term x : List Char} (ht : ∀ c ∈ term, c ≠ '%' ∧ c ≠ '\\') :
    Like ('%' :: (term.flatMap escapePatternChar ++ ['%'])) x ↔ term <:+: x := by
  simp only [like_any_iff, like_term_append_iff ht, like_nil_iff]
  constructor
  · rintro ⟨s, _, rfl, _, rfl, t, _, rfl, rfl⟩
    exact ⟨s, t, by simp⟩
  · rintro ⟨s, t, rfl⟩
    exact ⟨s, term ++ t, by simp, t, rfl, t, [], by simp, rfl⟩

end Sql

end SqlAssembly
