import SqlAssembly.Clause.Containing
import SqlAssembly.Proofs.Text.Scrubbing
import Mathlib

/-!
# What a search finds

A search is matched without regard to case: the case of pattern and subject is folded first, in any
way that leaves the marks of patterns alone.

* `Sql.CaseFolding.ILike` is this matching.
* `containing?_finds`: a search finds what contains the scrubbed text, and there is a search unless
  there is no column or nothing to search for.
-/

namespace SqlAssembly

namespace Sql

/-- A way to fold the case of characters. It leaves the marks of patterns alone: none of them
changes, and no other character becomes one. -/
structure CaseFolding where
  fold : Char → Char
  /-- A mark comes from itself alone. -/
  fold_eq_mark_iff : ∀ c, ∀ m ∈ patternMarks, fold c = m ↔ c = m

namespace CaseFolding

/-- The text in the case that counts. -/
def text (f : CaseFolding) (s : String) : List Char :=
  s.toList.map f.fold

/-- The pattern matches the subject without regard to case. -/
def ILike (f : CaseFolding) (pattern subject : String) : Prop :=
  Like (f.text pattern) (f.text subject)

/-- The subject contains the term without regard to case. -/
def Contains (f : CaseFolding) (subject term : String) : Prop :=
  f.text term <:+: f.text subject

variable (f : CaseFolding)

theorem fold_mark {m : Char} (hm : m ∈ patternMarks) : f.fold m = m :=
  (f.fold_eq_mark_iff m m hm).2 rfl

/-- To fold an escaped character is to escape the folded one. -/
theorem map_escapePatternChar (c : Char) :
    (escapePatternChar c).map f.fold = escapePatternChar (f.fold c) := by
  have hmark : f.fold c = '_' ↔ c = '_' := f.fold_eq_mark_iff c '_' (by decide)
  rw [escapePatternChar, escapePatternChar]
  by_cases h : c = '_'
  · rw [if_pos h, if_pos (hmark.2 h), List.map_cons, f.fold_mark (by decide), List.map_singleton,
      f.fold_mark (by decide)]
  · rw [if_neg h, if_neg (mt hmark.1 h), List.map_singleton]

theorem text_containsPattern (term : String) :
    f.text (containsPattern term) =
      '%' :: ((f.text term).flatMap escapePatternChar ++ ['%']) := by
  have hany : f.fold '%' = '%' := f.fold_mark (by decide)
  simp [text, containsPattern, List.map_flatMap, List.flatMap_map, f.map_escapePatternChar, hany]

/-- The pattern of a scrubbed text matches what contains it. -/
theorem iLike_containsPattern_scrub (text subject : String) :
    f.ILike (containsPattern (Text.scrub text)) subject ↔
      f.Contains subject (Text.scrub text) := by
  rw [ILike, text_containsPattern]
  refine like_contains_iff fun c hc => ?_
  obtain ⟨d, hd, rfl⟩ := List.mem_map.1 hc
  -- both marks are special symbols, so scrubbing removed them
  have hspecial := Text.isSpecial_of_mem_scrub hd
  constructor
  · rw [Ne, f.fold_eq_mark_iff d '%' (by decide)]
    rintro rfl
    cases hspecial
  · rw [Ne, f.fold_eq_mark_iff d '\\' (by decide)]
    rintro rfl
    cases hspecial

end CaseFolding

end Sql

/-- There is a search unless there is no column or nothing to search for. -/
theorem containing?_eq_none_iff {columns : List String} {text : String} :
    Predicate.containing? columns text = none ↔
      columns = [] ∨ ∀ c ∈ text.toList, Text.isSpecial c = true ∨ Text.isBlank c = true := by
  rw [← Text.scrub_eq_empty_iff, Predicate.containing?]
  dsimp only
  split
  · next h => simpa [or_comm] using h
  · next h => simpa [or_comm] using h

/-- **A search finds what contains its text.** There is a search unless there is no column or
nothing but special symbols and blanks to search for. It binds one pattern, which matches a subject,
whatever the folding of case, exactly when the subject contains the scrubbed text. -/
theorem containing?_finds (f : Sql.CaseFolding) (columns : List String) (text : String) :
    (Predicate.containing? columns text = none ↔
      columns = [] ∨ ∀ c ∈ text.toList, Text.isSpecial c = true ∨ Text.isBlank c = true) ∧
    ∀ p, Predicate.containing? columns text = some p →
      ∃ pattern, p.bindings.entries = [(searchName, .text pattern)] ∧
        ∀ subject, f.ILike pattern subject ↔ f.Contains subject (Text.scrub text) := by
  refine ⟨containing?_eq_none_iff, fun p h => ?_⟩
  obtain ⟨-, -, rfl⟩ := containing?_eq_some_iff.1 h
  exact ⟨_, rfl, f.iLike_containsPattern_scrub text⟩

/-- The folding of the letters of ASCII. -/
def asciiFolding : Sql.CaseFolding where
  fold := Char.toLower
  fold_eq_mark_iff c m hm := by
    -- no mark is a letter, and a letter becomes a letter
    have hmark : Sql.patternMarks.all (fun m => !m.isAlpha) = true := by decide
    have hm : m.isAlpha = false := by simpa using List.all_eq_true.1 hmark m hm
    by_cases hc : c.isAlpha = true
    · refine iff_of_false ?_ ?_
      · rintro rfl
        rw [Char.isAlpha_toLower_eq_isAlpha, hc] at hm
        cases hm
      · rintro rfl
        rw [hc] at hm
        cases hm
    · have hupper : ¬c.isUpper = true := fun h => hc (by rw [Char.isAlpha, h, Bool.true_or])
      rw [Char.toLower_eq_of_not_isUpper hupper]

/-- The underscore stands for itself, and the case of letters does not count. -/
theorem containing?_finds_snakeCase :
    ∃ p pattern, Predicate.containing? ["a.slug"] " Snake_case%" = some p ∧
      p.bindings.entries = [(searchName, .text pattern)] ∧
      asciiFolding.ILike pattern "my_SNAKE_CASE" ∧ ¬asciiFolding.ILike pattern "snake-case" := by
  have hfinds := containing?_finds asciiFolding ["a.slug"] " Snake_case%"
  obtain ⟨p, hp⟩ : ∃ p, Predicate.containing? ["a.slug"] " Snake_case%" = some p := ⟨_, rfl⟩
  obtain ⟨pattern, hbound, hmatch⟩ := hfinds.2 p hp
  refine ⟨p, pattern, hp, hbound, (hmatch _).2 ?_, mt (hmatch _).1 ?_⟩
  · unfold Sql.CaseFolding.Contains
    decide +kernel
  · unfold Sql.CaseFolding.Contains
    decide +kernel

end SqlAssembly
