import Mathlib.Data.List.Basic
import SqlAssembly.Listing.RowCount

/-!
# First lines

What the first line of a text is, and of several texts.

* `FirstLine` has one case for each way in which a line ends.
* `Opening` says which line several texts start with: empty texts in front do not count.
* `firstLineOf?_eq_some_iff`: that line is the one found.
-/

namespace SqlAssembly.Text

/-- A text has a first line. -/
inductive FirstLine : List Char → List Char → Prop
  | whole {line : List Char} (hne : line ≠ []) (hline : '\n' ∉ line) : FirstLine line line
  | lineFeed {line : List Char} (rest : List Char) (hline : '\n' ∉ line)
      (hlast : line.getLast? ≠ some '\r') : FirstLine (line ++ '\n' :: rest) line
  | carriageReturn {line : List Char} (rest : List Char) (hline : '\n' ∉ line) :
      FirstLine (line ++ '\r' :: '\n' :: rest) line

/-- The first line of the first text that is not empty. -/
def Opening (texts : List String) (line : String) : Prop :=
  ∃ empties text rest, texts = empties ++ text :: rest ∧ (∀ s ∈ empties, s = "") ∧
    FirstLine text.toList line.toList

theorem splitLine_of_not_mem {l : List Char} (h : '\n' ∉ l) : splitLine l = (l, []) := by
  induction l with
  | nil => rfl
  | cons c l ih =>
    rw [List.mem_cons, not_or] at h
    rw [splitLine, if_neg (Ne.symm h.1), ih h.2]

theorem splitLine_append {line : List Char} (h : '\n' ∉ line) (rest : List Char) :
    splitLine (line ++ '\n' :: rest) = (line, rest) := by
  induction line with
  | nil => rfl
  | cons c line ih =>
    rw [List.mem_cons, not_or] at h
    rw [List.cons_append, splitLine, if_neg (Ne.symm h.1), ih h.2]

theorem dropCarriageReturn_concat (line : List Char) :
    dropCarriageReturn (line ++ ['\r']) = line := by
  rw [dropCarriageReturn, if_pos List.getLast?_concat, List.dropLast_concat]

theorem dropCarriageReturn_of_ne {line : List Char} (h : line.getLast? ≠ some '\r') :
    dropCarriageReturn line = line :=
  if_neg h

theorem firstLine?_of_ne {s : String} (h : s.toList ≠ []) :
    firstLine? s = some (String.ofList (if s.toList.contains '\n' then
      dropCarriageReturn (splitLine s.toList).1 else (splitLine s.toList).1)) := by
  rw [firstLine?]
  split
  · next hnil => exact (h hnil).elim
  · rfl

theorem FirstLine.firstLine?_eq {s line : String} (h : FirstLine s.toList line.toList) :
    firstLine? s = some line := by
  generalize hl : s.toList = l at h
  generalize hm : line.toList = m at h
  have hline : line = String.ofList m := by rw [← hm, String.ofList_toList]
  cases h with
  | whole hne hfree =>
    rw [firstLine?_of_ne (by rwa [hl]), hl, splitLine_of_not_mem hfree, hline]
    simp [hfree]
  | lineFeed rest hfree hlast =>
    rw [firstLine?_of_ne (by simp [hl]), hl, splitLine_append hfree,
      dropCarriageReturn_of_ne hlast, hline]
    simp
  | carriageReturn rest hfree =>
    have hsplit := @splitLine_append (m ++ ['\r']) (by simp [hfree]) rest
    rw [List.append_assoc, List.singleton_append] at hsplit
    rw [firstLine?_of_ne (by simp [hl]), hl, hsplit, dropCarriageReturn_concat, hline]
    simp

/-- Every text but the empty one has a first line. -/
theorem exists_firstLine {l : List Char} (h : l ≠ []) : ∃ line, FirstLine l line := by
  by_cases hmem : '\n' ∈ l
  · obtain ⟨front, rest, rfl, hfront⟩ := List.eq_append_cons_of_mem hmem
    by_cases hlast : front.getLast? = some '\r'
    · obtain ⟨line, rfl⟩ := List.getLast?_eq_some_iff.1 hlast
      have hline : '\n' ∉ line := fun hc => hfront (List.mem_append_left _ hc)
      have hfirst := FirstLine.carriageReturn rest hline
      exact ⟨line, by simpa using hfirst⟩
    · exact ⟨front, .lineFeed rest hfront hlast⟩
  · exact ⟨l, .whole h hmem⟩

theorem firstLine?_eq_none_iff {s : String} : firstLine? s = none ↔ s = "" := by
  constructor
  · intro h
    by_contra hs
    rw [firstLine?_of_ne (by simpa using hs)] at h
    cases h
  · rintro rfl
    rfl

theorem firstLine?_eq_some_iff {s line : String} :
    firstLine? s = some line ↔ FirstLine s.toList line.toList := by
  refine ⟨fun h => ?_, FirstLine.firstLine?_eq⟩
  have hne : s.toList ≠ [] := by
    intro hnil
    rw [firstLine?_eq_none_iff.2 (by simpa using hnil)] at h
    cases h
  obtain ⟨l, hl⟩ := exists_firstLine hne
  rw [← String.toList_ofList (l := l)] at hl
  rw [hl.firstLine?_eq] at h
  rwa [← Option.some.inj h]

/-- The line that is found is the one that the texts open with. -/
theorem firstLineOf?_eq_some_iff {texts : List String} {line : String} :
    firstLineOf? texts = some line ↔ Opening texts line := by
  simp only [firstLineOf?, Opening, List.findSome?_eq_some_iff, firstLine?_eq_some_iff,
    firstLine?_eq_none_iff]
  constructor
  · rintro ⟨empties, text, rest, h, hline, hempty⟩
    exact ⟨empties, text, rest, h, hempty, hline⟩
  · rintro ⟨empties, text, rest, h, hempty, hline⟩
    exact ⟨empties, text, rest, h, hline, hempty⟩

/-- No line is found exactly when all texts are empty. -/
theorem firstLineOf?_eq_none_iff {texts : List String} :
    firstLineOf? texts = none ↔ ∀ s ∈ texts, s = "" := by
  simp only [firstLineOf?, List.findSome?_eq_none_iff, firstLine?_eq_none_iff]

end SqlAssembly.Text
