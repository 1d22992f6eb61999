import Mathlib
import SqlAssembly.Proofs.Sql.Composition
import SqlAssembly.Proofs.Text.Runs

/-!
# Identifiers

How a server reads an identifier off a text, and that it reads every result name back.

* `identifier?` takes the first identifier off a text, and `Identifier.name?` is the name it stands
  for: one without quotes is folded to lower case, a quoted one stands for its content with doubled
  quotes undone, and no identifier stands for the empty name.
* `identifier?_resultName`: the whole result name is one identifier, whatever follows that cannot
  continue it, and stands for the name it was made of.
* `isIdentifier_lexemes_resultName`: for the scanner, too, a result name is one thing.
* `Consists` is a text with identifiers in it, as it is read from left to right.

That a server cuts long names off, and that it has keywords, is left out.
-/

namespace SqlAssembly.Sql

/-- An identifier. -/
inductive Identifier where
  | bare (text : List Char)
  /-- Between quotes, by its content with doubled quotes undone. -/
  | quoted (content : List Char)
deriving DecidableEq, Repr

/-- The characters of the name that an identifier stands for. -/
def Identifier.characters : Identifier → List Char
  | bare text => text.map Char.toLower
  | quoted content => content

/-- The name that an identifier stands for. The empty name is refused. -/
def Identifier.name? (i : Identifier) : Option String :=
  if i.characters = [] then none else some (String.ofList i.characters)

/-- Whether a character starts an identifier without quotes. -/
def startsBare (c : Char) : Bool :=
  c.isAlpha || c == '_' || 128 ≤ c.toNat

/-- Whether a character continues an identifier without quotes. -/
def continuesBare (c : Char) : Bool :=
  startsBare c || c.isDigit || c == '$'

/-- The content up to the closing quote with doubled quotes undone, and what follows the quote. -/
def quotedContent? : List Char → Option (List Char × List Char)
  | [] => none
  | c :: rest =>
    if c = '"' then
      match rest with
      | '"' :: rest => (quotedContent? rest).map fun (content, rest) => ('"' :: content, rest)
      | _ => some ([], rest)
    else (quotedContent? rest).map fun (content, rest) => (c :: content, rest)

/-- The identifier that a text starts with, and what follows it. -/
def identifier? : List Char → Option (Identifier × List Char)
  | [] => none
  | c :: rest =>
    if c = '"' then (quotedContent? rest).map fun (content, rest) => (.quoted content, rest)
    else if startsBare c then
      some (.bare (c :: rest.takeWhile continuesBare), rest.dropWhile continuesBare)
    else none

/-- A text cannot continue an identifier, neither one without quotes nor a quoted one. -/
def EndsIdentifier (rest : List Char) : Prop :=
  ∀ c, rest.head? = some c → c ≠ '"' ∧ continuesBare c = false

/-! ### Reading a result name -/

theorem quotedContent?_cons {c : Char} (h : c ≠ '"') (l : List Char) :
    quotedContent? (c :: l) = (quotedContent? l).map fun (content, rest) => (c :: content, rest) := by
  simp only [quotedContent?.eq_def (c :: l), if_neg h]

theorem quotedContent?_double (l : List Char) :
    quotedContent? ('"' :: '"' :: l) =
      (quotedContent? l).map fun (content, rest) => ('"' :: content, rest) := by
  rw [quotedContent?, if_pos rfl]

theorem quotedContent?_close {rest : List Char} (h : EndsIdentifier rest) :
    quotedContent? ('"' :: rest) = some ([], rest) := by
  simp only [quotedContent?.eq_def ('"' :: rest), if_pos]
  split
  · exact absurd rfl (h _ rfl).1
  · rfl

/-- Doubling is undone, and only the last quote closes. -/
theorem quotedContent?_doubleQuoteChar (l : List Char) {rest : List Char}
    (h : EndsIdentifier rest) :
    quotedContent? (l.flatMap doubleQuoteChar ++ '"' :: rest) = some (l, rest) := by
  induction l with
  | nil => exact quotedContent?_close h
  | cons c l ih =>
    rw [List.flatMap_cons, doubleQuoteChar]
    split
    · next hc =>
      rw [List.append_assoc, List.cons_append, List.cons_append, List.nil_append,
        quotedContent?_double, ih, hc]
      rfl
    · next hc =>
      rw [List.append_assoc, List.cons_append, List.nil_append, quotedContent?_cons hc, ih]
      rfl

theorem startsBare_of_isPlainStart {c : Char} (h : isPlainStart c = true) :
    startsBare c = true := by
  simp only [isPlainStart, startsBare, Char.isAlpha, Bool.or_eq_true] at h ⊢
  tauto

theorem continuesBare_of_isPlainChar {c : Char} (h : isPlainChar c = true) :
    continuesBare c = true := by
  simp only [isPlainChar, continuesBare, startsBare, Char.isAlpha, Bool.or_eq_true] at h ⊢
  tauto

/-- A name that needs no quotes has nothing to fold. -/
theorem toLower_of_isPlainChar {c : Char} (h : isPlainChar c = true) : c.toLower = c := by
  simp only [isPlainChar, Char.isLower, Char.isDigit, Bool.or_eq_true, Bool.and_eq_true,
    beq_iff_eq, decide_eq_true_eq] at h
  rw [Char.toLower]
  split
  · next hup =>
    simp only [UInt32.le_iff_toNat_le, ge_iff_le] at h hup
    rcases h with (rfl | h) | h <;> simp at * <;> omega
  · rfl

/-- The identifier that a name is written as. -/
def Identifier.ofName (name : String) : Identifier :=
  if isPlainName name.toList then bare name.toList else quoted name.toList

theorem Identifier.characters_ofName (name : String) :
    (ofName name).characters = name.toList := by
  rw [ofName]
  split
  · next h =>
    rw [characters, List.map_congr_left fun c hc => ?_, List.map_id']
    exact toLower_of_isPlainChar (isPlainChar_of_isPlainName h c hc)
  · rfl

/-- An identifier stands for the name it was made of. -/
theorem Identifier.name?_ofName {name : String} (h : name ≠ "") :
    (ofName name).name? = some name := by
  rw [name?, characters_ofName, if_neg (by simpa using h), String.ofList_toList]

/-- The whole result name is one identifier, whatever comes behind it. -/
theorem identifier?_resultName (name : String) {rest : List Char} (h : EndsIdentifier rest) :
    identifier? ((resultName name).toList ++ rest) = some (.ofName name, rest) := by
  rw [resultName, Identifier.ofName]
  split
  · next hplain =>
    have hall := isPlainChar_of_isPlainName hplain
    generalize name.toList = l at hplain hall
    cases l with
    | nil => cases hplain
    | cons c l =>
      have hstart : isPlainStart c = true := (Bool.and_eq_true_iff.1 hplain).1
      have hc : c ≠ '"' := by
        rintro rfl
        cases hstart
      have hrun : Text.Run continuesBare l rest :=
        ⟨fun d hd => continuesBare_of_isPlainChar (hall d (List.mem_cons_of_mem c hd)),
          fun d hd => (h d hd).2⟩
      rw [List.cons_append, identifier?, if_neg hc, if_pos (startsBare_of_isPlainStart hstart),
        hrun.takeWhile_append, hrun.dropWhile_append]
  · rw [String.toList_ofList, List.cons_append, List.cons_append, List.append_assoc,
      List.singleton_append, identifier?, if_pos rfl, quotedContent?_doubleQuoteChar _ h]
    rfl

theorem endsIdentifier_nil : EndsIdentifier [] := nofun

theorem endsIdentifier_cons {c : Char} (hq : c ≠ '"') (hc : continuesBare c = false)
    (rest : List Char) : EndsIdentifier (c :: rest) := by
  rintro d ⟨⟩
  exact ⟨hq, hc⟩

/-- The name can be read back, so different names have different result names. -/
theorem characters_identifier?_resultName (name : String) :
    (identifier? (resultName name).toList).map (fun i => i.1.characters) = some name.toList := by
  have h := identifier?_resultName name endsIdentifier_nil
  rw [List.append_nil] at h
  rw [h, Option.map_some, Identifier.characters_ofName]

theorem resultName_injective : Function.Injective resultName := by
  intro a b h
  have ha := characters_identifier?_resultName a
  rw [h, characters_identifier?_resultName b, Option.some_inj] at ha
  exact (String.toList_injective ha).symm

/-! ### Lexemes of a result name -/

/-- The lexemes of one identifier: the characters of a name, or one region. -/
def IsIdentifier (xs : List Lexeme) : Prop :=
  (∃ name, IsName name ∧ xs = name.map .other) ∨ ∃ text, xs = [.region .identifier text true]

theorem nameStart_of_isPlainStart {c : Char} (h : isPlainStart c = true) : NameStart c := by
  simp only [isPlainStart, Char.isLower, Bool.or_eq_true, Bool.and_eq_true, beq_iff_eq,
    decide_eq_true_eq] at h
  rcases h with h | h
  · exact .inr (.inr h)
  · exact .inl h

theorem nameChar_of_isPlainChar {c : Char} (h : isPlainChar c = true) : NameChar c := by
  rw [isPlainChar, Bool.or_eq_true] at h
  rcases h with h | h
  · exact .inl (nameStart_of_isPlainStart h)
  · simp only [Char.isDigit, Bool.and_eq_true, decide_eq_true_eq] at h
    exact .inr h

theorem isName_of_isPlainName {l : List Char} (h : isPlainName l = true) : IsName l := by
  cases l with
  | nil => cases h
  | cons c l =>
    obtain ⟨hc, hl⟩ := Bool.and_eq_true_iff.1 h
    exact ⟨nameStart_of_isPlainStart hc,
      fun d hd => nameChar_of_isPlainChar (List.all_eq_true.1 hl d hd)⟩

/-- For the scanner a result name is one identifier. -/
theorem isIdentifier_lexemes_resultName (name : String) :
    IsIdentifier (lexemes none (resultName name).toList) := by
  by_cases hname : isPlainName name.toList = true
  · rw [resultName, if_pos hname, lexemes_plain (plain_of_isPlainName hname)]
    exact .inl ⟨name.toList, isName_of_isPlainName hname, rfl⟩
  · rcases lexemes_resultName name with h | h
    · -- a quoted name starts with a quote
      rw [resultName, if_neg hname] at h
      exact absurd (by decide) (h '"' (by simp))
    · exact .inr h

/-! ### Texts with identifiers -/

/-- A part of a text as a reader of identifiers meets it. -/
inductive Segment where
  | text (s : String)
  | identifier (i : Identifier)

/-- Read from left to right, the text consists of the segments: where an identifier stands among them,
the reader takes exactly this one. -/
inductive Consists : List Segment → List Char → Prop
  | nil : Consists [] []
  | text (s : String) {ps : List Segment} {l : List Char} (h : Consists ps l) :
      Consists (.text s :: ps) (s.toList ++ l)
  | identifier {i : Identifier} {ps : List Segment} {l rest : List Char}
      (hi : identifier? l = some (i, rest)) (h : Consists ps rest) :
      Consists (.identifier i :: ps) l

theorem Consists.resultName {ps : List Segment} {rest : List Char} (h : Consists ps rest)
    (name : String) (hr : EndsIdentifier rest) :
    Consists (.identifier (.ofName name) :: ps) ((resultName name).toList ++ rest) :=
  .identifier (identifier?_resultName name hr) h

end SqlAssembly.Sql
