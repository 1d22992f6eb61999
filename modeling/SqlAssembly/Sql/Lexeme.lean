/-!
# Lexemes of an SQL text

An SQL text is a sequence of lexemes: regions whose content is not looked at (literals, quoted
identifiers, comments, dollar quotes), casts, named placeholders, and single other characters.

* `Lexeme.next?` takes the first lexeme off a text. It looks back one character, since an `E` or a
  dollar sign within a name opens no region.
* `lexemes` is the whole sequence; its texts put together give the text back.
* `Closed` holds of a text that does not end inside a region.

A region that is never closed runs to the end of the text.
-/

namespace SqlAssembly.Sql

/-- Whether a character can start a name. -/
def isNameStart (c : Char) : Bool :=
  c == '_' || c.isAlpha

/-- Whether a character can stand in a name after the first one. -/
def isNameChar (c : Char) : Bool :=
  c == '_' || c.isAlphanum

/-- Whether a character that follows `prev` continues a name. -/
def continuesName (prev : Option Char) : Bool :=
  prev.any fun c => isNameChar c || c == '$'

/-- The regions whose content is not looked at. -/
inductive Region where
  | literal
  | identifier
  /-- A literal with backslash escapes, after an `E`. -/
  | escapeLiteral
  | lineComment
  /-- A comment between `/*` and `*/`, which may hold further ones. -/
  | blockComment
  /-- A literal between two equal tags of dollar signs. -/
  | dollarQuote
deriving DecidableEq, Repr

/-- A lexeme. -/
inductive Lexeme where
  /-- A region with its delimiters, and whether its end was found. -/
  | region (kind : Region) (text : List Char) (closed : Bool)
  | cast
  /-- A placeholder, by the name after its colon. -/
  | placeholder (name : List Char)
  | other (c : Char)
deriving DecidableEq, Repr

namespace Lexeme

/-- The characters of a lexeme. -/
def text : Lexeme → List Char
  | region _ text _ => text
  | cast => [':', ':']
  | placeholder name => ':' :: name
  | other c => [c]

/-- Whether the lexeme is no region without an end. -/
def isClosed : Lexeme → Bool
  | region _ _ closed => closed
  | _ => true

/-- The name of a placeholder. -/
def name? : Lexeme → Option (List Char)
  | placeholder name => some name
  | _ => none

end Lexeme

/-- The part of a text up to some end, what follows it, and whether the end was found. -/
structure Span where
  /-- The characters up to the end, the end included. -/
  text : List Char
  rest : List Char
  closed : Bool
deriving DecidableEq, Repr

namespace Span

/-- The span of nothing, without an end. -/
def unclosed : Span := ⟨[], [], false⟩

/-- The span with further characters in front. -/
def push (front : List Char) (s : Span) : Span :=
  { s with text := front ++ s.text }

@[simp] theorem push_push (f g : List Char) (s : Span) : (s.push g).push f = s.push (f ++ g) := by
  simp [push]

@[simp] theorem push_nil (s : Span) : s.push [] = s := rfl

/-- Up to the closing quote; a doubled quote stands for itself. -/
def untilQuote (q : Char) : List Char → Span
  | [] => unclosed
  | [c] => ⟨[c], [], c == q⟩
  | c :: d :: rest =>
    if c = q then
      if d = q then (untilQuote q rest).push [c, d] else ⟨[c], d :: rest, true⟩
    else (untilQuote q (d :: rest)).push [c]

/-- Up to the closing quote of a literal with escapes: a backslash takes the next character along,
and a doubled quote stands for itself. -/
def untilEscapedQuote : List Char → Span
  | [] => unclosed
  | [c] => ⟨[c], [], c == '\''⟩
  | c :: d :: rest =>
    if c = '\\' then (untilEscapedQuote rest).push [c, d]
    else if c = '\'' then
      if d = '\'' then (untilEscapedQuote rest).push [c, d] else ⟨[c], d :: rest, true⟩
    else (untilEscapedQuote (d :: rest)).push [c]

/-- Up to the line feed, which is not part of the span. -/
def untilLineFeed : List Char → Span
  | [] => unclosed
  | c :: rest => if c = '\n' then ⟨[], c :: rest, true⟩ else (untilLineFeed rest).push [c]

/-- Up to the end of a comment when `depth` comments are open. The number is kept in 32 bits and
wraps around. -/
def untilCommentEnd (depth : Int32) : List Char → Span
  | [] => unclosed
  | [c] => ⟨[c], [], false⟩
  | c :: d :: rest =>
    if c = '/' ∧ d = '*' then (untilCommentEnd (depth + 1) rest).push [c, d]
    else if c = '*' ∧ d = '/' then
      if depth - 1 = 0 then ⟨[c, d], rest, true⟩
      else (untilCommentEnd (depth - 1) rest).push [c, d]
    else (untilCommentEnd depth (d :: rest)).push [c]

/-- Up to the first occurrence of a tag, which is part of the span. -/
def untilTag (tag : List Char) : List Char → Span
  | [] => unclosed
  | c :: rest =>
    if tag.isPrefixOf (c :: rest) then ⟨tag, (c :: rest).drop tag.length, true⟩
    else (untilTag tag rest).push [c]

/-- A span loses no character. -/
def Covers (s : Span) (l : List Char) : Prop :=
  s.text ++ s.rest = l

theorem Covers.push {s : Span} {l : List Char} (h : s.Covers l) (front : List Char) :
    (s.push front).Covers (front ++ l) := by
  simp only [Covers, Span.push] at *
  rw [List.append_assoc, h]

theorem covers_untilQuote (q : Char) (l : List Char) : (untilQuote q l).Covers l := by
  fun_induction untilQuote q l with
  | case1 => rfl
  | case2 => rfl
  | case3 _ ih => exact ih.push [_, _]
  | case4 => rfl
  | case5 c d rest _ ih => exact ih.push [c]

theorem covers_untilEscapedQuote (l : List Char) : (untilEscapedQuote l).Covers l := by
  fun_induction untilEscapedQuote l with
  | case1 => rfl
  | case2 => rfl
  | case3 _ _ ih => exact ih.push [_, _]
  | case4 _ _ ih => exact ih.push [_, _]
  | case5 => rfl
  | case6 c d rest _ _ ih => exact ih.push [c]

theorem covers_untilLineFeed (l : List Char) : (untilLineFeed l).Covers l := by
  fun_induction untilLineFeed l with
  | case1 => rfl
  | case2 => rfl
  | case3 c rest _ ih => exact ih.push [c]

theorem covers_untilCommentEnd (depth : Int32) (l : List Char) :
    (untilCommentEnd depth l).Covers l := by
  fun_induction untilCommentEnd depth l with
  | case1 => rfl
  | case2 => rfl
  | case3 depth c d rest _ ih => exact ih.push [c, d]
  | case4 => rfl
  | case5 depth c d rest _ _ _ ih => exact ih.push [c, d]
  | case6 depth c d rest _ _ ih => exact ih.push [c]

theorem covers_untilTag (tag l : List Char) : (untilTag tag l).Covers l := by
  fun_induction untilTag tag l with
  | case1 => rfl
  | case2 c rest h =>
    obtain ⟨t, ht⟩ := List.isPrefixOf_iff_prefix.1 h
    simp only [Covers, ← ht, List.drop_left]
  | case3 c rest _ ih => exact ih.push [c]

end Span

/-- The tag that a dollar sign opens, given what follows the sign, and what follows the tag. The tag
is empty or a name, and a dollar sign ends it. -/
def dollarTag? (l : List Char) : Option (List Char × List Char) :=
  match l with
  | [] => none
  | c :: _ =>
    if isNameStart c || c == '$' then
      match l.dropWhile isNameChar with
      | '$' :: rest => some ('$' :: l.takeWhile isNameChar ++ ['$'], rest)
      | _ => none
    else none

theorem dollarTag?_covers {l tag rest : List Char} (h : dollarTag? l = some (tag, rest)) :
    tag ++ rest = '$' :: l := by
  unfold dollarTag? at h
  split at h
  · cases h
  · next c tail =>
    split at h
    · split at h
      · next after hd =>
        cases h
        have := List.takeWhile_append_dropWhile (p := isNameChar) (l := c :: tail)
        rw [hd] at this
        simpa using this
      · cases h
    · cases h

/-- A region that starts with `opener`, and the rest. -/
def Span.region (kind : Region) (opener : List Char) (s : Span) : Lexeme × List Char :=
  (.region kind (opener ++ s.text) s.closed, s.rest)

/-- The lexeme that starts with `c` when `rest` follows it and `prev` stands before it, and what
follows the lexeme. -/
def Lexeme.start (prev : Option Char) (c : Char) (rest : List Char) : Lexeme × List Char :=
  if c = '\'' then (Span.untilQuote '\'' rest).region .literal [c]
  else if c = '"' then (Span.untilQuote '"' rest).region .identifier [c]
  else if c = 'E' ∨ c = 'e' then
    match rest with
    | '\'' :: body =>
      if continuesName prev then (.other c, rest)
      else (Span.untilEscapedQuote body).region .escapeLiteral [c, '\'']
    | _ => (.other c, rest)
  else if c = '-' then
    match rest with
    | '-' :: body => (Span.untilLineFeed body).region .lineComment [c, '-']
    | _ => (.other c, rest)
  else if c = '/' then
    match rest with
    | '*' :: body => (Span.untilCommentEnd 1 body).region .blockComment [c, '*']
    | _ => (.other c, rest)
  else if c = '$' then
    if continuesName prev then (.other c, rest)
    else
      match dollarTag? rest with
      | some (tag, body) => (Span.untilTag tag body).region .dollarQuote tag
      | none => (.other c, rest)
  else if c = ':' then
    match rest with
    | ':' :: body => (.cast, body)
    | d :: _ =>
      if isNameStart d then (.placeholder (rest.takeWhile isNameChar), rest.dropWhile isNameChar)
      else (.other c, rest)
    | [] => (.other c, rest)
  else (.other c, rest)

theorem Span.region_covers {s : Span} {l : List Char} (h : s.Covers l) (kind : Region)
    (opener : List Char) :
    (s.region kind opener).1.text ++ (s.region kind opener).2 = opener ++ l := by
  simp only [Span.region, Lexeme.text, List.append_assoc]
  rw [h]

/-- A lexeme and what follows it are the text it was taken from. -/
theorem Lexeme.start_covers (prev : Option Char) (c : Char) (rest : List Char) :
    (Lexeme.start prev c rest).1.text ++ (Lexeme.start prev c rest).2 = c :: rest := by
  unfold Lexeme.start
  split
  · exact Span.region_covers (Span.covers_untilQuote _ _) _ _
  split
  · exact Span.region_covers (Span.covers_untilQuote _ _) _ _
  split
  · split
    · split
      · rfl
      · exact Span.region_covers (Span.covers_untilEscapedQuote _) _ _
    · rfl
  split
  · split
    · exact Span.region_covers (Span.covers_untilLineFeed _) _ _
    · rfl
  split
  · split
    · exact Span.region_covers (Span.covers_untilCommentEnd _ _) _ _
    · rfl
  split
  · next hc =>
    subst hc
    split
    · rfl
    · split
      · next h =>
        rw [Span.region_covers (Span.covers_untilTag _ _)]
        exact dollarTag?_covers h
      · rfl
  split
  · next hc =>
    subst hc
    split
    · rfl
    · split
      · simp [Lexeme.text, List.takeWhile_append_dropWhile]
      · rfl
    · rfl
  · rfl

theorem Span.region_text_ne_nil {s : Span} {kind : Region} {c : Char} {l : List Char} :
    (s.region kind (c :: l)).1.text ≠ [] := by
  simp [Span.region, Lexeme.text]

theorem dollarTag?_ne_nil {l tag rest : List Char} (h : dollarTag? l = some (tag, rest)) :
    ∃ t, tag = '$' :: t := by
  unfold dollarTag? at h
  split at h
  · cases h
  · split at h
    · split at h
      · cases h; exact ⟨_, rfl⟩
      · cases h
    · cases h

/-- A lexeme has at least one character. -/
theorem Lexeme.start_text_ne_nil (prev : Option Char) (c : Char) (rest : List Char) :
    (Lexeme.start prev c rest).1.text ≠ [] := by
  unfold Lexeme.start
  repeat' split
  all_goals first
    | exact Span.region_text_ne_nil
    | (next h => obtain ⟨t, rfl⟩ := dollarTag?_ne_nil h; exact Span.region_text_ne_nil)
    | simp [Lexeme.text]

/-- A lexeme and what it starts with leave no more than the rest. -/
theorem Lexeme.length_start_le (prev : Option Char) (c : Char) (rest : List Char) :
    (Lexeme.start prev c rest).2.length ≤ rest.length := by
  have h := congrArg List.length (Lexeme.start_covers prev c rest)
  have h' := List.length_pos_iff.2 (Lexeme.start_text_ne_nil prev c rest)
  rw [List.length_append, List.length_cons] at h
  omega

/-- The lexemes of a text that stands after the character `prev`. -/
def lexemes (prev : Option Char) : List Char → List Lexeme
  | [] => []
  | c :: rest =>
    let x := Lexeme.start prev c rest
    have := Lexeme.length_start_le prev c rest
    x.1 :: lexemes x.1.text.getLast? x.2
termination_by l => l.length

/-- The lexemes of a text put together are the text. -/
theorem flatMap_text_lexemes (prev : Option Char) (l : List Char) :
    (lexemes prev l).flatMap Lexeme.text = l := by
  fun_induction lexemes prev l with
  | case1 => rfl
  | case2 prev c rest x _ ih =>
    rw [List.flatMap_cons, ih]
    exact Lexeme.start_covers prev c rest

/-- A text is closed when it does not end inside a region. -/
def Closed (s : String) : Prop :=
  ∀ x ∈ lexemes none s.toList, x.isClosed = true

instance (s : String) : Decidable (Closed s) :=
  inferInstanceAs (Decidable (∀ x ∈ lexemes none s.toList, x.isClosed = true))

/-- The names of the placeholders of a text, in the order of the text. -/
def placeholders (s : String) : List String :=
  (lexemes none s.toList).filterMap fun x => x.name?.map String.ofList

end SqlAssembly.Sql
