import SqlAssembly.Sql.Lexeme

/-!
# The lexical grammar of an SQL text

What the lexemes of a text are, said without a scanner.

* `Quoted`, `Escaped`, `Commented` and `OpenComment` are the contents of regions; `IsTag` are the
  openers of dollar quotes.
* `Opens` says where a lexeme of more than one character can start.
* `Starts N prev x rest` says that `x` is the first lexeme of the text `x.text ++ rest` that stands
  after the character `prev`.
* `Reading N prev xs l` says that `xs` are the lexemes of the text `l`, from left to right.

A region without an end has all the rest of the text as its content. What counts as the content of a
block comment is said by a `Nesting`: `Nesting.any` lets comments lie in each other as deep as they
do, `Nesting.upTo n` at most `n` deep in the outermost one.
-/

namespace SqlAssembly.Sql

/-- A letter or an underscore. -/
def NameStart (c : Char) : Prop :=
  ('a' ≤ c ∧ c ≤ 'z') ∨ ('A' ≤ c ∧ c ≤ 'Z') ∨ c = '_'

/-- A letter, a digit or an underscore. -/
def NameChar (c : Char) : Prop :=
  NameStart c ∨ ('0' ≤ c ∧ c ≤ '9')

/-- A name: a letter or an underscore, then letters, digits and underscores. -/
def IsName : List Char → Prop
  | [] => False
  | c :: rest => NameStart c ∧ ∀ d ∈ rest, NameChar d

instance : DecidablePred NameStart := fun _ => instDecidableOr

instance : DecidablePred NameChar := fun _ => instDecidableOr

instance : DecidablePred IsName
  | [] => isFalse id
  | _ :: rest => @instDecidableAnd _ _ _ (List.decidableBAll NameChar rest)

/-- A character after `prev` continues a name. -/
def Continues (prev : Option Char) : Prop :=
  ∃ c, prev = some c ∧ (NameChar c ∨ c = '$')

theorem not_continues_none : ¬Continues none := by
  rintro ⟨c, hc, -⟩
  cases hc

/-- The content of a region between quotes, where a doubled quote stands for one. -/
inductive Quoted (q : Char) : List Char → Prop
  | nil : Quoted q []
  | char {c : Char} {l : List Char} (hc : c ≠ q) (h : Quoted q l) : Quoted q (c :: l)
  | double {l : List Char} (h : Quoted q l) : Quoted q (q :: q :: l)

/-- The content of a literal with backslash escapes. -/
inductive Escaped : List Char → Prop
  | nil : Escaped []
  | char {c : Char} {l : List Char} (hb : c ≠ '\\') (hq : c ≠ '\'') (h : Escaped l) :
      Escaped (c :: l)
  | double {l : List Char} (h : Escaped l) : Escaped ('\'' :: '\'' :: l)
  | escape (c : Char) {l : List Char} (h : Escaped l) : Escaped ('\\' :: c :: l)

/-- The content of a comment, or a part of it, when `after` follows: characters that open and close
nothing, and whole comments. Comments lie at most `n` deep in it. -/
inductive Commented : Nat → List Char → List Char → Prop
  | nil (n : Nat) (after : List Char) : Commented n [] after
  | char {n : Nat} {c : Char} {l after : List Char} (ho : ¬['/', '*'] <+: c :: (l ++ after))
      (hc : ¬['*', '/'] <+: c :: (l ++ after)) (h : Commented n l after) :
      Commented n (c :: l) after
  | comment {n : Nat} {inner l after : List Char}
      (hi : Commented n inner ('*' :: '/' :: (l ++ after))) (h : Commented (n + 1) l after) :
      Commented (n + 1) ('/' :: '*' :: (inner ++ '*' :: '/' :: l)) after

/-- The content of a comment that has no end: one of the comments that it opens has none, or there
is no more text. Comments lie at most `n` deep in it. -/
inductive OpenComment : Nat → List Char → Prop
  | flat {n : Nat} {l : List Char} (h : Commented n l []) : OpenComment n l
  | comment {n : Nat} {l inner : List Char} (h : Commented (n + 1) l ('/' :: '*' :: inner))
      (hi : OpenComment n inner) : OpenComment (n + 1) (l ++ '/' :: '*' :: inner)

/-- What counts as the content of a block comment: `ended body rest` when its end and then `rest`
follow, `endless body` when it has no end. -/
structure Nesting where
  ended : List Char → List Char → Prop
  endless : List Char → Prop

namespace Nesting

/-- Comments lie at most `n` deep in a comment. -/
def upTo (n : Nat) : Nesting where
  ended body rest := Commented n body ('*' :: '/' :: rest)
  endless body := OpenComment n body

/-- Comments lie in each other as deep as they do. -/
def any : Nesting where
  ended body rest := ∃ n, (upTo n).ended body rest
  endless body := ∃ n, (upTo n).endless body

/-- What counts as a content in `N` does so in `M`. -/
structure Within (N M : Nesting) : Prop where
  ended : ∀ {body rest}, N.ended body rest → M.ended body rest
  endless : ∀ {body}, N.endless body → M.endless body

/-- A text of at most `n` characters behind the opener of a comment has no end of it, or a content
is followed by its end. -/
def Covers (N : Nesting) (n : Nat) : Prop :=
  ∀ l : List Char, l.length ≤ n →
    N.endless l ∨ ∃ body rest, l = body ++ '*' :: '/' :: rest ∧ N.ended body rest

end Nesting

/-- The opener of a dollar quote: a name or nothing between dollar signs. -/
def IsTag (tag : List Char) : Prop :=
  ∃ name, tag = '$' :: (name ++ ['$']) ∧ (name = [] ∨ IsName name)

/-- The tag stands behind `body`, and nowhere before. -/
def EndsFirst (tag body : List Char) : Prop :=
  ∀ a b, body ++ tag = a ++ (tag ++ b) → b = []

/-- The quote characters and the regions between them. -/
inductive Delimits : Char → Region → Prop
  | literal : Delimits '\'' .literal
  | identifier : Delimits '"' .identifier

/-- A text that stands after `prev` begins with the opener of a lexeme. -/
inductive Opens (prev : Option Char) : List Char → Prop
  | quote {q : Char} {kind : Region} (hq : Delimits q kind) (l : List Char) : Opens prev (q :: l)
  | escapeLiteral {c : Char} (hc : c = 'E' ∨ c = 'e') (hp : ¬Continues prev) (l : List Char) :
      Opens prev (c :: '\'' :: l)
  | lineComment (l : List Char) : Opens prev ('-' :: '-' :: l)
  | blockComment (l : List Char) : Opens prev ('/' :: '*' :: l)
  | dollarQuote {tag : List Char} (ht : IsTag tag) (hp : ¬Continues prev) (l : List Char) :
      Opens prev (tag ++ l)
  | cast (l : List Char) : Opens prev (':' :: ':' :: l)
  | placeholder {c : Char} (hc : NameStart c) (l : List Char) : Opens prev (':' :: c :: l)

/-- The text `x.text ++ rest` that stands after `prev` starts with the lexeme `x`. -/
inductive Starts (N : Nesting) (prev : Option Char) : Lexeme → List Char → Prop
  | quote {q : Char} {kind : Region} {body rest : List Char} (hq : Delimits q kind)
      (hb : Quoted q body) (hr : rest.head? ≠ some q) :
      Starts N prev (.region kind (q :: (body ++ [q])) true) rest
  | openQuote {q : Char} {kind : Region} {body : List Char} (hq : Delimits q kind)
      (hb : Quoted q body) : Starts N prev (.region kind (q :: body) false) []
  | escapeLiteral {c : Char} {body rest : List Char} (hc : c = 'E' ∨ c = 'e')
      (hp : ¬Continues prev) (hb : Escaped body) (hr : rest.head? ≠ some '\'') :
      Starts N prev (.region .escapeLiteral (c :: '\'' :: (body ++ ['\''])) true) rest
  | openEscapeLiteral {c : Char} {body last : List Char} (hc : c = 'E' ∨ c = 'e')
      (hp : ¬Continues prev) (hb : Escaped body) (hl : last = [] ∨ last = ['\\']) :
      Starts N prev (.region .escapeLiteral (c :: '\'' :: (body ++ last)) false) []
  | lineComment {body : List Char} (hb : '\n' ∉ body) (rest : List Char) :
      Starts N prev (.region .lineComment ('-' :: '-' :: body) true) ('\n' :: rest)
  | openLineComment {body : List Char} (hb : '\n' ∉ body) :
      Starts N prev (.region .lineComment ('-' :: '-' :: body) false) []
  | blockComment {body rest : List Char} (hb : N.ended body rest) :
      Starts N prev (.region .blockComment ('/' :: '*' :: (body ++ ['*', '/'])) true) rest
  | openBlockComment {body : List Char} (hb : N.endless body) :
      Starts N prev (.region .blockComment ('/' :: '*' :: body) false) []
  | dollarQuote {tag body : List Char} (ht : IsTag tag) (hp : ¬Continues prev)
      (hb : EndsFirst tag body) (rest : List Char) :
      Starts N prev (.region .dollarQuote (tag ++ (body ++ tag)) true) rest
  | openDollarQuote {tag body : List Char} (ht : IsTag tag) (hp : ¬Continues prev)
      (hb : ¬tag <:+: body) : Starts N prev (.region .dollarQuote (tag ++ body) false) []
  | cast (rest : List Char) : Starts N prev .cast rest
  | placeholder {name rest : List Char} (hn : IsName name)
      (hr : ∀ c, rest.head? = some c → ¬NameChar c) : Starts N prev (.placeholder name) rest
  | other {c : Char} {rest : List Char} (h : ¬Opens prev (c :: rest)) : Starts N prev (.other c) rest

/-- The text `l` that stands after `prev` is read from left to right as the lexemes `xs`. -/
inductive Reading (N : Nesting) : Option Char → List Lexeme → List Char → Prop
  | nil (prev : Option Char) : Reading N prev [] []
  | cons {prev : Option Char} {x : Lexeme} {xs : List Lexeme} {rest : List Char}
      (hx : Starts N prev x rest) (h : Reading N x.text.getLast? xs rest) :
      Reading N prev (x :: xs) (x.text ++ rest)

end SqlAssembly.Sql
