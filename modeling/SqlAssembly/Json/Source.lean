/-!
# JSON texts

`Source` is the tree of a JSON text before its numbers and strings are given values: a number is
kept digit by digit, and a string may turn out to be no text because of an unpaired surrogate. What
a reader skips is held only to this level, so `Source` has no limit on depth or on the size of
numbers.

`Source.parse?` reads a whole text, with blanks allowed around every token. Hexadecimal digits, by
which a string may spell a character, are written in lower case and read in either.
-/

namespace SqlAssembly

namespace Text

/-- The lower-case hexadecimal digits of `n` modulo `16 ^ width`, highest first. -/
def hexChars : Nat → Nat → List Char
  | 0, _ => []
  | width + 1, n => hexChars width (n / 16) ++ [Nat.digitChar (n % 16)]

/-- The value of a hexadecimal digit. -/
def hexValue? (c : Char) : Option Nat :=
  if '0' ≤ c ∧ c ≤ '9' then some (c.toNat - 48)
  else if 'a' ≤ c ∧ c ≤ 'f' then some (c.toNat - 87)
  else if 'A' ≤ c ∧ c ≤ 'F' then some (c.toNat - 55)
  else none

/-- The number written by hexadecimal digits, highest first. -/
def ofHexChars? (l : List Char) : Option Nat :=
  l.foldlM (fun n c => (hexValue? c).map (16 * n + ·)) 0

end Text

namespace Json

/-- A number as written. -/
structure NumberSource where
  negative : Bool
  whole : List Nat
  fraction : Option (List Nat)
  /-- The sign and the digits of the exponent, if there is one; the sign is true for a minus. -/
  exponent : Option (Bool × List Nat)
deriving Repr

/-- The tree of a JSON text. A string or key is `none` if an escape in it stands for half of a
surrogate pair. -/
inductive Source where
  | null
  | bool (b : Bool)
  | number (n : NumberSource)
  | string (s : Option String)
  | array (items : List Source)
  /-- Members, in the order of the text. -/
  | object (members : List (Option String × Source))

namespace Source

/-- A value read from the front of `l`, with the shorter rest that follows it. -/
abbrev Parsed (α : Type) (l : List Char) :=
  Option (α × { rest : List Char // rest.length < l.length })

/-- Whether a character may stand between tokens. -/
def isSpace (c : Char) : Bool :=
  c == ' ' || c == '\t' || c == '\n' || c == '\r'

/-- The text from its first token on. -/
def skipSpace (l : List Char) : List Char :=
  l.dropWhile isSpace

theorem length_skipSpace_le (l : List Char) : (skipSpace l).length ≤ l.length :=
  (List.dropWhile_sublist _).length_le

/-- What follows the first character that is no blank is shorter. -/
theorem length_lt_of_skipSpace {l rest : List Char} {c : Char} (h : skipSpace l = c :: rest) :
    rest.length < l.length := by
  have := length_skipSpace_le l
  rw [h, List.length_cons] at this
  exact this

/-- The longest run of digits at the front, as their values. -/
def digitRun (l : List Char) : List Nat :=
  (l.takeWhile Char.isDigit).map fun c => c.toNat - 48

/-- What follows the longest run of digits. -/
def afterDigits (l : List Char) : List Char :=
  l.dropWhile Char.isDigit

/-- An exponent, if an `e` follows: an optional sign and at least one digit. The outer `none` is a
malformed exponent. -/
def exponent? : List Char → Option (Option (Bool × List Nat) × List Char)
  | c :: rest =>
    if c = 'e' ∨ c = 'E' then
      let (negative, body) := match rest with
        | '+' :: body => (false, body)
        | '-' :: body => (true, body)
        | body => (false, body)
      if (digitRun body).isEmpty then none
      else some (some (negative, digitRun body), afterDigits body)
    else some (none, c :: rest)
  | [] => some (none, [])

/-- A fraction, if a point follows: at least one digit. The outer `none` is a malformed fraction. -/
def fraction? : List Char → Option (Option (List Nat) × List Char)
  | '.' :: rest =>
    if (digitRun rest).isEmpty then none else some (some (digitRun rest), afterDigits rest)
  | l => some (none, l)

/-- A number: no second digit after a leading zero. -/
def number? (l : List Char) : Option (NumberSource × List Char) := do
  let (negative, body) := match l with
    | '-' :: body => (true, body)
    | body => (false, body)
  let whole := digitRun body
  if whole.isEmpty || (whole.head? == some 0 && whole.length != 1) then none
  else
    let (fraction, rest) ← fraction? (afterDigits body)
    let (exponent, rest) ← exponent? rest
    return (⟨negative, whole, fraction, exponent⟩, rest)

/-- One character of a string, or half of a surrogate pair. -/
inductive Piece where
  | char (c : Char)
  | high (n : Nat)
  | low (n : Nat)

/-- The piece for a code unit of sixteen bits. -/
def Piece.ofUnit (n : Nat) : Piece :=
  if 0xD800 ≤ n ∧ n < 0xDC00 then high n
  else if 0xDC00 ≤ n ∧ n < 0xE000 then low n
  else char (Char.ofNat n)

/-- The characters of a string, or `none` if half of a surrogate pair stands alone. -/
def joinPieces : List Piece → Option (List Char)
  | [] => some []
  | .char c :: rest => (joinPieces rest).map (c :: ·)
  | .high h :: .low l :: rest =>
    (joinPieces rest).map (Char.ofNat (0x10000 + (h - 0xD800) * 0x400 + (l - 0xDC00)) :: ·)
  | _ => none

/-- The pieces of a string after its opening quote, up to its closing one. -/
def pieces? : List Char → Option (List Piece × List Char)
  | '"' :: rest => some ([], rest)
  | '\\' :: 'u' :: a :: b :: c :: d :: rest => do
    let n ← Text.ofHexChars? [a, b, c, d]
    let (more, rest) ← pieces? rest
    return (Piece.ofUnit n :: more, rest)
  | '\\' :: e :: rest => do
    let c ← match e with
      | '"' => some '"'
      | '\\' => some '\\'
      | '/' => some '/'
      | 'b' => some '\x08'
      | 'f' => some '\x0c'
      | 'n' => some '\n'
      | 'r' => some '\r'
      | 't' => some '\t'
      | _ => none
    let (more, rest) ← pieces? rest
    return (.char c :: more, rest)
  | c :: rest =>
    if c.toNat < 0x20 then none
    else do
      let (more, rest) ← pieces? rest
      return (.char c :: more, rest)
  | [] => none

/-- Keeps a result whose rest is shorter than `l`; every reader above takes at least one character,
so nothing is lost. -/
def shorter {α : Type} (l : List Char) (r : Option (α × List Char)) : Parsed α l :=
  r.bind fun (a, rest) => if h : rest.length < l.length then some (a, ⟨rest, h⟩) else none

/-- A string, read from its opening quote on. -/
def string? (l : List Char) : Parsed (Option String) l :=
  match l with
  | '"' :: rest => shorter _ ((pieces? rest).map fun (ps, rest) =>
      ((joinPieces ps).map String.ofList, rest))
  | _ => none

mutual

/-- One value at the front of `l`. -/
def valueAt? (l : List Char) : Parsed Source l :=
  match hl : skipSpace l with
  | [] => none
  | '[' :: rest =>
    have h : rest.length < l.length := length_lt_of_skipSpace hl
    match hr : skipSpace rest with
    | ']' :: rest' => some (.array [], ⟨rest', Nat.lt_trans (length_lt_of_skipSpace hr) h⟩)
    | _ => do
      let (items, ⟨rest', h'⟩) ← itemsAt? rest
      return (.array items, ⟨rest', Nat.lt_trans h' h⟩)
  | '\x7b' :: rest =>
    have h : rest.length < l.length := length_lt_of_skipSpace hl
    match hr : skipSpace rest with
    | '\x7d' :: rest' => some (.object [], ⟨rest', Nat.lt_trans (length_lt_of_skipSpace hr) h⟩)
    | _ => do
      let (members, ⟨rest', h'⟩) ← membersAt? rest
      return (.object members, ⟨rest', Nat.lt_trans h' h⟩)
  | 'n' :: 'u' :: 'l' :: 'l' :: rest => shorter l (some (.null, rest))
  | 't' :: 'r' :: 'u' :: 'e' :: rest => shorter l (some (.bool true, rest))
  | 'f' :: 'a' :: 'l' :: 's' :: 'e' :: rest => shorter l (some (.bool false, rest))
  | '"' :: rest =>
    shorter l ((string? ('"' :: rest)).map fun (s, r) => (.string s, r.1))
  | c :: rest => shorter l ((number? (c :: rest)).map fun (n, r) => (.number n, r))
termination_by (l.length, 0)

/-- The items of a non-empty array after its opening bracket, up to its closing one. -/
def itemsAt? (l : List Char) : Parsed (List Source) l := do
  let (item, ⟨rest, h⟩) ← valueAt? l
  match hr : skipSpace rest with
  | ',' :: rest' =>
    have h' : rest'.length < rest.length := length_lt_of_skipSpace hr
    let (items, ⟨rest'', h''⟩) ← itemsAt? rest'
    return (item :: items, ⟨rest'', by omega⟩)
  | ']' :: rest' => return ([item], ⟨rest', Nat.lt_trans (length_lt_of_skipSpace hr) h⟩)
  | _ => none
termination_by (l.length, 1)

/-- The members of a non-empty object after its opening brace, up to its closing one. -/
def membersAt? (l : List Char) : Parsed (List (Option String × Source)) l := do
  let (key, ⟨rest, h⟩) ← string? (skipSpace l)
  have h₁ : rest.length < l.length := Nat.lt_of_lt_of_le h (length_skipSpace_le l)
  match hr : skipSpace rest with
  | ':' :: rest' =>
    have h₂ : rest'.length < rest.length := length_lt_of_skipSpace hr
    let (value, ⟨rest'', h₃⟩) ← valueAt? rest'
    match hq : skipSpace rest'' with
    | ',' :: after =>
      have h₄ : after.length < rest''.length := length_lt_of_skipSpace hq
      let (members, ⟨last, h₅⟩) ← membersAt? after
      return ((key, value) :: members, ⟨last, by omega⟩)
    | '\x7d' :: after =>
      have h₄ : after.length < rest''.length := length_lt_of_skipSpace hq
      return ([(key, value)], ⟨after, by omega⟩)
    | _ => none
  | _ => none
termination_by (l.length, 1)

end

/-- The tree of a text that holds one value and nothing else. -/
def parse? (s : String) : Option Source := do
  let (value, ⟨rest, _⟩) ← valueAt? s.toList
  if (skipSpace rest).isEmpty then return value else none

end Source

end Json

end SqlAssembly
