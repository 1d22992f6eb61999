/-!
# Tokens of a document

The lexical grammar of GraphQL. Blanks, commas and comments stand between tokens. The longest token
counts; where no token starts, one `invalid` token does, which no rule of the grammar accepts.

The content of strings and numbers is checked but not kept, since only names select fields.
-/

namespace SqlAssembly.GraphQL

/-- A token. -/
inductive Token where
  /-- A punctuator of one character. -/
  | mark (c : Char)
  | ellipsis
  | name (s : String)
  | var (s : String)
  | directive (s : String)
  | number
  | string
  | invalid
deriving DecidableEq, Repr

namespace Token

/-- Whether a character may stand between tokens. -/
def isIgnored (c : Char) : Bool :=
  c == ' ' || c == ',' || c == '\t' || c == '\n' || c == '\r' || c == '\x0c'

/-- Whether a character can start a name. -/
def isNameStart (c : Char) : Bool :=
  c == '_' || c.isAlpha

/-- Whether a character can stand in a name after the first one. -/
def isNameChar (c : Char) : Bool :=
  c == '_' || c.isAlphanum

/-- The punctuators of one character. -/
def marks : List Char :=
  ['[', ']', '\x7b', '\x7d', '(', ')', ':', '=', '!']

/-- What follows a nonempty run of digits, if one stands in front. -/
def afterDigits? (l : List Char) : Option (List Char) :=
  match l with
  | c :: rest => if c.isDigit then some (rest.dropWhile Char.isDigit) else none
  | [] => none

/-- What follows the whole part of a number: a zero, or digits that do not start with one. -/
def afterWhole? (l : List Char) : Option (List Char) :=
  match l with
  | '0' :: rest => some rest
  | l => afterDigits? l

/-- What follows the fraction, if there is one. -/
def afterFraction (l : List Char) : List Char :=
  match l with
  | '.' :: rest => (afterDigits? rest).getD l
  | _ => l

/-- What follows the sign of an exponent, if there is one. -/
def afterSign (l : List Char) : List Char :=
  match l with
  | '+' :: rest => rest
  | '-' :: rest => rest
  | _ => l

/-- What follows the exponent, if there is one. -/
def afterExponent (l : List Char) : List Char :=
  match l with
  | 'e' :: rest => (afterDigits? (afterSign rest)).getD l
  | 'E' :: rest => (afterDigits? (afterSign rest)).getD l
  | _ => l

/-- What follows a number, if one stands in front. -/
def afterNumber? (l : List Char) : Option (List Char) :=
  let body := match l with
    | '-' :: rest => rest
    | _ => l
  (afterWhole? body).map fun rest => afterExponent (afterFraction rest)

/-- Whether four characters are the hexadecimal digits of a character, and not of half of a
surrogate pair. -/
def isCodeUnit (digits : List Char) : Bool :=
  digits.all (fun c => c.isDigit || ('a' ≤ c && c ≤ 'f') || ('A' ≤ c && c ≤ 'F')) &&
    !((digits.take 1).all (fun c => c == 'd' || c == 'D') &&
      ((digits.drop 1).take 1).all (fun c => c == '8' || c == '9' || c.isAlpha))

/-- What follows the rest of a string, up to its closing quote on the same line. -/
def afterString? : List Char → Option (List Char)
  | [] => none
  | '"' :: rest => some rest
  | '\\' :: 'u' :: a :: b :: c :: d :: rest =>
    if isCodeUnit [a, b, c, d] then afterString? rest else none
  | '\\' :: c :: rest => if "\"\\/bfnrt".toList.contains c then afterString? rest else none
  | c :: rest => if c = '\n' ∨ c = '\r' then none else afterString? rest

/-- What follows the rest of a block string, when `quotes` of its quotes were just read in a row. It
ends with a row of exactly three; a shorter or a longer one is content. A backslash takes the
character after it, a quote for instance, which must not be a line feed. -/
def afterBlock? : (quotes : Nat) → List Char → Option (List Char)
  | quotes, '"' :: rest => afterBlock? (quotes + 1) rest
  | 3, rest => some rest
  | _, [] => none
  | _, ['\\'] => none
  | _, '\\' :: c :: rest => if c = '\n' then none else afterBlock? 0 rest
  | _, _ :: rest => afterBlock? 0 rest

/-- The token of a name behind a sign, and what follows it. -/
def signed (make : String → Token) (l : List Char) : Token × List Char :=
  match l with
  | c :: rest =>
    if isNameStart c then
      (make (String.ofList (c :: rest.takeWhile isNameChar)), rest.dropWhile isNameChar)
    else (invalid, l)
  | [] => (invalid, [])

/-- The token that starts with `c` when `rest` follows it, and what follows the token. -/
def start (c : Char) (rest : List Char) : Token × List Char :=
  if marks.contains c then (mark c, rest)
  else if isNameStart c then
    (name (String.ofList (c :: rest.takeWhile isNameChar)), rest.dropWhile isNameChar)
  else if c = '$' then signed var rest
  else if c = '@' then signed directive rest
  else if c = '.' then
    match rest with
    | '.' :: '.' :: rest => (ellipsis, rest)
    | _ => (invalid, rest)
  else if c = '"' then
    match rest with
    | '"' :: '"' :: body => match afterBlock? 0 body with
      | some rest => (string, rest)
      | none => (invalid, body)
    | _ => match afterString? rest with
      | some rest => (string, rest)
      | none => (invalid, rest)
  else
    match afterNumber? (c :: rest) with
    | some rest' => (number, rest')
    | none => (invalid, rest)

theorem length_afterDigits?_lt {l r : List Char} (h : afterDigits? l = some r) :
    r.length < l.length := by
  unfold afterDigits? at h
  split at h
  · split at h
    · cases h
      exact Nat.lt_succ_of_le (List.dropWhile_sublist _).length_le
    · cases h
  · cases h

theorem length_afterWhole?_lt {l r : List Char} (h : afterWhole? l = some r) :
    r.length < l.length := by
  unfold afterWhole? at h
  split at h
  · cases h; simp
  · exact length_afterDigits?_lt h

theorem length_afterFraction_le (l : List Char) : (afterFraction l).length ≤ l.length := by
  unfold afterFraction
  split
  · next rest =>
    cases h : afterDigits? rest with
    | none => simp
    | some r => have := length_afterDigits?_lt h; simp; omega
  · exact Nat.le_refl _

theorem length_afterSign_le (l : List Char) : (afterSign l).length ≤ l.length := by
  unfold afterSign
  split <;> simp

theorem length_afterExponent_le (l : List Char) : (afterExponent l).length ≤ l.length := by
  unfold afterExponent
  split
  all_goals try exact Nat.le_refl _
  all_goals
    next rest =>
      cases h : afterDigits? (afterSign rest) with
      | none => simp
      | some r =>
        have := length_afterDigits?_lt h
        have := length_afterSign_le rest
        simp; omega

theorem length_afterNumber?_lt {l r : List Char} (h : afterNumber? l = some r) :
    r.length < l.length := by
  obtain ⟨rest, hw, rfl⟩ := Option.map_eq_some_iff.1 h
  have := length_afterWhole?_lt hw
  have := length_afterFraction_le rest
  have := length_afterExponent_le (afterFraction rest)
  split at * <;> simp at * <;> omega

theorem length_afterString?_lt {l r : List Char} (h : afterString? l = some r) :
    r.length < l.length := by
  fun_induction afterString? l with
  | case1 => cases h
  | case2 => cases h; simp
  | case3 a b c d rest _ ih => have := ih h; simp; omega
  | case4 => cases h
  | case5 c rest _ _ ih => have := ih h; simp; omega
  | case6 => cases h
  | case7 => cases h
  | case8 c rest _ _ _ _ ih => have := ih h; simp; omega

theorem length_afterBlock?_le {quotes : Nat} {l r : List Char} (h : afterBlock? quotes l = some r) :
    r.length ≤ l.length := by
  fun_induction afterBlock? quotes l with
  | case1 _ rest ih => exact Nat.le_succ_of_le (ih h)
  | case2 rest => cases h; exact Nat.le_refl _
  | case3 => cases h
  | case4 => cases h
  | case5 => cases h
  | case6 _ c rest _ _ ih => have := ih h; simp; omega
  | case7 _ c rest _ _ _ _ ih => exact Nat.le_succ_of_le (ih h)

theorem length_signed_le (make : String → Token) (l : List Char) :
    (signed make l).2.length ≤ l.length := by
  unfold signed
  split
  · split
    · exact Nat.le_succ_of_le (List.dropWhile_sublist _).length_le
    · exact Nat.le_refl _
  · exact Nat.le_refl _

/-- A token and what it starts with leave no more than the rest. -/
theorem length_start_le (c : Char) (rest : List Char) :
    (start c rest).2.length ≤ rest.length := by
  unfold start
  split
  · exact Nat.le_refl _
  split
  · exact (List.dropWhile_sublist _).length_le
  split
  · exact length_signed_le _ _
  split
  · exact length_signed_le _ _
  split
  · split <;> simp; omega
  split
  · split
    · split
      · next h => have := length_afterBlock?_le h; simp; omega
      · simp; omega
    · split
      · next h => exact Nat.le_of_lt (length_afterString?_lt h)
      · exact Nat.le_refl _
  · split
    · next h => have := length_afterNumber?_lt h; simp at this; simp; omega
    · exact Nat.le_refl _

end Token

/-- The tokens of a text. -/
def tokens : List Char → List Token
  | [] => []
  | c :: rest =>
    if Token.isIgnored c then tokens rest
    else if c = '#' then
      have := (List.dropWhile_sublist (l := rest) fun c => c != '\n' && c != '\r').length_le
      tokens (rest.dropWhile fun c => c != '\n' && c != '\r')
    else
      have := Token.length_start_le c rest
      (Token.start c rest).1 :: tokens (Token.start c rest).2
termination_by l => l.length

end SqlAssembly.GraphQL
