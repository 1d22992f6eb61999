import SqlAssembly.Proofs.Sql.Comments
import SqlAssembly.Sql.Statement

/-!
# A scanner of octets

The statement of a text made in one pass over its octets in UTF-8, without a look at characters:
places in the text are numbers, and what is between two places is only copied if both are ends of
characters.

* `closing`, `escapedClosing`, `commentEnd`, `nameEnd`, `tagEnd?` and `find?` look for a place
  further on. After a backslash `escapedClosing` passes over one octet, whatever the character.
* `move` is what the scanner does at a place, and `Move.next` the place where it goes on.
  `lt_next`: this is further on, even if the octets are no text.
* `rewrite` is the whole pass. It gives `none` if a slice is asked for that is not there, as a
  program would stop that asks for it.

The number of open comments is kept by a `Counter`, of which nothing is assumed: it may have a fixed
width, for example, and wrap around when it is full.
-/

namespace SqlAssembly.Sql.Scanner

/-- The octets of characters. -/
def octets (l : List Char) : List UInt8 :=
  l.flatMap String.utf8EncodeChar

/-! ### Octets of names -/

/-- Whether an octet is a letter or an underscore. -/
def startsName (b : UInt8) : Bool :=
  b == '_'.toUInt8 || ('a'.toUInt8 ≤ b && b ≤ 'z'.toUInt8) ||
    ('A'.toUInt8 ≤ b && b ≤ 'Z'.toUInt8)

/-- Whether an octet is a letter, a digit or an underscore. -/
def inName (b : UInt8) : Bool :=
  startsName b || ('0'.toUInt8 ≤ b && b ≤ '9'.toUInt8)

/-- Whether a place lies behind a name or a dollar sign. -/
def followsName (text : List UInt8) (i : Nat) : Bool :=
  decide (0 < i) && text[i - 1]?.any fun b => inName b || b == '$'.toUInt8

/-- The number of octets of a character, by its first one. -/
def width (b : UInt8) : Nat :=
  if b ≤ 0x7F then 1
  else if 0xC0 ≤ b ∧ b ≤ 0xDF then 2
  else if 0xE0 ≤ b ∧ b ≤ 0xEF then 3
  else 4

/-! ### Places further on -/

/-- The place behind the closing quote. -/
def closing (text : List UInt8) (q : UInt8) (i : Nat) : Nat :=
  if i < text.length then
    if text[i]? = some q then
      if text[i + 1]? = some q then closing text q (i + 2) else i + 1
    else closing text q (i + 1)
  else text.length
termination_by text.length - i

/-- The place behind the closing quote of a literal with escapes. -/
def escapedClosing (text : List UInt8) (i : Nat) : Nat :=
  if i < text.length then
    if text[i]? = some '\\'.toUInt8 then escapedClosing text (i + 2)
    else if text[i]? = some '\''.toUInt8 then
      if text[i + 1]? = some '\''.toUInt8 then escapedClosing text (i + 2) else i + 1
    else escapedClosing text (i + 1)
  else text.length
termination_by text.length - i

variable {σ : Type}

/-- The place behind the end of a comment. -/
def commentEnd (counter : Counter σ) (text : List UInt8) (d : σ) (i : Nat) : Nat :=
  if i < text.length then
    if text[i]? = some '/'.toUInt8 ∧ text[i + 1]? = some '*'.toUInt8 then
      commentEnd counter text (counter.opened d) (i + 2)
    else if text[i]? = some '*'.toUInt8 ∧ text[i + 1]? = some '/'.toUInt8 then
      match counter.closed d with
      | none => i + 2
      | some d => commentEnd counter text d (i + 2)
    else commentEnd counter text d (i + 1)
  else text.length
termination_by text.length - i

/-- The place behind the letters, digits and underscores. -/
def nameEnd (text : List UInt8) (i : Nat) : Nat :=
  if i < text.length then
    if text[i]?.any inName then nameEnd text (i + 1) else i
  else i
termination_by text.length - i

/-- The place behind the opener of a dollar quote whose first dollar sign is at `i`. -/
def tagEnd? (text : List UInt8) (i : Nat) : Option Nat :=
  if text[i + 1]?.any fun b => !startsName b && b != '$'.toUInt8 then none
  else if text[nameEnd text (i + 1)]? = some '$'.toUInt8 then some (nameEnd text (i + 1) + 1)
  else none

/-- The first place from `i` on where the text goes on with the pattern. -/
def find? (pattern text : List UInt8) (i : Nat) : Option Nat :=
  if pattern.isPrefixOf (text.drop i) then some i
  else if i < text.length then find? pattern text (i + 1)
  else none
termination_by text.length - i

/-! ### Moves -/

/-- What the scanner does at a place. -/
inductive Move where
  /-- To copy the text up to `stop`, which was found by a search within the slices `seen`. -/
  | copy (seen : List (Nat × Nat)) (stop : Nat)
  | cast
  | name (start stop : Nat)
deriving DecidableEq, Repr

namespace Move

/-- The place after a move from `i`. -/
def next (i : Nat) : Move → Nat
  | copy _ stop => stop
  | cast => i + 2
  | name _ stop => stop

/-- The slices of the text that a move from `i` asks for, by the places where they start and end. -/
def slices (i : Nat) : Move → List (Nat × Nat)
  | copy seen stop => seen ++ [(i, stop)]
  | cast => []
  | name start stop => [(start, stop)]

end Move

/-- The move at the place `i` with the octet `b`. -/
def move (counter : Counter σ) (text : List UInt8) (i : Nat) (b : UInt8) : Move :=
  if b = '\''.toUInt8 ∨ b = '"'.toUInt8 then .copy [] (closing text b (i + 1))
  else if (b = 'E'.toUInt8 ∨ b = 'e'.toUInt8) ∧ text[i + 1]? = some '\''.toUInt8 ∧
      followsName text i = false then
    .copy [] (escapedClosing text (i + 2))
  else if b = '-'.toUInt8 ∧ text[i + 1]? = some '-'.toUInt8 then
    .copy [(i, text.length)] ((find? ['\n'.toUInt8] text i).getD text.length)
  else if b = '/'.toUInt8 ∧ text[i + 1]? = some '*'.toUInt8 then
    .copy [] (commentEnd counter text counter.one (i + 2))
  else
    match if b = '$'.toUInt8 ∧ followsName text i = false then tagEnd? text i else none with
    | some tagEnd =>
      let tag := (text.drop i).take (tagEnd - i)
      .copy [(i, tagEnd), (tagEnd, text.length)]
        (((find? tag text tagEnd).map (· + tag.length)).getD text.length)
    | none =>
      if b = ':'.toUInt8 ∧ text[i + 1]? = some ':'.toUInt8 then .cast
      else if b = ':'.toUInt8 ∧ text[i + 1]?.any startsName then
        .name (i + 1) (nameEnd text (i + 1))
      else .copy [] (i + width b)

/-! ### The way on -/

theorem le_closing (text : List UInt8) (q : UInt8) (i : Nat) :
    min i text.length ≤ closing text q i := by
  fun_induction closing text q i <;> omega

theorem le_escapedClosing (text : List UInt8) (i : Nat) :
    min i text.length ≤ escapedClosing text i := by
  fun_induction escapedClosing text i <;> omega

theorem le_commentEnd (counter : Counter σ) (text : List UInt8) (d : σ) (i : Nat) :
    min i text.length ≤ commentEnd counter text d i := by
  fun_induction commentEnd counter text d i <;> omega

theorem le_nameEnd (text : List UInt8) (i : Nat) : i ≤ nameEnd text i := by
  fun_induction nameEnd text i <;> omega

theorem lt_of_tagEnd? {text : List UInt8} {i j : Nat} (h : tagEnd? text i = some j) :
    i + 1 < j := by
  have := le_nameEnd text (i + 1)
  unfold tagEnd? at h
  split at h
  · cases h
  · split at h
    · cases h
      omega
    · cases h

theorem find?_eq_some {pattern text : List UInt8} {i j : Nat} (h : find? pattern text i = some j) :
    i ≤ j ∧ pattern <+: text.drop j := by
  fun_induction find? pattern text i with
  | case1 i hp =>
    cases h
    exact ⟨Nat.le_refl _, List.isPrefixOf_iff_prefix.1 hp⟩
  | case2 i _ _ ih =>
    obtain ⟨hle, hp⟩ := ih h
    exact ⟨by omega, hp⟩
  | case3 => cases h

theorem width_pos (b : UInt8) : 0 < width b := by
  unfold width
  repeat' split
  all_goals decide

/-- A move goes on, whatever the octets. -/
theorem lt_next (counter : Counter σ) {text : List UInt8} {i : Nat} {b : UInt8}
    (hb : text[i]? = some b) : i < (move counter text i b).next i := by
  have hi : i < text.length := (List.getElem?_eq_some_iff.1 hb).1
  unfold move
  split
  · have := le_closing text b (i + 1)
    simp only [Move.next]
    omega
  split
  · have := le_escapedClosing text (i + 2)
    simp only [Move.next]
    omega
  split
  · next hdash =>
    simp only [Move.next]
    cases hf : find? ['\n'.toUInt8] text i with
    | none => exact hi
    | some j =>
      -- at `i` there is no line feed
      obtain ⟨hle, rest, hrest⟩ := find?_eq_some hf
      have hj : text[j]? = some '\n'.toUInt8 := by
        have := congrArg (·[0]?) hrest
        simpa using this.symm
      have : i ≠ j := by
        intro hij
        rw [← hij, hb, hdash.1] at hj
        exact absurd hj (by decide)
      simp only [Option.getD_some]
      omega
  split
  · have := le_commentEnd counter text counter.one (i + 2)
    simp only [Move.next]
    omega
  split
  · next tagEnd htag =>
    have hlt : i + 1 < tagEnd := by
      split at htag
      · exact lt_of_tagEnd? htag
      · cases htag
    simp only [Move.next]
    cases hf : find? ((text.drop i).take (tagEnd - i)) text tagEnd with
    | none => exact hi
    | some j =>
      have := (find?_eq_some hf).1
      simp only [Option.map_some, Option.getD_some]
      omega
  split
  · simp [Move.next]
  split
  · have := le_nameEnd text (i + 1)
    simp only [Move.next]
    omega
  · have := width_pos b
    simp only [Move.next]
    omega

/-! ### The pass -/

/-- A place is at most the length of the text and between characters. -/
def Boundary (s : String) (i : Nat) : Prop :=
  String.Pos.Raw.IsValid s ⟨i⟩

/-- There is a slice of the text between the two places. -/
def Sliceable (s : String) (p : Nat × Nat) : Prop :=
  p.1 ≤ p.2 ∧ Boundary s p.1 ∧ Boundary s p.2

instance (s : String) (p : Nat × Nat) : Decidable (Sliceable s p) :=
  inferInstanceAs (Decidable (p.1 ≤ p.2 ∧ String.Pos.Raw.IsValid s ⟨p.1⟩ ∧
    String.Pos.Raw.IsValid s ⟨p.2⟩))

/-- The slice of the text between two places. -/
def slice? (s : String) (p : Nat × Nat) : Option String :=
  if h : Sliceable s p then some (s.extract (s.pos ⟨p.1⟩ h.2.1) (s.pos ⟨p.2⟩ h.2.2)) else none

/-- What was written so far. -/
structure Output where
  text : List Char := []
  /-- The names that have numbers, in the order of the numbers. -/
  names : List String := []
  data : List Datum := []

namespace Output

/-- Writes a text. -/
def push (out : Output) (s : String) : Output :=
  { out with text := out.text ++ s.toList }

/-- Writes the marker of a name. A name without a number takes the next one. -/
def number (b : Bindings) (out : Output) (name : String) : Except Fault Output :=
  match out.names.idxOf? name with
  | some i => .ok { out with text := out.text ++ marker i }
  | none => do
    let datum ← b.require name
    return {
      text := out.text ++ marker out.names.length
      names := out.names ++ [name]
      data := out.data ++ [datum] }

/-- The statement that was written. -/
def statement (out : Output) : Statement :=
  ⟨String.ofList out.text, out.data⟩

end Output

/-- Makes a move from `i`, if there are the slices that it asks for. -/
def Move.run (b : Bindings) (s : String) (i : Nat) (out : Output) :
    Move → Option (Except Fault Output)
  | copy seen stop => do
    let _ ← seen.mapM (slice? s)
    return .ok (out.push (← slice? s (i, stop)))
  | cast => some (.ok (out.push "::"))
  | name start stop => do
    return out.number b (← slice? s (start, stop))

/-- The octets of a string. -/
def ofString (s : String) : List UInt8 :=
  s.toByteArray.data.toList

/-- The pass from the place `i` on. -/
def rewriteFrom (counter : Counter σ) (b : Bindings) (s : String) (i : Nat) (out : Output) :
    Option (Except Fault Output) :=
  match _h : (ofString s)[i]? with
  | none => some (.ok out)
  | some c =>
    match (move counter (ofString s) i c).run b s i out with
    | some (.ok out) => rewriteFrom counter b s ((move counter (ofString s) i c).next i) out
    | failed => failed
termination_by (ofString s).length - i
decreasing_by
  have := lt_next counter _h
  have := (List.getElem?_eq_some_iff.1 _h).1
  omega

/-- The statement for an SQL text with named placeholders, made from its octets. -/
def rewrite (counter : Counter σ) (b : Bindings) (s : String) : Option (Except Fault Statement) :=
  (rewriteFrom counter b s 0 {}).map fun outcome => Output.statement <$> outcome

/-- The places that the scanner comes to. -/
inductive Reached (counter : Counter σ) (s : String) : Nat → Prop
  | start : Reached counter s 0
  | step {i : Nat} {b : UInt8} (h : Reached counter s i) (hb : (ofString s)[i]? = some b) :
      Reached counter s ((move counter (ofString s) i b).next i)

end SqlAssembly.Sql.Scanner
