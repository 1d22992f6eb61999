import SqlAssembly.Proofs.Sql.Composition

/-!
# Nested parentheses

How the parentheses of a text divide it, where those within regions do not count.

* `Balanced` holds of lexemes whose parentheses close what they open, and nothing else.
* `pieces?` reads a text as the texts outside of all parentheses and the contents of the outermost
  ones. It goes over the lexemes from left to right, with the depth at each of them.
* `flatMap_written_of_pieces?`: the pieces, written one after the other, are the text.
* `Nest.run_of_pos`: as long as some parenthesis stays open, what is read goes into one content.
* `Nest.run_group`: a balanced text in parentheses is read as one group.
-/

namespace SqlAssembly.Sql

/-! ### Depth -/

/-- How many more parentheses the lexemes open than they close. -/
def height (xs : List Lexeme) : Int :=
  xs.count (.other '(') - xs.count (.other ')')

@[simp] theorem height_nil : height [] = 0 := rfl

theorem height_cons (x : Lexeme) (xs : List Lexeme) :
    height (x :: xs) = height [x] + height xs := by
  simp only [height, List.count_cons, List.count_nil]
  omega

/-- The depth never goes below zero, and ends there. -/
def Balanced (xs : List Lexeme) : Prop :=
  (∀ ys ∈ xs.inits, 0 ≤ height ys) ∧ height xs = 0

instance : DecidablePred Balanced := fun _ => instDecidableAnd

/-! ### Reading -/

/-- A part of a text between parentheses. -/
inductive Piece where
  | outer (text : String)
  | group (content : String)
deriving DecidableEq, Repr

/-- The content of a group. -/
def Piece.content? : Piece → Option String
  | outer _ => none
  | group content => some content

/-- The characters of a piece, with the parentheses of a group. -/
def Piece.written : Piece → List Char
  | outer text => text.toList
  | group content => '(' :: (content.toList ++ [')'])

/-- How far a text is read. -/
structure Nest where
  pieces : List Piece
  /-- The characters of the piece that goes on. -/
  current : List Char
  depth : Nat

namespace Nest

/-- The pieces outside of parentheses, of which nothing is open. -/
def outside (s : Nest) : List Piece :=
  if s.current = [] then s.pieces else s.pieces ++ [.outer (String.ofList s.current)]

/-- Reads one more lexeme. A parenthesis that closes nothing is not read. -/
def step (s : Nest) (x : Lexeme) : Option Nest :=
  if x = .other '(' then
    if s.depth = 0 then some ⟨s.outside, [], 1⟩
    else some ⟨s.pieces, s.current ++ x.text, s.depth + 1⟩
  else if x = .other ')' then
    if s.depth = 0 then none
    else if s.depth = 1 then some ⟨s.pieces ++ [.group (String.ofList s.current)], [], 0⟩
    else some ⟨s.pieces, s.current ++ x.text, s.depth - 1⟩
  else some ⟨s.pieces, s.current ++ x.text, s.depth⟩

/-- Reads lexemes one after the other. -/
def run (s : Nest) (xs : List Lexeme) : Option Nest :=
  xs.foldlM step s

theorem run_cons (s : Nest) (x : Lexeme) (xs : List Lexeme) :
    s.run (x :: xs) = (s.step x).bind fun s => s.run xs :=
  List.foldlM_cons

/-- All characters that are read. -/
def written (s : Nest) : List Char :=
  s.pieces.flatMap Piece.written ++ (if s.depth = 0 then [] else ['(']) ++ s.current

theorem flatMap_written_outside (s : Nest) :
    s.outside.flatMap Piece.written = s.pieces.flatMap Piece.written ++ s.current := by
  unfold outside
  split
  · next h => rw [h, List.append_nil]
  · simp [Piece.written]

theorem written_step {s t : Nest} {x : Lexeme} (h : s.step x = some t) :
    t.written = s.written ++ x.text := by
  unfold step at h
  split at h
  · next hx =>
    split at h
    · next hs =>
      cases h
      simp [written, flatMap_written_outside, hs, hx, Lexeme.text]
    · next hs =>
      cases h
      simp [written, hs]
  split at h
  · next hx =>
    split at h
    · cases h
    split at h
    · next hs =>
      cases h
      simp [written, Piece.written, hs, hx, Lexeme.text]
    · next hs hs' =>
      cases h
      have hkeep : s.depth - 1 ≠ 0 := by omega
      simp [written, hs, hkeep]
  · cases h
    simp [written]

theorem written_run {s t : Nest} {xs : List Lexeme} (h : s.run xs = some t) :
    t.written = s.written ++ xs.flatMap Lexeme.text := by
  induction xs generalizing s with
  | nil =>
    cases h
    simp
  | cons x xs ih =>
    rw [run_cons, Option.bind_eq_some_iff] at h
    obtain ⟨u, hu, hrun⟩ := h
    rw [ih hrun, written_step hu, List.append_assoc, List.flatMap_cons]

theorem run_append (s : Nest) (xs ys : List Lexeme) :
    s.run (xs ++ ys) = (s.run xs).bind fun s => s.run ys :=
  List.foldlM_append

end Nest

/-- The pieces of a text, if its parentheses match. -/
def pieces? (sql : String) : Option (List Piece) := do
  let s ← Nest.run ⟨[], [], 0⟩ (lexemes none sql.toList)
  if s.depth = 0 then some s.outside else none

/-- The pieces that are read make up the text. -/
theorem flatMap_written_of_pieces? {sql : String} {pieces : List Piece}
    (h : pieces? sql = some pieces) : pieces.flatMap Piece.written = sql.toList := by
  rw [pieces?, Option.bind_eq_bind, Option.bind_eq_some_iff] at h
  obtain ⟨s, hs, h⟩ := h
  split at h
  · next hzero =>
    cases h
    have hwritten := Nest.written_run hs
    rw [flatMap_text_lexemes] at hwritten
    simpa [Nest.written, Nest.flatMap_written_outside, hzero] using hwritten
  · cases h

namespace Nest

/-- As long as some parenthesis stays open, a lexeme goes into the content. -/
theorem step_of_pos {s : Nest} {x : Lexeme} (hs : 0 < s.depth) (hx : 0 < s.depth + height [x]) :
    s.step x = some ⟨s.pieces, s.current ++ x.text, (s.depth + height [x]).toNat⟩ := by
  unfold step
  split
  · next h =>
    have hopen : height [x] = 1 := by rw [h]; decide
    rw [if_neg hs.ne', hopen]
    rfl
  split
  · next h =>
    have hclose : height [x] = -1 := by rw [h]; decide
    rw [hclose] at hx ⊢
    rw [if_neg hs.ne', if_neg (by omega)]
    congr 2
    omega
  · next ho hc =>
    have hkeep : height [x] = 0 := by simp [height, ho, hc]
    simp [hkeep]

/-- As long as some parenthesis stays open, all lexemes go into the content. -/
theorem run_of_pos {s : Nest} {xs : List Lexeme} (h : ∀ ys ∈ xs.inits, 0 < s.depth + height ys) :
    s.run xs = some ⟨s.pieces, s.current ++ xs.flatMap Lexeme.text,
      (s.depth + height xs).toNat⟩ := by
  induction xs generalizing s with
  | nil => simp [run]
  | cons x xs ih =>
    have hs : 0 < s.depth := by simpa using h [] (by simp)
    have hx : 0 < s.depth + height [x] := h [x] (by simp)
    have htail : ∀ ys ∈ xs.inits, 0 < ((s.depth + height [x]).toNat : Int) + height ys := by
      intro ys hys
      have := h (x :: ys) (by simpa using hys)
      rw [height_cons] at this
      omega
    rw [run_cons, step_of_pos hs hx, Option.bind_some, ih htail, height_cons x xs]
    simp only [List.flatMap_cons, List.append_assoc]
    congr 2
    omega

/-- A balanced text in parentheses is one group. -/
theorem run_group (pieces : List Piece) (current : List Char) {xs : List Lexeme}
    (h : Balanced xs) : run ⟨pieces, current, 0⟩ (.other '(' :: (xs ++ [.other ')'])) =
      some ⟨outside ⟨pieces, current, 0⟩ ++ [.group (String.ofList (xs.flatMap Lexeme.text))], [],
        0⟩ := by
  have hinner : ∀ ys ∈ xs.inits, (0 : Int) < (1 : Nat) + height ys := by
    intro ys hys
    have := h.1 ys hys
    omega
  rw [run_cons, step, if_pos rfl, if_pos rfl, Option.bind_some, run_append, run_of_pos hinner, h.2]
  rfl

/-- Single characters other than parentheses stay outside. -/
theorem run_outer (pieces : List Piece) (current : List Char) {l : List Char}
    (hl : '(' ∉ l ∧ ')' ∉ l) :
    run ⟨pieces, current, 0⟩ (l.map .other) = some ⟨pieces, current ++ l, 0⟩ := by
  induction l generalizing current with
  | nil => simp [run]
  | cons c l ih =>
    simp only [List.mem_cons, not_or] at hl
    obtain ⟨⟨ho, hol⟩, hc, hcl⟩ := hl
    rw [List.map_cons, run_cons, step, if_neg (by simpa using Ne.symm ho),
      if_neg (by simpa using Ne.symm hc), Option.bind_some, ih _ ⟨hol, hcl⟩]
    simp [Lexeme.text]

end Nest

end SqlAssembly.Sql
