import SqlAssembly.Assoc.Lemmas
import SqlAssembly.Proofs.Firsts
import SqlAssembly.Proofs.Outcome
import SqlAssembly.Proofs.Sql.Reading
import SqlAssembly.Sql.Statement
import Mathlib.Data.Finset.Card
import Mathlib.Data.Finset.Dedup
import Mathlib.Data.List.Basic

/-!
# Numbered placeholders

A placeholder's number is told by the names used before it: `numberOf uses name` is one more than
the number of distinct names before the first use of `name`.

* `idxOf_eraseDups`: this is the place of the name in the list of names that a statement goes by.
* `Bindings.statement_eq_ok_iff` and `Bindings.statement_eq_error_iff` say what the statement of a
  text is, and why there is none.
* `statement_reading` puts this together with the grammar.
-/

namespace SqlAssembly

/-- The number of a name in a text that uses the names `uses` in this order. -/
def Sql.numberOf (uses : List String) (name : String) : Nat :=
  (uses.takeWhile (· ≠ name)).toFinset.card + 1

/-- The names of the placeholders among lexemes, in their order. -/
def Sql.uses (xs : List Sql.Lexeme) : List String :=
  xs.filterMap fun x => x.name?.map String.ofList

/-- The text of a lexeme whose placeholders are numbered as in `uses`. -/
def Sql.rewritten (uses : List String) : Sql.Lexeme → String
  | .placeholder name => "$" ++ toString (Sql.numberOf uses (String.ofList name))
  | x => String.ofList x.text

namespace Sql

/-- Induction along the removal of repetitions: behind an item its repetitions are gone. -/
theorem eraseDups_induction {motive : List String → Prop} (nil : motive [])
    (cons : ∀ a l, motive (l.filter fun b => !b == a) → motive (a :: l)) (l : List String) :
    motive l := by
  induction hlen : l.length using Nat.strong_induction_on generalizing l with
  | _ k ih =>
    rcases l with _ | ⟨a, l⟩
    · exact nil
    · have hle := List.length_filter_le (fun b => !b == a) l
      rw [List.length_cons] at hlen
      exact cons a l (ih _ (by omega) _ rfl)

theorem takeWhile_filter_ne {a n : String} (h : n ≠ a) (l : List String) :
    (l.filter fun b => !b == a).takeWhile (· ≠ n) =
      (l.takeWhile (· ≠ n)).filter fun b => !b == a := by
  induction l with
  | nil => rfl
  | cons b l ih =>
    by_cases hb : b = a
    · subst hb
      simpa [Ne.symm h] using ih
    · by_cases hn : b = n
      · simp [hn, h]
      · simpa [hb, hn] using ih

theorem toFinset_filter_ne (a : String) (l : List String) :
    (l.filter fun b => !b == a).toFinset = l.toFinset.erase a := by
  ext b
  simp [and_comm]

theorem toFinset_eraseDups (l : List String) : l.eraseDups.toFinset = l.toFinset := by
  ext b
  simp [List.mem_eraseDups]

/-- The place of a name among the distinct names is the number of distinct names before it. -/
theorem idxOf_eraseDups {l : List String} {n : String} (h : n ∈ l) :
    l.eraseDups.idxOf n + 1 = numberOf l n := by
  induction l using eraseDups_induction with
  | nil => cases h
  | cons a l ih =>
    rw [List.eraseDups_cons]
    by_cases ha : n = a
    · subst ha
      simp [numberOf]
    · have hmem : n ∈ l := (List.mem_cons.1 h).resolve_left ha
      -- `a` counts once, for all its repetitions
      have hset : ∀ s : Finset String, insert a (s.erase a) = insert a s := fun s => by
        grind
      rw [List.idxOf_cons_ne _ (Ne.symm ha), Nat.succ_eq_add_one, ih (by simp [hmem, ha]),
        numberOf, numberOf, takeWhile_filter_ne ha, toFinset_filter_ne, List.takeWhile_cons,
        if_pos (by simpa using Ne.symm ha), List.toFinset_cons,
        ← Finset.card_insert_of_notMem (Finset.notMem_erase a _), hset]

/-- There are as many distinct names as names in the list without repetitions. -/
theorem length_eraseDups (l : List String) : l.eraseDups.length = l.toFinset.card := by
  rw [← toFinset_eraseDups, List.toFinset_card_of_nodup (firstsOf_eraseDups l).nodup]

/-- The first name with a property is also the first among the distinct names. -/
theorem find?_eraseDups (p : String → Bool) (l : List String) :
    l.eraseDups.find? p = l.find? p := by
  induction l using eraseDups_induction with
  | nil => rfl
  | cons a l ih =>
    rw [List.eraseDups_cons, List.find?_cons, List.find?_cons, ih, List.find?_filter]
    split
    · rfl
    · next ha =>
      congr 1
      funext b
      by_cases hb : b = a
      · simp [hb, ha]
      · simp [hb]

theorem placeholders_eq_uses (s : String) : placeholders s = uses (lexemes none s.toList) := rfl

theorem mem_uses_iff {xs : List Lexeme} {n : String} :
    n ∈ uses xs ↔ .placeholder n.toList ∈ xs := by
  simp only [uses, List.mem_filterMap, Option.map_eq_some_iff]
  constructor
  · rintro ⟨x, hx, name, hname, rfl⟩
    cases x <;> cases hname
    rwa [String.toList_ofList]
  · intro h
    exact ⟨_, h, _, rfl, String.ofList_toList⟩

/-- A placeholder of the text is rewritten by its number. -/
theorem numbered_eq_rewritten {xs : List Lexeme} {x : Lexeme} (h : x ∈ xs) :
    numbered (uses xs).eraseDups x = (rewritten (uses xs) x).toList := by
  cases x with
  | placeholder name =>
    have hmem : String.ofList name ∈ uses xs := mem_uses_iff.2 (by rwa [String.toList_ofList])
    rw [numbered, marker, idxOf_eraseDups hmem, rewritten]
    simp
  | _ => simp [numbered, rewritten]

end Sql

namespace Bindings

theorem require_eq_ok_iff {b : Bindings} {name : String} {d : Datum} :
    b.require name = .ok d ↔ b.get? name = some d := by
  unfold require
  cases b.get? name <;> simp

theorem exists_require_iff {b : Bindings} {name : String} :
    (∃ d, b.require name = .ok d) ↔ b.contains name = true := by
  simp only [require_eq_ok_iff, Assoc.contains, Option.isSome_iff_exists]

theorem require_eq_error_iff {b : Bindings} {name : String} {e : Fault} :
    b.require name = .error e ↔
      b.contains name = false ∧ e = .configuration (.unboundPlaceholder name) := by
  unfold require Assoc.contains
  cases b.get? name <;> simp [eq_comm]

theorem mapM_require_eq_ok_iff {b : Bindings} {names : List String} {data : List Datum} :
    names.mapM b.require = .ok data ↔ names.map b.get? = data.map some := by
  rw [mapM_eq_ok_iff, ← List.forall₂_eq_eq_eq, List.forall₂_map_left_iff,
    List.forall₂_map_right_iff]
  simp only [require_eq_ok_iff]

/-- The datum at the place of a name is the datum of the name. -/
theorem getElem?_idxOf {b : Bindings} {names : List String} {data : List Datum}
    (h : names.map b.get? = data.map some) {n : String} (hn : n ∈ names) :
    data[names.idxOf n]? = b.get? n := by
  have hat := congrArg (·[names.idxOf n]?) h
  simp only [List.getElem?_map, List.getElem?_idxOf hn, Option.map_some] at hat
  cases hd : data[names.idxOf n]? with
  | none => simp [hd] at hat
  | some d =>
    rw [hd] at hat
    exact (Option.some.inj hat).symm

/-- A text has a statement when its names have data, which go into the statement in the order of
their first use. -/
theorem statement_eq_ok_iff {b : Bindings} {sql : String} {s : Statement} :
    b.statement sql = .ok s ↔
      (Sql.placeholders sql).eraseDups.map b.get? = s.data.map some ∧
        s.text = String.ofList ((Sql.lexemes none sql.toList).flatMap
          (Sql.numbered (Sql.placeholders sql).eraseDups)) := by
  rw [statement, bind_eq_ok_iff]
  simp only [mapM_require_eq_ok_iff, pure_eq_ok_iff]
  constructor
  · rintro ⟨data, hdata, rfl⟩
    exact ⟨hdata, rfl⟩
  · rintro ⟨hdata, htext⟩
    exact ⟨s.data, hdata, by rw [← htext]⟩

/-- A text has no statement when a name has no datum; the first such name is the cause. -/
theorem statement_eq_error_iff {b : Bindings} {sql : String} {e : Fault} :
    b.statement sql = .error e ↔
      ∃ name, (Sql.placeholders sql).find? (fun n => !b.contains n) = some name ∧
        e = .configuration (.unboundPlaceholder name) := by
  rw [statement, bind_eq_error_iff]
  simp only [pure_ne_error, and_false, exists_false, or_false]
  rw [mapM_eq_error_iff, ← Sql.find?_eraseDups]
  simp only [List.find?_eq_some_iff_append, require_eq_error_iff, exists_require_iff,
    Bool.not_not, Bool.not_eq_true']
  constructor
  · rintro ⟨before, n, after, hl, hb, hn, he⟩
    exact ⟨n, ⟨hn, before, after, hl, hb⟩, he⟩
  · rintro ⟨n, ⟨hn, before, after, hl, hb⟩, he⟩
    exact ⟨before, n, after, hl, hb, hn, he⟩

/-- A text has a statement when all its names have data. -/
theorem exists_statement_iff {b : Bindings} {sql : String} :
    (∃ s, b.statement sql = .ok s) ↔ ∀ n ∈ Sql.placeholders sql, b.contains n = true := by
  have hfind : (∀ n ∈ Sql.placeholders sql, b.contains n = true) ↔
      (Sql.placeholders sql).find? (fun n => !b.contains n) = none := by
    simp [List.find?_eq_none]
  rw [hfind]
  cases h : b.statement sql with
  | ok s =>
    refine ⟨fun _ => ?_, fun _ => ⟨s, rfl⟩⟩
    by_contra hne
    obtain ⟨n, hn⟩ := Option.ne_none_iff_exists'.1 hne
    have := statement_eq_error_iff.2 ⟨n, hn, rfl⟩
    rw [h] at this
    cases this
  | error e =>
    obtain ⟨n, hn, -⟩ := statement_eq_error_iff.1 h
    simp [hn]

end Bindings

/-- The statement of a text is the sequence of lexemes `xs` with numbers for names. There is one
when every placeholder has a datum, and otherwise the first name without a datum is the cause. Only
the placeholders are rewritten, each as its number, and the data are those of the names, in the order
of their numbers. -/
structure Bindings.FollowsReading (b : Bindings) (sql : String) (xs : List Sql.Lexeme) : Prop where
  succeeds : (∃ s, b.statement sql = .ok s) ↔
    ∀ name, .placeholder name ∈ xs → b.contains (String.ofList name) = true
  fails : ∀ e, b.statement sql = .error e ↔
    ∃ name, (Sql.uses xs).find? (fun n => !b.contains n) = some name ∧
      e = .configuration (.unboundPlaceholder name)
  text : ∀ s, b.statement sql = .ok s →
    s.text = String.join (xs.map (Sql.rewritten (Sql.uses xs)))
  data : ∀ s, b.statement sql = .ok s →
    s.data.length = (Sql.uses xs).toFinset.card ∧
      ∀ name, .placeholder name ∈ xs →
        s.data[Sql.numberOf (Sql.uses xs) (String.ofList name) - 1]? =
          b.get? (String.ofList name)

theorem Bindings.followsReading_lexemes (b : Bindings) (sql : String) :
    b.FollowsReading sql (Sql.lexemes none sql.toList) where
  succeeds := by
    rw [exists_statement_iff, Sql.placeholders_eq_uses]
    constructor
    · intro h name hname
      exact h _ (Sql.mem_uses_iff.2 (by rwa [String.toList_ofList]))
    · intro h n hn
      have := h _ (Sql.mem_uses_iff.1 hn)
      rwa [String.ofList_toList] at this
  fails _ := statement_eq_error_iff
  text s hs := by
    obtain ⟨-, htext⟩ := statement_eq_ok_iff.1 hs
    rw [Sql.placeholders_eq_uses] at htext
    rw [htext, ← String.toList_inj, String.toList_ofList, String.toList_join, List.flatMap_map]
    exact List.flatMap_congr fun x hx => Sql.numbered_eq_rewritten hx
  data s hs := by
    obtain ⟨hdata, -⟩ := statement_eq_ok_iff.1 hs
    rw [Sql.placeholders_eq_uses] at hdata
    refine ⟨?_, fun name hname => ?_⟩
    · have := congrArg List.length hdata
      rw [List.length_map, List.length_map, Sql.length_eraseDups] at this
      exact this.symm
    · have hmem : String.ofList name ∈ Sql.uses (Sql.lexemes none sql.toList) :=
        Sql.mem_uses_iff.2 (by rwa [String.toList_ofList])
      rw [← Sql.idxOf_eraseDups hmem, Nat.add_sub_cancel]
      exact getElem?_idxOf hdata (List.mem_eraseDups.2 hmem)

/-- **The statement of a text is its reading with numbers for names.** Every text has exactly one
reading. The statement follows it if at most `2 ^ 32` comments are open at once, the outermost one
and what lies in it. -/
theorem statement_reading (b : Bindings) (sql : String) :
    ∃ xs, (∀ ys, Sql.Reading .any none ys sql.toList ↔ ys = xs) ∧
      (Sql.Reading (.upTo (2 ^ 32 - 1)) none xs sql.toList → b.FollowsReading sql xs) := by
  obtain ⟨xs, hxs⟩ := Sql.Reading.existsUnique_any none sql.toList
  refine ⟨xs, hxs, fun h => ?_⟩
  rw [← h.lexemes_eq]
  exact b.followsReading_lexemes sql

theorem statement_reading_nested_comment :
    ∃ xs, Sql.Reading (.upTo (2 ^ 32 - 1)) none xs "/* a /* b */ :c */ :x".toList ∧
      Bindings.FollowsReading ∅ "/* a /* b */ :c */ :x" xs := by
  obtain ⟨xs, hxs, hfollows⟩ := statement_reading ∅ "/* a /* b */ :c */ :x"
  have h := ((hxs xs).2 rfl).upTo_of_length_le (n := 2 ^ 32 - 1) (by decide)
  exact ⟨xs, h, hfollows h⟩

/-! ### Where the statement departs from the reading -/

/-- Openers of comments, then the end of one and a placeholder. -/
def Sql.deepComments : Nat → List Char
  | 0 => ['*', '/', ':', 'x']
  | n + 1 => '/' :: '*' :: deepComments n

namespace Sql

theorem openComment_deepComments (n : Nat) : OpenComment (n + 1) (deepComments (n + 1)) := by
  induction n with
  | zero =>
    have hx : Commented 1 [':', 'x'] [] :=
      .char (by decide) (by decide) (.char (by decide) (by decide) (.nil 1 []))
    have hcomment : Commented 1 ('/' :: '*' :: ([] ++ '*' :: '/' :: [':', 'x'])) [] :=
      .comment (.nil 0 _) hx
    exact .flat hcomment
  | succ n ih => exact .comment (.nil _ _) ih

theorem reading_deepComments (n : Nat) :
    Reading .any none [.region .blockComment (deepComments (n + 2)) false]
      (deepComments (n + 2)) := by
  have h : Starts .any none (.region .blockComment (deepComments (n + 2)) false) [] :=
    .openBlockComment ⟨n + 1, openComment_deepComments n⟩
  simpa [Lexeme.text] using Reading.cons h (.nil _)

/-- Where the counter has come round to one, the next end is that of the outermost comment. -/
theorem untilCommentEnd_deepComments {n : Nat} {d : Int32} (h : d + Int32.ofNat n = 1) :
    ∃ text, Span.untilCommentEnd d (deepComments n) = ⟨text, [':', 'x'], true⟩ := by
  induction n generalizing d with
  | zero =>
    obtain rfl : d = 1 := by simpa using h
    exact ⟨['*', '/'], rfl⟩
  | succ n ih =>
    rw [Int32.ofNat_add, Int32.add_comm (Int32.ofNat n), ← Int32.add_assoc] at h
    obtain ⟨text, htext⟩ := ih (d := d + 1) h
    refine ⟨'/' :: '*' :: text, ?_⟩
    rw [deepComments, Span.untilCommentEnd, if_pos ⟨rfl, rfl⟩, htext]
    rfl

theorem placeholders_deepComments {n : Nat} (h : 1 + Int32.ofNat n = 1) :
    placeholders (String.ofList (deepComments (n + 1))) = ["x"] := by
  obtain ⟨text, htext⟩ := untilCommentEnd_deepComments h
  have hstart : Lexeme.start none '/' ('*' :: deepComments n) =
      (.region .blockComment ('/' :: '*' :: text) true, [':', 'x']) := by
    simp [Lexeme.start, htext, Span.region]
  have hrest : ∀ prev, lexemes prev [':', 'x'] = [.placeholder ['x']] := by
    intro prev
    have hname : Starts (.counted .int32) prev (.placeholder ['x']) [] :=
      .placeholder (by decide) (by simp)
    exact reading_iff.1 (.cons hname (.nil _))
  rw [placeholders_eq_uses, String.toList_ofList, deepComments, lexemes_cons, hstart, hrest]
  rfl

/-- What follows `E'a'`, read as if the literal ended there. -/
theorem reading_behind_literal :
    Reading .any (some '\'') [.region .literal "'\\'".toList true, .placeholder ['x'],
      .region .literal ['\''] false] "'\\':x'".toList := by
  have hbackslash : Starts .any (some '\'') (.region .literal "'\\'".toList true)
      [':', 'x', '\''] :=
    .quote .literal (.char (by decide) .nil) (by decide)
  have hstops : ∀ c, ['\''].head? = some c → ¬NameChar c := by
    rintro c ⟨⟩
    decide
  have hname : Starts .any (some '\'') (.placeholder ['x']) ['\''] :=
    .placeholder (by decide) hstops
  have hquote : Starts .any (some 'x') (.region .literal ['\''] false) [] :=
    .openQuote .literal .nil
  exact .cons hbackslash (.cons hname (.cons hquote (.nil _)))

/-- The doubled quote is an escape, and so is the quote behind the backslash. -/
theorem lexemes_escapeLiteral :
    lexemes none "E'a''\\':x'".toList = [.region .escapeLiteral "E'a''\\':x'".toList true] := by
  have hbody : Escaped "a''\\':x".toList :=
    .char (by decide) (by decide) (.double (.escape _ (.char (by decide) (by decide)
      (.char (by decide) (by decide) .nil))))
  have hstart : Starts (.counted .int32) none
      (.region .escapeLiteral "E'a''\\':x'".toList true) [] :=
    .escapeLiteral (.inl rfl) not_continues_none hbody (by simp)
  exact reading_iff.1 (.cons hstart (.nil _))

end Sql

/-- The counter of open comments has 32 bits: behind `2 ^ 32 + 1` openers the first end is taken for
that of the outermost comment, so that a name within it is a placeholder. Besides, a doubled quote
is an escape in a literal with backslash escapes too: with the backslash alone, `E'a'` would be a
literal, and `:x` a placeholder behind a second one. -/
theorem statement_departs :
    (Sql.Reading .any none [.region .blockComment (Sql.deepComments (2 ^ 32 + 1)) false]
        (Sql.deepComments (2 ^ 32 + 1)) ∧
      (∅ : Bindings).statement (String.ofList (Sql.deepComments (2 ^ 32 + 1))) =
        .error (.configuration (.unboundPlaceholder "x"))) ∧
    Sql.Reading .any (some '\'') [.region .literal "'\\'".toList true, .placeholder ['x'],
        .region .literal ['\''] false] "'\\':x'".toList ∧
      (∅ : Bindings).statement "E'a''\\':x'" = .ok ⟨"E'a''\\':x'", []⟩ := by
  refine ⟨⟨Sql.reading_deepComments (2 ^ 32 - 1), ?_⟩, Sql.reading_behind_literal, ?_⟩
  · rw [Bindings.statement_eq_error_iff, Sql.placeholders_deepComments (by decide)]
    exact ⟨"x", rfl, rfl⟩
  · rw [Bindings.statement_eq_ok_iff, Sql.placeholders_eq_uses, Sql.lexemes_escapeLiteral]
    exact ⟨rfl, rfl⟩

end SqlAssembly
