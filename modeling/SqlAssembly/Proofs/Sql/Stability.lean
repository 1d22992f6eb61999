import SqlAssembly.Proofs.Sql.Numbering
import SqlAssembly.Proofs.Sql.Respelling

/-!
# The statement of a statement

A statement has numbered markers where the query had placeholders, and a marker starts with a dollar
sign, which can open a region.

* `DollarsAnchored` holds of a text whose dollar signs, where they stand outside of regions, are
  followed by a digit or continue a name.
* `lexemes_marked`: then a marker is read as single characters, and all other lexemes stay.
* `statement_stable`: hence a statement is its own statement, whatever is bound.
-/

namespace SqlAssembly

namespace Sql

/-- What stands between the lexemes is followed by a digit, or it continues a name. -/
def Anchored (before after : List Lexeme) : Prop :=
  (after.flatMap Lexeme.text).head?.any Char.isDigit = true ∨
    continuesName (before.flatMap Lexeme.text).getLast? = true

instance (before after : List Lexeme) : Decidable (Anchored before after) := instDecidableOr

/-- Every dollar sign outside of regions is followed by a digit, or it continues a name. -/
def DollarsAnchored (xs : List Lexeme) : Prop :=
  ∀ n < xs.length, xs[n]? = some (.other '$') → Anchored (xs.take n) (xs.drop (n + 1))

instance : DecidablePred DollarsAnchored := fun xs =>
  inferInstanceAs (Decidable (∀ n < xs.length, xs[n]? = some (.other '$') →
    Anchored (xs.take n) (xs.drop (n + 1))))

theorem DollarsAnchored.anchored {xs ys : List Lexeme}
    (h : DollarsAnchored (xs ++ .other '$' :: ys)) : Anchored xs ys := by
  have hn := h xs.length (by simp) (by simp)
  rwa [← List.drop_drop, List.drop_left, List.take_left, List.drop_one, List.tail_cons] at hn

theorem anchored_iff {before after : List Lexeme} : Anchored before after ↔
    (∃ d, (after.flatMap Lexeme.text).head? = some d ∧ d.isDigit = true) ∨
      Continues (before.flatMap Lexeme.text).getLast? := by
  rw [Anchored, Option.any_eq_true, continuesName_iff]

/-- The lexemes of a text once placeholders have numbers. -/
def marked (names : List String) : Lexeme → List Lexeme
  | .placeholder name => (marker (names.idxOf (String.ofList name))).map .other
  | x => [x]

theorem flatMap_text_marked (names : List String) (x : Lexeme) :
    (marked names x).flatMap Lexeme.text = numbered names x := by
  cases x with
  | placeholder name =>
    rw [marked, numbered, List.flatMap_map]
    exact List.flatMap_singleton' _
  | _ => simp [marked, numbered]

/-- The text of a statement is the respelled text of the query. -/
theorem respelled_marked (names : List String) (xs : List Lexeme) :
    respelled (marked names) xs = xs.flatMap (numbered names) := by
  rw [respelled, List.flatMap_assoc]
  exact List.flatMap_congr fun x _ => flatMap_text_marked names x

/-! ### Markers -/

theorem not_nameStart_of_isDigit {d : Char} (hd : d.isDigit = true) : ¬NameStart d := by
  simp only [Char.isDigit, Bool.and_eq_true, decide_eq_true_eq, UInt32.le_iff_toNat_le] at hd
  have hnine : '9'.val.toNat = 57 := rfl
  simp only [NameStart, Char.le_def, UInt32.le_iff_toNat_le]
  rintro (⟨h, -⟩ | ⟨h, -⟩ | rfl)
  · have ha : 'a'.val.toNat = 97 := rfl
    omega
  · have hA : 'A'.val.toNat = 65 := rfl
    omega
  · revert hd
    decide

/-- A digit opens nothing. -/
theorem not_opens_digit {d : Char} (hd : d.isDigit = true) (prev : Option Char) (t : List Char) :
    ¬Opens prev (d :: t) := by
  intro h
  generalize e : d :: t = s at h
  cases h with
  | quote hq _ => cases hq <;> cases e <;> revert hd <;> decide
  | escapeLiteral hc _ _ =>
    obtain ⟨rfl, -⟩ := List.cons.inj e
    rcases hc with rfl | rfl <;> revert hd <;> decide
  | dollarQuote ht _ _ =>
    obtain ⟨name, rfl, -⟩ := ht
    obtain ⟨rfl, -⟩ := List.cons.inj e
    revert hd
    decide
  | _ =>
    obtain ⟨rfl, -⟩ := List.cons.inj e
    revert hd
    decide

/-- A dollar sign before a digit opens nothing. -/
theorem not_opens_marker {d : Char} (hd : d.isDigit = true) (prev : Option Char) (t : List Char) :
    ¬Opens prev ('$' :: d :: t) := by
  rw [opens_dollar_iff]
  rintro ⟨-, name, rest, rfl | hn, e⟩
  · obtain ⟨rfl, -⟩ := List.cons.inj e
    revert hd
    decide
  · obtain ⟨c, name, rfl, hc⟩ := hn.exists_cons
    obtain ⟨rfl, -⟩ := List.cons.inj e
    exact not_nameStart_of_isDigit hd hc

theorem lexemes_digits {digits : List Char} (hd : ∀ d ∈ digits, d.isDigit = true)
    (prev : Option Char) (rest : List Char) :
    lexemes prev (digits ++ rest) =
      digits.map .other ++ lexemes (digits.getLast?.or prev) rest := by
  induction digits generalizing prev with
  | nil => rfl
  | cons d digits ih =>
    obtain ⟨hd, hdigits⟩ := List.forall_mem_cons.1 hd
    rw [List.cons_append, lexemes_cons, Lexeme.start_other (not_opens_digit hd prev _),
      ih hdigits]
    cases hlast : digits.getLast? <;> simp [List.getLast?_cons, hlast, Lexeme.text]

/-- A marker is read as single characters, and goes on like the name of a placeholder. -/
theorem lexemes_marker (i : Nat) {name : List Char} (hn : IsName name) (prev : Option Char)
    (rest : List Char) : lexemes prev (marker i ++ rest) =
      (marker i).map .other ++ lexemes (Lexeme.placeholder name).text.getLast? rest := by
  have hdigits : ∀ d ∈ Nat.toDigits 10 (i + 1), d.isDigit = true := fun d hd =>
    Nat.isDigit_of_mem_toDigits (by decide) (by decide) hd
  obtain ⟨d, t, hdt⟩ := List.exists_cons_of_ne_nil (Nat.toDigits_ne_nil (n := i + 1) (b := 10))
  have hd : d.isDigit = true := hdigits d (by simp [hdt])
  have hno : ¬Opens prev ('$' :: (Nat.toDigits 10 (i + 1) ++ rest)) := by
    rw [hdt]
    exact not_opens_marker hd prev _
  rw [marker, List.cons_append, lexemes_cons, Lexeme.start_other hno, lexemes_digits hdigits,
    List.map_cons, List.cons_append]
  -- both the number and the name end with a character of a name
  refine congrArg (fun ys => Lexeme.other '$' :: (_ ++ ys))
    (lexemes_congr (iff_of_true ?_ hn.continues_placeholder) rest)
  have hlast := List.getLast?_eq_some_getLast (Nat.toDigits_ne_nil (n := i + 1) (b := 10))
  rw [hlast]
  refine ⟨_, rfl, .inl (isNameChar_iff.1 ?_)⟩
  simp [isNameChar, Char.isAlphanum, hdigits _ (List.getLast_mem Nat.toDigits_ne_nil)]

theorem respelling_marked (names : List String) : Respelling (marked names) where
  kept x hx := by
    cases x with
    | placeholder name => cases hx
    | _ => rfl
  head name _ := by
    rw [flatMap_text_marked]
    exact ⟨_, .inr rfl⟩
  read name hn prev rest _ := by
    rw [flatMap_text_marked]
    exact lexemes_marker _ hn prev rest

/-- A dollar sign that is followed by a digit or continues a name opens nothing when placeholders
have numbers. -/
theorem Anchored.not_opens {l : List Char} {xs ys : List Lexeme} (h : Anchored xs ys)
    (hxs : lexemes none l = xs ++ .other '$' :: ys) (names : List String) :
    ¬Opens (xs.flatMap Lexeme.text).getLast? ('$' :: respelled (marked names) ys) := by
  rcases anchored_iff.1 h with ⟨d, hd, hdigit⟩ | hp
  · obtain ⟨prev, htail⟩ : ∃ prev, lexemes prev (ys.flatMap Lexeme.text) = ys :=
      ⟨_, lexemes_tail (hxs.trans (List.append_cons xs _ ys))⟩
    have hsame := (respelling_marked names).sameStart prev (ys.flatMap Lexeme.text)
    rw [htail] at hsame
    have hcolon : d ≠ ':' := by
      rintro rfl
      revert hdigit
      decide
    obtain ⟨t, ht⟩ := hsame.exists_cons hcolon hd
    rw [ht]
    exact not_opens_marker hdigit _ t
  · exact fun ho => (opens_dollar_iff.1 ho).1 hp

/-- In the text of a statement the markers are single characters, and all other lexemes are those of
the query. -/
theorem lexemes_marked {l : List Char} (h : DollarsAnchored (lexemes none l))
    (names : List String) : lexemes none ((lexemes none l).flatMap (numbered names)) =
      (lexemes none l).flatMap (marked names) := by
  rw [← respelled_marked]
  refine (respelling_marked names).lexemes_respelled fun xs ys hxs => ?_
  rw [Option.or_none]
  rw [hxs] at h
  exact h.anchored.not_opens hxs names

theorem uses_marked (names : List String) (xs : List Lexeme) :
    uses (xs.flatMap (marked names)) = [] := by
  rw [List.eq_nil_iff_forall_not_mem]
  intro n hn
  obtain ⟨x, -, hx⟩ := List.mem_flatMap.1 (mem_uses_iff.1 hn)
  cases x with
  | placeholder name =>
    obtain ⟨c, -, hc⟩ := List.mem_map.1 hx
    cases hc
  | _ => cases List.mem_singleton.1 hx

end Sql

open Sql

/-- A text without placeholders is its own statement. -/
theorem Bindings.statement_of_placeholders_eq_nil (b : Bindings) {sql : String}
    (h : placeholders sql = []) : b.statement sql = .ok ⟨sql, []⟩ := by
  rw [Bindings.statement_eq_ok_iff, h]
  refine ⟨rfl, ?_⟩
  have htext : ∀ x ∈ lexemes none sql.toList, numbered [].eraseDups x = x.text := by
    intro x hx
    cases x with
    | placeholder name =>
      rw [placeholders_eq_uses] at h
      have : String.ofList name ∈ uses (lexemes none sql.toList) :=
        mem_uses_iff.2 (by rwa [String.toList_ofList])
      rw [h] at this
      cases this
    | _ => rfl
  rw [List.flatMap_congr htext, flatMap_text_lexemes, String.ofList_toList]

/-- **A statement is its own statement.** Let every dollar sign of a query that stands outside of
regions be followed by a digit or continue a name. Then the markers of its statement are single
characters, all other lexemes are those of the query, and no placeholder is left; so the statement
of the statement's text is that text without data, whatever is bound. -/
theorem statement_stable {b : Bindings} {sql : String} {s : Statement}
    (hs : b.statement sql = .ok s) (hd : DollarsAnchored (lexemes none sql.toList)) :
    lexemes none s.text.toList =
        (lexemes none sql.toList).flatMap (marked (placeholders sql).eraseDups) ∧
      placeholders s.text = [] ∧ ∀ b' : Bindings, b'.statement s.text = .ok ⟨s.text, []⟩ := by
  obtain ⟨-, htext⟩ := Bindings.statement_eq_ok_iff.1 hs
  have hlex : lexemes none s.text.toList =
      (lexemes none sql.toList).flatMap (marked (placeholders sql).eraseDups) := by
    rw [htext, String.toList_ofList]
    exact lexemes_marked hd _
  have hnone : placeholders s.text = [] := by
    rw [placeholders_eq_uses, hlex]
    exact uses_marked _ _
  exact ⟨hlex, hnone, fun b' => b'.statement_of_placeholders_eq_nil hnone⟩

/-- A query with dollar signs in names, in front of a placeholder and around a literal. -/
def dollarQuery : String :=
  "SELECT a$b, $1, a$:n FROM t$ WHERE x = $q$ :n $q$ OR x = :m::text"

theorem statement_stable_dollarQuery :
    (∅ : Bindings).statement
        "SELECT a$b, $1, a$$1 FROM t$ WHERE x = $q$ :n $q$ OR x = $2::text" =
      .ok ⟨"SELECT a$b, $1, a$$1 FROM t$ WHERE x = $q$ :n $q$ OR x = $2::text", []⟩ := by
  have hs : Bindings.statement (Assoc.ofList [("n", .int 1), ("m", .text "x")]) dollarQuery =
      .ok ⟨"SELECT a$b, $1, a$$1 FROM t$ WHERE x = $q$ :n $q$ OR x = $2::text",
        [.int 1, .text "x"]⟩ := by
    have hnames : (placeholders dollarQuery).eraseDups = ["n", "m"] := by decide +kernel
    rw [Bindings.statement_eq_ok_iff, hnames]
    exact ⟨rfl, by decide +kernel⟩
  exact (statement_stable hs (by decide +kernel)).2.2 ∅

end SqlAssembly
