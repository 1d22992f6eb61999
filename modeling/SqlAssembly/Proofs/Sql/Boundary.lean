import SqlAssembly.Proofs.Sql.Reading

/-!
# Texts put together

What the lexemes of a text are when it goes on with an inert character, one that belongs to no name,
opener or end of a region.

* `lexemes_append_inert`: a closed text keeps its lexemes, and what comes after the character is
  read as if it stood alone.
* `extends_lexemes`: a text that ends inside a region keeps its lexemes too, but for the last one,
  which takes up more characters.
* `lexemes_eq_map_other`: a text without quotes, dollar signs, colons, slashes and hyphens is a
  sequence of single characters.
-/

namespace SqlAssembly.Sql

/-- The character belongs to no name, opener or end of a region. -/
def Inert (c : Char) : Prop :=
  isNameChar c = false ∧ c ∉ ['\'', '"', '$', ':', '-', '/', '*']

instance : DecidablePred Inert := fun c =>
  inferInstanceAs (Decidable (isNameChar c = false ∧ c ∉ ['\'', '"', '$', ':', '-', '/', '*']))

theorem Inert.not_nameChar {c : Char} (h : Inert c) : ¬NameChar c := by
  rw [← isNameChar_iff, h.1]
  exact Bool.false_ne_true

theorem Inert.not_continues {c : Char} (h : Inert c) : ¬Continues (some c) := by
  rintro ⟨_, ⟨⟩, hc | rfl⟩
  · exact h.not_nameChar hc
  · exact h.2 (by decide)

theorem Inert.not_mem_tag {c : Char} {tag : List Char} (h : Inert c) (ht : IsTag tag) :
    c ∉ tag := by
  obtain ⟨name, rfl, hn⟩ := ht
  intro hc
  have hdollar : c ≠ '$' := fun e => h.2 (by simp [e])
  have hmem : c ∈ name := by simpa [hdollar] using hc
  rcases hn with rfl | hn
  · cases hmem
  · exact h.not_nameChar (hn.forall_nameChar c hmem)

/-! ### Openers and contents do not reach over an inert character -/

theorem Opens.of_append {prev : Option Char} {d : Char} (hd : Inert d) {l t : List Char}
    (h : Opens prev (l ++ d :: t)) : Opens prev l := by
  -- an opener is a word that the text starts with, and no such word holds `d`
  have word : ∀ p r : List Char, l ++ d :: t = p ++ r → d ∉ p →
      (∀ r, Opens prev (p ++ r)) → Opens prev l := by
    intro p r e hp ho
    obtain ⟨u, rfl⟩ := Text.prefix_of_not_mem ⟨r, e.symm⟩ hp
    exact ho u
  have hne : ∀ c ∈ ['\'', '"', '$', ':', '-', '/', '*'], c ≠ d := fun c hc e => hd.2 (e ▸ hc)
  have hname : ∀ c, NameChar c → c ≠ d := fun c hc e => hd.not_nameChar (e ▸ hc)
  generalize e : l ++ d :: t = s at h
  cases h with
  | @quote q kind hq r =>
    have hqd : q ≠ d := by cases hq <;> exact hne _ (by decide)
    exact word [q] r e (by simpa using hqd.symm) fun r => .quote hq r
  | @escapeLiteral c hc hp r =>
    have hcd : c ≠ d := by
      rcases hc with rfl | rfl <;> exact hname _ (isNameChar_iff.1 (by decide))
    exact word [c, '\''] r e (by simpa using ⟨hcd.symm, (hne '\'' (by decide)).symm⟩)
      fun r => .escapeLiteral hc hp r
  | lineComment r =>
    exact word ['-', '-'] r e (by simpa using (hne '-' (by decide)).symm) .lineComment
  | blockComment r =>
    exact word ['/', '*'] r e
      (by simpa using ⟨(hne '/' (by decide)).symm, (hne '*' (by decide)).symm⟩) .blockComment
  | @dollarQuote tag ht hp r => exact word tag r e (hd.not_mem_tag ht) fun r => .dollarQuote ht hp r
  | cast r => exact word [':', ':'] r e (by simpa using (hne ':' (by decide)).symm) .cast
  | @placeholder c hc r =>
    exact word [':', c] r e
      (by simpa using ⟨(hne ':' (by decide)).symm, (hname c (.inl hc)).symm⟩)
      fun r => .placeholder hc r

theorem Inert.not_opens {d : Char} (hd : Inert d) (prev : Option Char) (t : List Char) :
    ¬Opens prev (d :: t) := by
  intro h
  have hnil : Opens prev [] := Opens.of_append hd (l := []) h
  generalize e : [] = s at hnil
  cases hnil with
  | dollarQuote ht hp l =>
    obtain ⟨name, rfl, -⟩ := ht
    cases e
  | _ => cases e

/-! ### A lexeme with an end -/

/-- A lexeme with an end stays the first one when the text goes on with an inert character. -/
theorem Starts.append {prev : Option Char} {x : Lexeme} {rest : List Char}
    (h : Starts (.counted .int32) prev x rest) (hx : x.isClosed = true) {d : Char} (hd : Inert d)
    (t : List Char) : Starts (.counted .int32) prev x (rest ++ d :: t) := by
  have head : ∀ p : Char → Prop, ¬p d → (∀ c, rest.head? = some c → ¬p c) →
      ∀ c, (rest ++ d :: t).head? = some c → ¬p c := by
    intro p hpd hp c hc
    cases rest with
    | nil => cases hc; exact hpd
    | cons e rest => exact hp c hc
  cases h with
  | @quote q kind body rest hq hb hr =>
    have hqd : d ≠ q := by rintro rfl; cases hq <;> exact hd.2 (by decide)
    exact .quote hq hb fun e => head (· = q) hqd (fun c hc hcq => hr (hcq ▸ hc)) q e rfl
  | @escapeLiteral c body rest hc hp hb hr =>
    have hqd : d ≠ '\'' := by rintro rfl; exact hd.2 (by decide)
    exact .escapeLiteral hc hp hb fun e =>
      head (· = '\'') hqd (fun c hc hcq => hr (hcq ▸ hc)) _ e rfl
  | lineComment hb rest => exact .lineComment hb (rest ++ d :: t)
  | blockComment hb => exact .blockComment (Nesting.ended_counted_congr _ hb _)
  | dollarQuote ht hp hb rest => exact .dollarQuote ht hp hb _
  | cast rest => exact .cast _
  | placeholder hn hr => exact .placeholder hn (head NameChar hd.not_nameChar hr)
  | other h => exact .other fun ho => h (ho.of_append hd)
  | openQuote | openEscapeLiteral | openLineComment | openBlockComment | openDollarQuote => cases hx

/-! ### A region without an end -/

theorem Starts.rest_eq_nil {N : Nesting} {prev : Option Char} {x : Lexeme} {rest : List Char}
    (h : Starts N prev x rest) (hx : x.isClosed = false) : rest = [] := by
  cases h <;> first | rfl | cases hx

/-- A comment without an end goes on over an inert character. -/
theorem exists_untilCounted_append {σ : Type} (counter : Counter σ) {e : σ} {body : List Char}
    (h : (untilCounted counter e body).closed = false) {d : Char} (hd : Inert d) (t : List Char) :
    ∃ e', untilCounted counter e (body ++ d :: t) =
      (untilCounted counter e' (d :: t)).push body := by
  have hslash : d ≠ '/' := by rintro rfl; exact hd.2 (by decide)
  have hstar : d ≠ '*' := by rintro rfl; exact hd.2 (by decide)
  fun_induction untilCounted counter e body with
  | case1 e => exact ⟨e, rfl⟩
  | case2 e c =>
    refine ⟨e, ?_⟩
    rw [List.singleton_append, untilCounted, if_neg fun h => hstar h.2, if_neg fun h => hslash h.2]
  | case3 e a b rest ho ih =>
    obtain ⟨e', he'⟩ := ih h
    refine ⟨e', ?_⟩
    rw [List.cons_append, List.cons_append, untilCounted, if_pos ho, he', Span.push_push]
    rfl
  | case4 => cases h
  | case5 e a b rest ho hc e₁ he₁ ih =>
    obtain ⟨e', he'⟩ := ih h
    refine ⟨e', ?_⟩
    simp only [List.cons_append, untilCounted, if_neg ho, if_pos hc, he₁, he', Span.push_push,
      List.nil_append]
  | case6 e a b rest ho hc ih =>
    obtain ⟨e', he'⟩ := ih h
    refine ⟨e', ?_⟩
    rw [List.cons_append, List.cons_append, untilCounted, if_neg ho, if_neg hc, ← List.cons_append,
      he', Span.push_push]
    rfl

namespace Span

theorem untilTag_open_append {tag body : List Char} (h : ¬tag <:+: body) {d : Char} (hd : d ∉ tag)
    (t : List Char) : untilTag tag (body ++ d :: t) = (untilTag tag (d :: t)).push body := by
  induction body with
  | nil => rfl
  | cons c body ih =>
    obtain ⟨hp, hi⟩ := not_or.1 (mt List.infix_cons_iff.2 h)
    have hn : ¬tag.isPrefixOf (c :: (body ++ d :: t)) := by
      rw [List.isPrefixOf_iff_prefix]
      exact fun hp' => hp (Text.prefix_of_not_mem (l := c :: body) hp' hd)
    rw [List.cons_append, untilTag, if_neg hn, ih hi, push_push]
    rfl

end Span

/-- A region without an end takes up a part of the text that is put behind it. -/
theorem Starts.grow {prev : Option Char} {x : Lexeme} {rest : List Char}
    (h : Starts (.counted .int32) prev x rest) (hx : x.isClosed = false) {d : Char} (hd : Inert d)
    (t : List Char) :
    ∃ kind s c l, x = .region kind (c :: l) false ∧ Span.Covers s (d :: t) ∧
      Lexeme.start prev c (l ++ d :: t) = (.region kind (c :: l ++ s.text) s.closed, s.rest) := by
  cases h with
  | @openQuote q kind body hq hb =>
    refine ⟨kind, _, q, body, rfl, Span.covers_untilQuote q _, ?_⟩
    rw [Lexeme.start_quote hq, Span.untilQuote_append hb]
    rfl
  | @openEscapeLiteral c body last hc hp hb hl =>
    rcases hl with rfl | rfl
    · refine ⟨.escapeLiteral, _, c, '\'' :: body, by simp, Span.covers_untilEscapedQuote _, ?_⟩
      rw [List.cons_append, Lexeme.start_escapeLiteral hc hp, Span.untilEscapedQuote_append hb]
      rfl
    · -- the last backslash escapes `d`
      refine ⟨_, _, c, '\'' :: (body ++ ['\\']), rfl,
        (Span.covers_untilEscapedQuote t).push [d], ?_⟩
      rw [List.cons_append, Lexeme.start_escapeLiteral hc hp, List.append_assoc,
        Span.untilEscapedQuote_append hb, List.singleton_append, Span.untilEscapedQuote, if_pos rfl]
      simp [Span.region, Span.push]
  | @openLineComment body hb =>
    refine ⟨_, _, '-', '-' :: body, rfl, Span.covers_untilLineFeed _, ?_⟩
    rw [List.cons_append, Lexeme.start_lineComment, Span.untilLineFeed_append hb]
    rfl
  | @openBlockComment body hb =>
    obtain ⟨n, hn⟩ := exists_untilCounted_append .int32 (congrArg Span.closed hb) hd t
    refine ⟨_, _, '/', '*' :: body, rfl, covers_untilCounted .int32 n _, ?_⟩
    rw [List.cons_append, ← Lexeme.startCounted_int32, Lexeme.startCounted, if_pos ⟨rfl, rfl⟩,
      List.tail_cons, hn]
    rfl
  | @openDollarQuote tag body ht hp hb =>
    have hdt := hd.not_mem_tag ht
    obtain ⟨name, rfl, hn⟩ := ht
    refine ⟨.dollarQuote, _, '$', name ++ '$' :: body, by simp,
      Span.covers_untilTag ('$' :: (name ++ ['$'])) _, ?_⟩
    rw [List.append_assoc, List.cons_append, Lexeme.start_dollarQuote hn hp,
      Span.untilTag_open_append hb hdt]
    simp [Span.region, Span.push]
  | _ => cases hx

/-! ### Sequences of lexemes -/

/-- What stands before a text matters only as far as it continues a name. -/
theorem lexemes_congr {p q : Option Char} (h : Continues p ↔ Continues q) (l : List Char) :
    lexemes p l = lexemes q l := by
  cases l with
  | nil => simp [lexemes]
  | cons c l =>
    have hpq : continuesName p = continuesName q := by
      rw [Bool.eq_iff_iff, continuesName_iff, continuesName_iff, h]
    have hstart : Lexeme.start p c l = Lexeme.start q c l := by
      simp only [Lexeme.start, hpq]
    rw [lexemes_cons, lexemes_cons, hstart]

/-- An inert character is a lexeme of its own, and what follows is read as if it stood alone. -/
theorem lexemes_inert_cons {d : Char} (hd : Inert d) (p : Option Char) (t : List Char) :
    lexemes p (d :: t) = .other d :: lexemes none t := by
  rw [lexemes_cons, Lexeme.start_other (hd.not_opens p t)]
  have h : Continues (some d) ↔ Continues none :=
    iff_of_false hd.not_continues not_continues_none
  exact congrArg _ (lexemes_congr h t)

/-- A closed text keeps its lexemes when it goes on with an inert character. -/
theorem lexemes_append_inert {prev : Option Char} {l : List Char}
    (hl : ∀ x ∈ lexemes prev l, x.isClosed = true) {d : Char} (hd : Inert d) (t : List Char) :
    lexemes prev (l ++ d :: t) = lexemes prev l ++ .other d :: lexemes none t := by
  fun_induction lexemes prev l with
  | case1 prev => exact lexemes_inert_cons hd prev t
  | case2 prev c l x _ ih =>
    obtain ⟨hx, hrest⟩ := List.forall_mem_cons.1 hl
    have h := (starts_start prev c l).append hx hd t
    rw [← Lexeme.start_covers prev c l, List.append_assoc, h.lexemes_eq, ih hrest]
    rfl

/-- The lexemes `ys` go on where `xs` ends, either behind it or within its last region. -/
def Extends (xs ys : List Lexeme) : Prop :=
  xs <+: ys ∨ ∃ zs kind text more closed rest, xs = zs ++ [.region kind text false] ∧
    ys = zs ++ .region kind (text ++ more) closed :: rest

theorem Extends.cons {xs ys : List Lexeme} (h : Extends xs ys) (x : Lexeme) :
    Extends (x :: xs) (x :: ys) := by
  rcases h with h | ⟨zs, kind, text, more, closed, rest, rfl, rfl⟩
  · exact .inl (List.cons_prefix_cons.2 ⟨rfl, h⟩)
  · exact .inr ⟨x :: zs, kind, text, more, closed, rest, rfl, rfl⟩

/-- A text keeps its lexemes when it goes on with an inert character, but for a last region without
an end, which may take up more. -/
theorem extends_lexemes (prev : Option Char) (l : List Char) {d : Char} (hd : Inert d)
    (t : List Char) : Extends (lexemes prev l) (lexemes prev (l ++ d :: t)) := by
  fun_induction lexemes prev l with
  | case1 prev => exact .inl List.nil_prefix
  | case2 prev c l x _ ih =>
    have h := starts_start prev c l
    have hcover := Lexeme.start_covers prev c l
    cases hx : x.1.isClosed with
    | true =>
      rw [← hcover, List.append_assoc, (h.append hx hd t).lexemes_eq]
      exact ih.cons _
    | false =>
      -- no lexeme stands behind a region without an end
      obtain ⟨kind, s, c', l', hkind, -, hstart⟩ := h.grow hx hd t
      have hnil := h.rest_eq_nil hx
      obtain ⟨rfl, rfl⟩ : c' = c ∧ l' = l := by simpa [hkind, hnil, Lexeme.text] using hcover
      refine .inr ⟨[], kind, c' :: l', s.text, s.closed,
        lexemes (c' :: l' ++ s.text).getLast? s.rest, ?_, ?_⟩
      · simp [x, hkind, hnil, lexemes]
      · rw [List.cons_append, lexemes_cons, hstart]
        rfl

/-- A text without quotes, dollar signs, colons, slashes and hyphens is a sequence of single
characters. -/
theorem lexemes_eq_map_other (prev : Option Char) {l : List Char}
    (h : ∀ c ∈ l, c ∉ ['\'', '"', '$', ':', '-', '/']) : lexemes prev l = l.map .other := by
  induction l generalizing prev with
  | nil => simp [lexemes]
  | cons c l ih =>
    obtain ⟨hc, hl⟩ := List.forall_mem_cons.1 h
    have hno : ¬Opens prev (c :: l) := by
      intro ho
      generalize e : c :: l = s at ho
      cases ho with
      | quote hq l => cases hq <;> cases e <;> exact hc (by decide)
      | escapeLiteral _ _ l => cases e; exact hl _ List.mem_cons_self (by decide)
      | dollarQuote ht _ l =>
        obtain ⟨name, rfl, -⟩ := ht
        cases e
        exact hc (by decide)
      | _ => cases e; exact hc (by decide)
    rw [lexemes_cons, Lexeme.start_other hno, ih _ hl]
    rfl

end SqlAssembly.Sql
