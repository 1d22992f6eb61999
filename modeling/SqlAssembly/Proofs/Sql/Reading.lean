import SqlAssembly.Proofs.Sql.Spans
import SqlAssembly.Proofs.Text.Runs
import Mathlib.Data.Nat.Find

/-!
# The scanner reads the grammar

* `Starts.exists_of_cons`: by the grammar alone, every text starts with some lexeme.
* `Starts.startCounted_eq`: the lexeme that a text starts with is the one that the scanner takes, if
  the ends of comments are found by counting.
* `Reading.existsUnique_any`: every text has exactly one reading, however deep comments lie in each
  other.
* `reading_iff` and `Reading.lexemes_eq`: the lexemes of the scanner are the reading with comments
  counted in 32 bits, and this is the reading of the grammar as long as the counter is not full.
-/

namespace SqlAssembly.Sql

/-! ### Every text is partitioned by the grammar -/

/-- A text after a quote is all content, or a content with its closing quote is followed by
something else. -/
theorem quoted_or_closed (q : Char) (l : List Char) :
    Quoted q l ∨ ∃ body rest, l = body ++ q :: rest ∧ Quoted q body ∧ rest.head? ≠ some q := by
  -- on the length, for a doubled quote takes two characters at once
  induction hn : l.length using Nat.strong_induction_on generalizing l with
  | _ n ih =>
    cases l with
    | nil => exact .inl .nil
    | cons c l =>
      by_cases hc : c = q
      · subst hc
        rcases l with _ | ⟨d, l⟩
        · exact .inr ⟨[], [], rfl, .nil, by simp⟩
        by_cases hd : d = c
        · subst hd
          have hlt : l.length < n := by
            rw [← hn, List.length_cons, List.length_cons]
            omega
          rcases ih l.length hlt l rfl with h | ⟨body, rest, rfl, hb, hr⟩
          · exact .inl h.double
          · exact .inr ⟨d :: d :: body, rest, rfl, hb.double, hr⟩
        · exact .inr ⟨[], d :: l, rfl, .nil, by simpa using hd⟩
      · rcases ih l.length (by simp [← hn]) l rfl with h | ⟨body, rest, rfl, hb, hr⟩
        · exact .inl (h.char hc)
        · exact .inr ⟨c :: body, rest, rfl, hb.char hc, hr⟩

/-- The same with escapes, where a last backslash may have nothing to escape. -/
theorem escaped_or_closed (l : List Char) :
    (∃ body last, l = body ++ last ∧ Escaped body ∧ (last = [] ∨ last = ['\\'])) ∨
      ∃ body rest, l = body ++ '\'' :: rest ∧ Escaped body ∧ rest.head? ≠ some '\'' := by
  induction hn : l.length using Nat.strong_induction_on generalizing l with
  | _ n ih =>
    -- whatever stands in front, a content goes on over it
    have step : ∀ front rest : List Char, l = front ++ rest → front ≠ [] →
        (∀ {b}, Escaped b → Escaped (front ++ b)) →
        (∃ body last, l = body ++ last ∧ Escaped body ∧ (last = [] ∨ last = ['\\'])) ∨
          ∃ body rest, l = body ++ '\'' :: rest ∧ Escaped body ∧ rest.head? ≠ some '\'' := by
      rintro front rest rfl hf hesc
      have hlt : rest.length < n := by
        rw [← hn, List.length_append]
        exact Nat.lt_add_of_pos_left (List.length_pos_iff.2 hf)
      rcases ih rest.length hlt rest rfl with ⟨body, last, rfl, hb, hl⟩ | ⟨body, r, rfl, hb, hr⟩
      · exact .inl ⟨front ++ body, last, by simp, hesc hb, hl⟩
      · exact .inr ⟨front ++ body, r, by simp, hesc hb, hr⟩
    rcases l with _ | ⟨c, l⟩
    · exact .inl ⟨[], [], rfl, .nil, .inl rfl⟩
    by_cases hb : c = '\\'
    · subst hb
      rcases l with _ | ⟨d, l⟩
      · exact .inl ⟨[], ['\\'], rfl, .nil, .inr rfl⟩
      · exact step ['\\', d] l rfl (by simp) fun h => h.escape d
    by_cases hq : c = '\''
    · subst hq
      rcases l with _ | ⟨d, l⟩
      · exact .inr ⟨[], [], rfl, .nil, by simp⟩
      by_cases hd : d = '\''
      · subst hd
        exact step ['\'', '\''] l rfl (by simp) fun h => h.double
      · exact .inr ⟨[], d :: l, rfl, .nil, by simpa using hd⟩
    · exact step [c] l rfl (by simp) fun h => h.char hb hq

/-- A tag does not occur in a text, or has a first occurrence. -/
theorem infix_or_endsFirst (tag l : List Char) :
    ¬tag <:+: l ∨ ∃ body rest, l = body ++ (tag ++ rest) ∧ EndsFirst tag body := by
  by_cases h : tag <:+: l
  · have hex : ∃ n, ∃ a b, l = a ++ (tag ++ b) ∧ a.length = n := by
      obtain ⟨a, b, e⟩ := h
      exact ⟨_, a, b, by simp [← e], rfl⟩
    classical
    obtain ⟨body, rest, e, hn⟩ := Nat.find_spec hex
    refine .inr ⟨body, rest, e, fun a b hab => ?_⟩
    have hmin : body.length ≤ a.length := by
      rw [hn]
      exact Nat.find_min' hex ⟨a, b ++ rest, by rw [e, ← List.append_assoc, hab]; simp, rfl⟩
    have hlen := congrArg List.length hab
    simp only [List.length_append] at hlen
    exact List.length_eq_zero_iff.1 (by omega)
  · exact .inl h

/-- A colon before a name is a placeholder. -/
theorem isName_takeWhile {c : Char} (hc : NameStart c) (l : List Char) :
    IsName ((c :: l).takeWhile isNameChar) ∧
      ∀ d, ((c :: l).dropWhile isNameChar).head? = some d → ¬NameChar d := by
  have hname : isNameChar c = true := isNameChar_iff.2 (.inl hc)
  constructor
  · rw [List.takeWhile_cons, if_pos hname]
    exact ⟨hc, fun d hd => isNameChar_iff.1 (List.mem_takeWhile_imp hd)⟩
  · intro d hd
    have hstop := (Text.run_takeWhile isNameChar (c :: l)).stops d hd
    rw [← isNameChar_iff, hstop]
    exact Bool.false_ne_true

/-- Every text starts with some lexeme of the grammar. -/
theorem Starts.exists_of_cons {N : Nesting} {n : Nat} (hN : N.Covers n) (prev : Option Char)
    (c : Char) {l : List Char} (hl : l.length ≤ n) :
    ∃ x rest, x.text ++ rest = c :: l ∧ Starts N prev x rest := by
  -- an opener decides the kind of the lexeme, its content only whether it is closed
  by_cases h : Opens prev (c :: l)
  · generalize hcl : c :: l = t at h ⊢
    cases h with
    | @quote q kind hq l =>
      rcases quoted_or_closed q l with hb | ⟨body, rest, rfl, hb, hr⟩
      · exact ⟨_, _, List.append_nil _, .openQuote hq hb⟩
      · exact ⟨_, _, by simp [Lexeme.text], .quote hq hb hr⟩
    | escapeLiteral hc hp l =>
      rcases escaped_or_closed l with ⟨body, last, rfl, hb, hl⟩ | ⟨body, rest, rfl, hb, hr⟩
      · exact ⟨_, _, List.append_nil _, .openEscapeLiteral hc hp hb hl⟩
      · exact ⟨_, _, by simp [Lexeme.text], .escapeLiteral hc hp hb hr⟩
    | lineComment l =>
      by_cases hl : '\n' ∈ l
      · obtain ⟨body, rest, rfl, hb⟩ := List.eq_append_cons_of_mem hl
        exact ⟨_, _, by simp [Lexeme.text], .lineComment hb rest⟩
      · exact ⟨_, _, List.append_nil _, .openLineComment hl⟩
    | blockComment l =>
      obtain ⟨rfl, rfl⟩ := List.cons.inj hcl
      rw [List.length_cons] at hl
      rcases hN l (by omega) with hb | ⟨body, rest, rfl, hb⟩
      · exact ⟨_, _, List.append_nil _, .openBlockComment hb⟩
      · exact ⟨_, _, by simp [Lexeme.text], .blockComment hb⟩
    | @dollarQuote tag ht hp l =>
      rcases infix_or_endsFirst tag l with hb | ⟨body, rest, rfl, hb⟩
      · exact ⟨_, _, List.append_nil _, .openDollarQuote ht hp hb⟩
      · exact ⟨_, _, by simp [Lexeme.text], .dollarQuote ht hp hb rest⟩
    | cast l => exact ⟨_, l, rfl, .cast l⟩
    | placeholder hc l =>
      obtain ⟨hn, hr⟩ := isName_takeWhile hc l
      exact ⟨_, _, by simp [Lexeme.text, List.takeWhile_append_dropWhile], .placeholder hn hr⟩
  · exact ⟨_, _, rfl, .other h⟩

/-! ### What the scanner takes at an opener -/

theorem takeWhile_of_isName {name rest : List Char} (hn : ∀ c ∈ name, NameChar c)
    (hr : ∀ c, rest.head? = some c → ¬NameChar c) :
    (name ++ rest).takeWhile isNameChar = name ∧ (name ++ rest).dropWhile isNameChar = rest := by
  have hrun : Text.Run isNameChar name rest :=
    ⟨fun c hc => isNameChar_iff.2 (hn c hc),
      fun c hc => Bool.eq_false_iff.2 (mt isNameChar_iff.1 (hr c hc))⟩
  exact ⟨hrun.takeWhile_append, hrun.dropWhile_append⟩

theorem IsName.forall_nameChar {name : List Char} (h : IsName name) : ∀ c ∈ name, NameChar c := by
  cases name with
  | nil => exact h.elim
  | cons d name =>
    intro c hc
    rcases List.mem_cons.1 hc with rfl | hc
    · exact .inl h.1
    · exact h.2 c hc

theorem IsName.exists_cons {name : List Char} (h : IsName name) :
    ∃ c rest, name = c :: rest ∧ NameStart c :=
  match name, h with
  | c :: rest, h => ⟨c, rest, rfl, h.1⟩

/-- A tag is found where one stands. -/
theorem dollarTag?_of_isTag {name : List Char} (h : name = [] ∨ IsName name) (l : List Char) :
    dollarTag? (name ++ '$' :: l) = some ('$' :: (name ++ ['$']), l) := by
  have hd : ∀ c, ('$' :: l).head? = some c → ¬NameChar c := by
    rintro c ⟨⟩
    rw [← isNameChar_iff]
    decide
  rcases h with rfl | h
  · have hc : ¬isNameChar '$' = true := by decide
    simp [dollarTag?, hc]
  · obtain ⟨ht, hr⟩ := takeWhile_of_isName h.forall_nameChar hd
    obtain ⟨c, name, rfl, hc⟩ := h.exists_cons
    have hs : isNameStart c = true := isNameStart_iff.2 hc
    rw [List.cons_append] at ht hr
    simp [dollarTag?, hs, ht, hr]

theorem isTag_of_dollarTag? {l tag rest : List Char} (h : dollarTag? l = some (tag, rest)) :
    IsTag tag := by
  unfold dollarTag? at h
  split at h
  · cases h
  next c l =>
    split at h
    · next hc =>
      split at h
      · next hd =>
        cases h
        refine ⟨_, rfl, ?_⟩
        rcases Bool.or_eq_true_iff.1 hc with hc | hc
        · exact .inr (isName_takeWhile (isNameStart_iff.1 hc) l).1
        · rw [beq_iff_eq] at hc
          subst hc
          exact .inl rfl
      · cases h
    · cases h

namespace Lexeme

variable {prev : Option Char}

theorem start_quote {q : Char} {kind : Region} (h : Delimits q kind) (l : List Char) :
    start prev q l = (Span.untilQuote q l).region kind [q] := by
  cases h <;> rfl

theorem start_escapeLiteral {c : Char} (hc : c = 'E' ∨ c = 'e') (hp : ¬Continues prev)
    (l : List Char) :
    start prev c ('\'' :: l) = (Span.untilEscapedQuote l).region .escapeLiteral [c, '\''] := by
  have hq : c ≠ '\'' ∧ c ≠ '"' := by rcases hc with rfl | rfl <;> decide
  simp [start, hq, hc, mt continuesName_iff.1 hp]

theorem start_lineComment (l : List Char) :
    start prev '-' ('-' :: l) = (Span.untilLineFeed l).region .lineComment ['-', '-'] := rfl

theorem start_dollarQuote {name : List Char} (hn : name = [] ∨ IsName name)
    (hp : ¬Continues prev) (l : List Char) :
    start prev '$' (name ++ '$' :: l) =
      (Span.untilTag ('$' :: (name ++ ['$'])) l).region .dollarQuote ('$' :: (name ++ ['$'])) := by
  simp [start, mt continuesName_iff.1 hp, dollarTag?_of_isTag hn]

theorem start_cast (l : List Char) : start prev ':' (':' :: l) = (.cast, l) := rfl

theorem start_placeholder {name rest : List Char} (hn : IsName name)
    (hr : ∀ c, rest.head? = some c → ¬NameChar c) :
    start prev ':' (name ++ rest) = (.placeholder name, rest) := by
  obtain ⟨ht, hd⟩ := takeWhile_of_isName hn.forall_nameChar hr
  obtain ⟨c, name, rfl, hc⟩ := hn.exists_cons
  have hs : isNameStart c = true := isNameStart_iff.2 hc
  rw [List.cons_append] at ht hd
  have hne : c ≠ ':' := by rintro rfl; revert hs; decide
  simp [start, hs, ht, hd]

/-- Where no opener stands the scanner takes one character. -/
theorem start_other {c : Char} {l : List Char} (h : ¬Opens prev (c :: l)) :
    start prev c l = (.other c, l) := by
  unfold start
  split
  · next hc => subst hc; exact (h (.quote .literal l)).elim
  split
  · next hc => subst hc; exact (h (.quote .identifier l)).elim
  split
  · next hc =>
    -- after a part of a name, the letter is one more character of it
    split
    · next body =>
      split
      · rfl
      · next hp => exact (h (.escapeLiteral hc (mt continuesName_iff.2 hp) body)).elim
    · rfl
  split
  · next hc =>
    subst hc
    split
    · exact (h (.lineComment _)).elim
    · rfl
  split
  · next hc =>
    subst hc
    split
    · exact (h (.blockComment _)).elim
    · rfl
  split
  · next hc =>
    subst hc
    split
    · rfl
    · next hp =>
      split
      · next ht =>
        have hopen := Opens.dollarQuote (isTag_of_dollarTag? ht) (mt continuesName_iff.2 hp) ‹_›
        rw [dollarTag?_covers ht] at hopen
        exact (h hopen).elim
      · rfl
  split
  · next hc =>
    subst hc
    split
    · exact (h (.cast _)).elim
    · split
      · next hs => exact (h (.placeholder (isNameStart_iff.1 hs) _)).elim
      · rfl
    · rfl
  · rfl

end Lexeme

/-! ### The scanner and the grammar -/

section Counted

variable {σ : Type} {counter : Counter σ} {prev : Option Char}

/-- The lexeme that starts with `c`, and what follows it, if the ends of comments are found with the
counter. -/
def Lexeme.startCounted (counter : Counter σ) (prev : Option Char) (c : Char) (rest : List Char) :
    Lexeme × List Char :=
  if c = '/' ∧ rest.head? = some '*' then
    (untilCounted counter counter.one rest.tail).region .blockComment ['/', '*']
  else start prev c rest

theorem Lexeme.startCounted_int32 (prev : Option Char) (c : Char) (rest : List Char) :
    startCounted .int32 prev c rest = start prev c rest := by
  unfold startCounted
  split
  · next h =>
    obtain ⟨rfl, hrest⟩ := h
    obtain ⟨body, rfl⟩ := List.head?_eq_some_iff.1 hrest
    rw [List.tail_cons, untilCounted_int32]
    rfl
  · rfl

theorem Lexeme.startCounted_of_ne {c : Char} (h : c ≠ '/') (rest : List Char) :
    startCounted counter prev c rest = start prev c rest :=
  if_neg fun hc => h hc.1

theorem Lexeme.startCounted_covers (counter : Counter σ) (prev : Option Char) (c : Char)
    (rest : List Char) :
    (startCounted counter prev c rest).1.text ++ (startCounted counter prev c rest).2 =
      c :: rest := by
  unfold startCounted
  split
  · next h =>
    obtain ⟨rfl, hrest⟩ := h
    obtain ⟨body, rfl⟩ := List.head?_eq_some_iff.1 hrest
    exact Span.region_covers (covers_untilCounted counter counter.one body) .blockComment ['/', '*']
  · exact start_covers prev c rest

/-- The lexeme that a text starts with is the one that the scanner takes. -/
theorem Starts.startCounted_eq {x : Lexeme} {rest : List Char}
    (h : Starts (.counted counter) prev x rest) :
    ∃ c l, x.text ++ rest = c :: l ∧ Lexeme.startCounted counter prev c l = (x, rest) := by
  cases h with
  | @quote q kind body rest hq hb hr =>
    have hne : q ≠ '/' := by cases hq <;> decide
    refine ⟨q, body ++ q :: rest, by simp [Lexeme.text], ?_⟩
    rw [Lexeme.startCounted_of_ne hne, Lexeme.start_quote hq, Span.untilQuote_append hb,
      Span.untilQuote_close hr]
    simp [Span.region, Span.push]
  | @openQuote q kind body hq hb =>
    have hne : q ≠ '/' := by cases hq <;> decide
    refine ⟨q, body ++ [], rfl, ?_⟩
    rw [Lexeme.startCounted_of_ne hne, Lexeme.start_quote hq, Span.untilQuote_append hb]
    simp [Span.region, Span.push, Span.untilQuote, Span.unclosed]
  | @escapeLiteral c body rest hc hp hb hr =>
    have hne : c ≠ '/' := by rcases hc with rfl | rfl <;> decide
    refine ⟨c, '\'' :: (body ++ '\'' :: rest), by simp [Lexeme.text], ?_⟩
    rw [Lexeme.startCounted_of_ne hne, Lexeme.start_escapeLiteral hc hp,
      Span.untilEscapedQuote_append hb, Span.untilEscapedQuote_close hr]
    simp [Span.region, Span.push]
  | @openEscapeLiteral c body last hc hp hb hl =>
    have hne : c ≠ '/' := by rcases hc with rfl | rfl <;> decide
    refine ⟨c, '\'' :: (body ++ last), List.append_nil _, ?_⟩
    rw [Lexeme.startCounted_of_ne hne, Lexeme.start_escapeLiteral hc hp,
      Span.untilEscapedQuote_append hb]
    rcases hl with rfl | rfl <;>
      simp [Span.region, Span.push, Span.untilEscapedQuote, Span.unclosed]
  | @lineComment body hb rest =>
    refine ⟨'-', '-' :: (body ++ '\n' :: rest), by simp [Lexeme.text], ?_⟩
    rw [Lexeme.startCounted_of_ne (by decide), Lexeme.start_lineComment,
      Span.untilLineFeed_append hb]
    simp [Span.region, Span.push, Span.untilLineFeed]
  | @openLineComment body hb =>
    refine ⟨'-', '-' :: (body ++ []), rfl, ?_⟩
    rw [Lexeme.startCounted_of_ne (by decide), Lexeme.start_lineComment,
      Span.untilLineFeed_append hb]
    simp [Span.region, Span.push, Span.untilLineFeed, Span.unclosed]
  | @blockComment body rest hb =>
    have hb : untilCounted counter counter.one (body ++ '*' :: '/' :: rest) = _ := hb
    refine ⟨'/', '*' :: (body ++ '*' :: '/' :: rest), by simp [Lexeme.text], ?_⟩
    rw [Lexeme.startCounted, if_pos ⟨rfl, rfl⟩, List.tail_cons, hb]
    rfl
  | @openBlockComment body hb =>
    have hb : untilCounted counter counter.one body = _ := hb
    refine ⟨'/', '*' :: body, List.append_nil _, ?_⟩
    rw [Lexeme.startCounted, if_pos ⟨rfl, rfl⟩, List.tail_cons, hb]
    rfl
  | @dollarQuote tag body ht hp hb =>
    obtain ⟨name, rfl, hn⟩ := ht
    refine ⟨'$', name ++ '$' :: (body ++ ('$' :: (name ++ ['$']) ++ rest)),
      by simp [Lexeme.text], ?_⟩
    rw [Lexeme.startCounted_of_ne (by decide), Lexeme.start_dollarQuote hn hp,
      Span.untilTag_endsFirst (by simp) hb]
    rfl
  | @openDollarQuote tag body ht hp hb =>
    obtain ⟨name, rfl, hn⟩ := ht
    refine ⟨'$', name ++ '$' :: body, by simp [Lexeme.text], ?_⟩
    rw [Lexeme.startCounted_of_ne (by decide), Lexeme.start_dollarQuote hn hp,
      Span.untilTag_open hb]
    rfl
  | cast =>
    exact ⟨':', ':' :: rest, rfl,
      (Lexeme.startCounted_of_ne (by decide) _).trans (Lexeme.start_cast rest)⟩
  | @placeholder name rest hn hr =>
    exact ⟨':', name ++ rest, rfl,
      (Lexeme.startCounted_of_ne (by decide) _).trans (Lexeme.start_placeholder hn hr)⟩
  | @other c rest h =>
    refine ⟨c, rest, rfl, (if_neg ?_).trans (Lexeme.start_other h)⟩
    rintro ⟨rfl, hrest⟩
    obtain ⟨body, rfl⟩ := List.head?_eq_some_iff.1 hrest
    exact h (.blockComment body)

/-- What the scanner takes is what the text starts with. -/
theorem starts_startCounted (counter : Counter σ) (prev : Option Char) (c : Char) (l : List Char) :
    Starts (.counted counter) prev (Lexeme.startCounted counter prev c l).1
      (Lexeme.startCounted counter prev c l).2 := by
  obtain ⟨x, rest, hcover, hx⟩ :=
    Starts.exists_of_cons (Nesting.covers_counted counter l.length) prev c le_rfl
  obtain ⟨c', l', hcover', hstart⟩ := hx.startCounted_eq
  obtain ⟨rfl, rfl⟩ := List.cons.inj (hcover'.symm.trans hcover)
  rw [hstart]
  exact hx

/-- There is at most one reading. -/
theorem Reading.unique {xs ys : List Lexeme} {l : List Char}
    (hxs : Reading (.counted counter) prev xs l) (hys : Reading (.counted counter) prev ys l) :
    xs = ys := by
  induction hxs generalizing ys with
  | nil prev =>
    generalize hl : [] = l at hys
    cases hys with
    | nil => rfl
    | cons hy _ =>
      obtain ⟨c, l, hcover, -⟩ := hy.startCounted_eq
      rw [hcover] at hl
      cases hl
  | @cons prev x xs rest hx _ ih =>
    obtain ⟨c, l, hcover, hstart⟩ := hx.startCounted_eq
    generalize hl : x.text ++ rest = l' at hys
    cases hys with
    | nil =>
      rw [hcover] at hl
      cases hl
    | cons hy h =>
      obtain ⟨c', l', hcover', hstart'⟩ := hy.startCounted_eq
      obtain ⟨rfl, rfl⟩ := List.cons.inj (hcover.symm.trans (hl.trans hcover'))
      obtain ⟨rfl, rfl⟩ := Prod.mk.inj (hstart.symm.trans hstart')
      rw [ih h]

end Counted

/-! ### Readings -/

theorem Starts.mono {N M : Nesting} (hNM : N.Within M) {prev : Option Char} {x : Lexeme}
    {rest : List Char} (h : Starts N prev x rest) : Starts M prev x rest := by
  cases h with
  | quote hq hb hr => exact .quote hq hb hr
  | openQuote hq hb => exact .openQuote hq hb
  | escapeLiteral hc hp hb hr => exact .escapeLiteral hc hp hb hr
  | openEscapeLiteral hc hp hb hl => exact .openEscapeLiteral hc hp hb hl
  | lineComment hb rest => exact .lineComment hb rest
  | openLineComment hb => exact .openLineComment hb
  | blockComment hb => exact .blockComment (hNM.ended hb)
  | openBlockComment hb => exact .openBlockComment (hNM.endless hb)
  | dollarQuote ht hp hb rest => exact .dollarQuote ht hp hb rest
  | openDollarQuote ht hp hb => exact .openDollarQuote ht hp hb
  | cast rest => exact .cast rest
  | placeholder hn hr => exact .placeholder hn hr
  | other h => exact .other h

theorem Starts.text_ne_nil {N : Nesting} {prev : Option Char} {x : Lexeme} {rest : List Char}
    (h : Starts N prev x rest) : x.text ≠ [] := by
  cases h with
  | dollarQuote ht | openDollarQuote ht =>
    obtain ⟨name, rfl, -⟩ := ht
    simp [Lexeme.text]
  | _ => simp [Lexeme.text]

namespace Reading

theorem mono {N M : Nesting} (hNM : N.Within M) {prev : Option Char} {xs : List Lexeme}
    {l : List Char} (h : Reading N prev xs l) : Reading M prev xs l := by
  induction h with
  | nil prev => exact .nil prev
  | cons hx _ ih => exact .cons (hx.mono hNM) ih

/-- Every text has a reading. -/
theorem exists_of_covers {N : Nesting} {n : Nat} (hN : N.Covers n) (prev : Option Char)
    {l : List Char} (hl : l.length ≤ n) : ∃ xs, Reading N prev xs l := by
  induction hlen : l.length using Nat.strong_induction_on generalizing prev l with
  | _ m ih =>
    cases l with
    | nil => exact ⟨[], .nil prev⟩
    | cons c l =>
      rw [List.length_cons] at hl hlen
      obtain ⟨x, rest, hcover, hx⟩ := Starts.exists_of_cons hN prev c (l := l) (by omega)
      have hlen' := congrArg List.length hcover
      have hpos := List.length_pos_iff.2 hx.text_ne_nil
      rw [List.length_append, List.length_cons] at hlen'
      obtain ⟨xs, hxs⟩ := ih rest.length (by omega) x.text.getLast? (l := rest) (by omega) rfl
      exact ⟨x :: xs, hcover ▸ .cons hx hxs⟩

/-- A text has exactly one reading, however deep comments lie in each other. -/
theorem existsUnique_any (prev : Option Char) (l : List Char) :
    ∃ xs, ∀ ys, Reading .any prev ys l ↔ ys = xs := by
  obtain ⟨xs, hxs⟩ := exists_of_covers (Nesting.covers_any l.length) prev le_rfl
  refine ⟨xs, fun ys => ⟨fun hys => ?_, fun h => h ▸ hxs⟩⟩
  exact (hys.mono Nesting.any_within_natural).unique (hxs.mono Nesting.any_within_natural)

/-- In a text of `n` characters comments lie at most `n` deep. -/
theorem upTo_of_length_le {prev : Option Char} {xs : List Lexeme} {l : List Char} {n : Nat}
    (h : Reading .any prev xs l) (hl : l.length ≤ n) : Reading (.upTo n) prev xs l := by
  obtain ⟨ys, hys⟩ := exists_of_covers (Nesting.covers_upTo n) prev hl
  obtain ⟨zs, hzs⟩ := existsUnique_any prev l
  rwa [(hzs xs).1 h, ← (hzs ys).1 (hys.mono (Nesting.upTo_within_any n))]

end Reading

theorem starts_start (prev : Option Char) (c : Char) (l : List Char) :
    Starts (.counted .int32) prev (Lexeme.start prev c l).1 (Lexeme.start prev c l).2 := by
  rw [← Lexeme.startCounted_int32]
  exact starts_startCounted .int32 prev c l

theorem Starts.start_eq {prev : Option Char} {x : Lexeme} {rest : List Char}
    (h : Starts (.counted .int32) prev x rest) :
    ∃ c l, x.text ++ rest = c :: l ∧ Lexeme.start prev c l = (x, rest) := by
  simpa only [Lexeme.startCounted_int32] using h.startCounted_eq

theorem lexemes_cons (prev : Option Char) (c : Char) (l : List Char) :
    lexemes prev (c :: l) = (Lexeme.start prev c l).1 ::
      lexemes (Lexeme.start prev c l).1.text.getLast? (Lexeme.start prev c l).2 := by
  rw [lexemes]

/-- The scanner goes on behind what the text starts with. -/
theorem Starts.lexemes_eq {prev : Option Char} {x : Lexeme} {rest : List Char}
    (h : Starts (.counted .int32) prev x rest) :
    lexemes prev (x.text ++ rest) = x :: lexemes x.text.getLast? rest := by
  obtain ⟨c, l, hcover, hstart⟩ := h.start_eq
  rw [hcover, lexemes_cons, hstart]

theorem reading_lexemes (prev : Option Char) (l : List Char) :
    Reading (.counted .int32) prev (lexemes prev l) l := by
  fun_induction lexemes prev l with
  | case1 prev => exact .nil prev
  | case2 prev c l x _ ih =>
    have h := Reading.cons (starts_start prev c l) ih
    rwa [Lexeme.start_covers] at h

/-- With comments counted in 32 bits, every text has exactly one reading, the lexemes of the
scanner. -/
theorem reading_iff {prev : Option Char} {xs : List Lexeme} {l : List Char} :
    Reading (.counted .int32) prev xs l ↔ lexemes prev l = xs :=
  ⟨fun h => (reading_lexemes prev l).unique h, fun h => h ▸ reading_lexemes prev l⟩

/-- The scanner reads the grammar as long as its counter is not full. -/
theorem Reading.lexemes_eq {prev : Option Char} {xs : List Lexeme} {l : List Char}
    (h : Reading (.upTo (2 ^ 32 - 1)) prev xs l) : lexemes prev l = xs :=
  reading_iff.1 (h.mono Nesting.upTo_within_int32)

end SqlAssembly.Sql
