import SqlAssembly.Proofs.Sql.Boundary

/-!
# Placeholders spelled in another way

What the lexemes of a text are when every placeholder of it is written in another way, and all else
stays.

* `opens_dollar_iff`: where a dollar sign opens a region.
* `Starts.of_rest`: a lexeme looks at the next character only, and a dollar sign at the name that
  follows.
* `lexemes_tail`: what is left of the lexemes of a text is what the scanner reads from there on.
* `Respelling f`: the map `f` writes each placeholder as lexemes that are read as such, behind
  anything and in front of anything that does not continue a name.
* `lexemes_respelled`: the lexemes of the respelled text are the respelled lexemes, as long as no
  dollar sign comes to open a region.
-/

namespace SqlAssembly.Sql

/-! ### What a lexeme looks at -/

/-- The texts start alike, or a dollar sign has come in the place of a colon. -/
def SameStart (l l' : List Char) : Prop :=
  l'.head? = l.head? ∨ l.head? = some ':' ∧ l'.head? = some '$'

namespace SameStart

variable {l l' : List Char}

theorem eq_nil (h : SameStart l l') (hl : l = []) : l' = [] := by
  subst hl
  rcases h with h | ⟨h, -⟩
  · exact List.head?_eq_none_iff.1 h
  · cases h

/-- A character other than a dollar sign was there before. -/
theorem head?_of_ne (h : SameStart l l') {c : Char} (hc : c ≠ '$') (hl : l'.head? = some c) :
    l.head? = some c := by
  rcases h with h | ⟨-, h⟩
  · rw [← h, hl]
  · rw [h] at hl
    exact (hc (Option.some.inj hl).symm).elim

/-- A character other than a colon is still there. -/
theorem exists_cons (h : SameStart l l') {c : Char} (hc : c ≠ ':') (hl : l.head? = some c) :
    ∃ t, l' = c :: t := by
  rcases h with h | ⟨h, -⟩
  · exact List.head?_eq_some_iff.1 (h.trans hl)
  · rw [hl] at h
    exact (hc (Option.some.inj h)).elim

/-- Where no name went on, none goes on. -/
theorem not_nameChar (h : SameStart l l') (hl : ∀ c, l.head? = some c → ¬NameChar c) :
    ∀ c, l'.head? = some c → ¬NameChar c := by
  intro c hc
  by_cases hd : c = '$'
  · subst hd
    rw [← isNameChar_iff]
    decide
  · exact hl c (h.head?_of_ne hd hc)

end SameStart

theorem NameStart.ne_dollar {c : Char} (h : NameStart c) : c ≠ '$' := by
  rintro rfl
  rw [← isNameStart_iff] at h
  revert h
  decide

/-- A dollar sign opens a region where it continues no name and starts a tag. -/
theorem opens_dollar_iff {prev : Option Char} {l : List Char} : Opens prev ('$' :: l) ↔
    ¬Continues prev ∧ ∃ name rest, (name = [] ∨ IsName name) ∧ l = name ++ '$' :: rest := by
  constructor
  · intro h
    generalize e : '$' :: l = s at h
    cases h with
    | quote hq _ => cases hq <;> cases e
    | escapeLiteral hc _ _ =>
      obtain ⟨rfl, -⟩ := List.cons.inj e
      rcases hc with hc | hc <;> cases hc
    | dollarQuote ht hp rest =>
      obtain ⟨name, rfl, hn⟩ := ht
      obtain ⟨-, rfl⟩ := List.cons.inj e
      exact ⟨hp, name, rest, hn, by simp⟩
    | _ => cases e
  · rintro ⟨hp, name, rest, hn, rfl⟩
    simpa using Opens.dollarQuote ⟨name, rfl, hn⟩ hp rest

/-- An opener other than that of a dollar quote is at most two characters long. -/
theorem Opens.of_sameStart {prev : Option Char} {c : Char} {l l' : List Char} (hl : SameStart l l')
    (hc : c ≠ '$') (h : Opens prev (c :: l')) : Opens prev (c :: l) := by
  have second : ∀ d t, l' = d :: t → d ≠ '$' → ∃ t, l = d :: t := by
    rintro d t rfl hd
    exact List.head?_eq_some_iff.1 (hl.head?_of_ne hd rfl)
  generalize e : c :: l' = s at h
  cases h with
  | quote hq _ =>
    obtain ⟨rfl, -⟩ := List.cons.inj e
    exact .quote hq l
  | escapeLiteral he hp t =>
    obtain ⟨rfl, rfl⟩ := List.cons.inj e
    obtain ⟨t, rfl⟩ := second _ t rfl (by decide)
    exact .escapeLiteral he hp t
  | lineComment t =>
    obtain ⟨rfl, rfl⟩ := List.cons.inj e
    obtain ⟨t, rfl⟩ := second _ t rfl (by decide)
    exact .lineComment t
  | blockComment t =>
    obtain ⟨rfl, rfl⟩ := List.cons.inj e
    obtain ⟨t, rfl⟩ := second _ t rfl (by decide)
    exact .blockComment t
  | dollarQuote ht _ _ =>
    obtain ⟨name, rfl, -⟩ := ht
    exact (hc (List.cons.inj e).1).elim
  | cast t =>
    obtain ⟨rfl, rfl⟩ := List.cons.inj e
    obtain ⟨t, rfl⟩ := second _ t rfl (by decide)
    exact .cast t
  | placeholder hs t =>
    obtain ⟨rfl, rfl⟩ := List.cons.inj e
    obtain ⟨t, rfl⟩ := second _ t rfl hs.ne_dollar
    exact .placeholder hs t

/-- A lexeme stays the first one when the text behind it changes and starts as before. -/
theorem Starts.of_rest {prev : Option Char} {x : Lexeme} {l l' : List Char}
    (h : Starts (.counted .int32) prev x l) (hl : SameStart l l')
    (hdollar : x = .other '$' → ¬Opens prev ('$' :: l')) :
    Starts (.counted .int32) prev x l' := by
  have hnil : l = [] → l' = [] := hl.eq_nil
  cases h with
  | quote hq hb hr =>
    refine .quote hq hb fun e => hr (hl.head?_of_ne ?_ e)
    cases hq <;> decide
  | openQuote hq hb =>
    rw [hnil rfl]
    exact .openQuote hq hb
  | escapeLiteral hc hp hb hr =>
    exact .escapeLiteral hc hp hb fun e => hr (hl.head?_of_ne (by decide) e)
  | openEscapeLiteral hc hp hb hlast =>
    rw [hnil rfl]
    exact .openEscapeLiteral hc hp hb hlast
  | lineComment hb _ =>
    obtain ⟨t, rfl⟩ := hl.exists_cons (by decide) rfl
    exact .lineComment hb t
  | openLineComment hb =>
    rw [hnil rfl]
    exact .openLineComment hb
  | blockComment hb => exact .blockComment (Nesting.ended_counted_congr _ hb _)
  | openBlockComment hb =>
    rw [hnil rfl]
    exact .openBlockComment hb
  | dollarQuote ht hp hb _ => exact .dollarQuote ht hp hb l'
  | openDollarQuote ht hp hb =>
    rw [hnil rfl]
    exact .openDollarQuote ht hp hb
  | cast _ => exact .cast l'
  | placeholder hn hr => exact .placeholder hn (hl.not_nameChar hr)
  | @other c _ ho =>
    refine .other fun h => ?_
    by_cases hc : c = '$'
    · subst hc
      exact hdollar rfl h
    · exact ho (h.of_sameStart hl hc)

/-! ### The rest of a reading -/

/-- What stands in front of a place is told from the lexemes before it, the first one apart. -/
theorem getLast?_flatMap_text_cons {x : Lexeme} (hx : x.text ≠ []) (xs : List Lexeme)
    (prev : Option Char) : ((x :: xs).flatMap Lexeme.text).getLast?.or prev =
      (xs.flatMap Lexeme.text).getLast?.or x.text.getLast? := by
  rw [List.flatMap_cons, List.getLast?_append, List.getLast?_eq_some_getLast hx]
  cases (xs.flatMap Lexeme.text).getLast? <;> rfl

/-- What is left of the lexemes of a text is what the scanner reads from there on. -/
theorem lexemes_tail {prev : Option Char} {l : List Char} {xs ys : List Lexeme}
    (h : lexemes prev l = xs ++ ys) :
    lexemes ((xs.flatMap Lexeme.text).getLast?.or prev) (ys.flatMap Lexeme.text) = ys := by
  induction xs generalizing prev l with
  | nil =>
    rw [List.nil_append] at h
    rw [← h, flatMap_text_lexemes]
    rfl
  | cons x xs ih =>
    cases l with
    | nil => simp [lexemes] at h
    | cons c l =>
      rw [lexemes_cons, List.cons_append] at h
      obtain ⟨hx, hxs⟩ := List.cons.inj h
      rw [getLast?_flatMap_text_cons (hx ▸ Lexeme.start_text_ne_nil prev c l), ← hx]
      exact ih hxs

/-- A lexeme of a text is one that the grammar gives at its place. -/
theorem starts_of_lexemes_eq {prev : Option Char} {l : List Char} {xs ys : List Lexeme} {x : Lexeme}
    (h : lexemes prev l = xs ++ x :: ys) :
    Starts (.counted .int32) ((xs.flatMap Lexeme.text).getLast?.or prev) x
      (ys.flatMap Lexeme.text) := by
  have htail := lexemes_tail h
  rw [List.flatMap_cons] at htail
  cases hcs : x.text ++ ys.flatMap Lexeme.text with
  | nil =>
    rw [hcs] at htail
    simp [lexemes] at htail
  | cons c t =>
    rw [hcs, lexemes_cons] at htail
    obtain ⟨hx, hys⟩ := List.cons.inj htail
    have hstart := starts_start ((xs.flatMap Lexeme.text).getLast?.or prev) c t
    -- the rest is what the lexemes behind `x` give back
    rwa [← flatMap_text_lexemes _ (Lexeme.start _ c t).2, hys, hx] at hstart

/-! ### Respelled placeholders -/

theorem Lexeme.eq_placeholder_or (x : Lexeme) :
    (∃ name, x = .placeholder name) ∨ x.name? = none := by
  cases x with
  | placeholder name => exact .inl ⟨name, rfl⟩
  | _ => exact .inr rfl

/-- A placeholder ends with a character of a name. -/
theorem IsName.continues_placeholder {name : List Char} (h : IsName name) :
    Continues (Lexeme.placeholder name).text.getLast? := by
  obtain ⟨c, rest, rfl, -⟩ := h.exists_cons
  have hlast := List.getLast?_eq_some_getLast (List.cons_ne_nil c rest)
  refine ⟨_, ?_, .inl (h.forall_nameChar _ (List.getLast_mem (List.cons_ne_nil c rest)))⟩
  rw [Lexeme.text, List.getLast?_cons_cons, hlast]

theorem Starts.isName {N : Nesting} {prev : Option Char} {name rest : List Char}
    (h : Starts N prev (.placeholder name) rest) :
    IsName name ∧ ∀ c, rest.head? = some c → ¬NameChar c := by
  cases h with
  | placeholder hn hr => exact ⟨hn, hr⟩

/-- The map writes placeholders in another way and keeps all other lexemes. What it writes is read
as such wherever no name goes on behind it, and starts with a colon or a dollar sign. -/
structure Respelling (f : Lexeme → List Lexeme) : Prop where
  kept : ∀ x, x.name? = none → f x = [x]
  /-- The first character is a colon or a dollar sign. -/
  head : ∀ name, IsName name → ∃ t, (f (.placeholder name)).flatMap Lexeme.text = ':' :: t ∨
    (f (.placeholder name)).flatMap Lexeme.text = '$' :: t
  /-- The lexemes are read where they stand. -/
  read : ∀ name, IsName name → ∀ prev rest, (∀ c, rest.head? = some c → ¬NameChar c) →
    lexemes prev ((f (.placeholder name)).flatMap Lexeme.text ++ rest) =
      f (.placeholder name) ++ lexemes (Lexeme.placeholder name).text.getLast? rest

/-- The text of respelled lexemes. -/
def respelled (f : Lexeme → List Lexeme) (xs : List Lexeme) : List Char :=
  (xs.flatMap f).flatMap Lexeme.text

namespace Respelling

variable {f : Lexeme → List Lexeme} (hf : Respelling f)

include hf

theorem respelled_cons {x : Lexeme} (hx : x.name? = none) (xs : List Lexeme) :
    respelled f (x :: xs) = x.text ++ respelled f xs := by
  simp [respelled, hf.kept x hx]

/-- A respelled text starts as before, but for a dollar sign in place of a colon. -/
theorem sameStart (prev : Option Char) (l : List Char) :
    SameStart l (respelled f (lexemes prev l)) := by
  cases l with
  | nil => exact .inl (by simp [lexemes, respelled])
  | cons c l =>
    have hcover := Lexeme.start_covers prev c l
    have hne := Lexeme.start_text_ne_nil prev c l
    have hstarts := starts_start prev c l
    rw [lexemes_cons]
    generalize Lexeme.start prev c l = x at hcover hne hstarts ⊢
    obtain ⟨x, rest⟩ := x
    rcases x.eq_placeholder_or with ⟨name, rfl⟩ | hx
    · obtain ⟨rfl, -⟩ := List.cons.inj hcover
      obtain ⟨t, ht⟩ := hf.head name hstarts.isName.1
      rcases ht with ht | ht
      · exact .inl (by simp [respelled, ht])
      · exact .inr ⟨rfl, by simp [respelled, ht]⟩
    · obtain ⟨d, t, ht⟩ := List.exists_cons_of_ne_nil hne
      rw [hf.respelled_cons hx]
      rw [ht] at hcover ⊢
      obtain ⟨rfl, -⟩ := List.cons.inj hcover
      exact .inl rfl

/-- The lexemes of the respelled text are the respelled lexemes, as long as no dollar sign comes to
open a region. -/
theorem lexemes_respelled {prev : Option Char} {l : List Char}
    (hdollar : ∀ xs ys, lexemes prev l = xs ++ .other '$' :: ys →
      ¬Opens ((xs.flatMap Lexeme.text).getLast?.or prev) ('$' :: respelled f ys)) :
    lexemes prev (respelled f (lexemes prev l)) = (lexemes prev l).flatMap f := by
  fun_induction lexemes prev l with
  | case1 prev => simp [respelled, lexemes]
  | case2 prev c l x _ ih =>
    have hstarts : Starts (.counted .int32) prev x.1 x.2 := starts_start prev c l
    have hne : x.1.text ≠ [] := Lexeme.start_text_ne_nil prev c l
    have hsame := hf.sameStart x.1.text.getLast? x.2
    -- the dollar signs behind the first lexeme
    have htail := ih fun xs ys h => by
      rw [← getLast?_flatMap_text_cons hne xs prev]
      exact hdollar (x.1 :: xs) ys (congrArg (x.1 :: ·) h)
    rcases x.1.eq_placeholder_or with ⟨name, hname⟩ | hkept
    · rw [hname] at hstarts hsame htail ⊢
      obtain ⟨hn, hr⟩ := hstarts.isName
      rw [List.flatMap_cons, ← htail, respelled, List.flatMap_cons, List.flatMap_append]
      exact hf.read name hn prev _ (hsame.not_nameChar hr)
    · have hstarts' := hstarts.of_rest hsame fun hd => hdollar [] _ (congrArg (· :: _) hd)
      rw [hf.respelled_cons hkept, hstarts'.lexemes_eq, htail, List.flatMap_cons, hf.kept _ hkept]
      rfl

end Respelling

end SqlAssembly.Sql
