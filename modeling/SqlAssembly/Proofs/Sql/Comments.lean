import SqlAssembly.Proofs.Sql.Grammar
import Mathlib.Algebra.Group.Nat.Defs
import Mathlib.Data.List.Infix

/-!
# Nested comments

Where a block comment ends is found by counting: an opener in it adds one, an end takes one away.
`Counter` is what keeps the number, and `untilCounted` what is found with it. `Counter.int32` is the
counter of the scanner; it wraps around when it is full.

* `Nesting.counted` is what counts as the content of a comment if it is found by counting. It does
  not depend on what stands behind the comment, whatever the counter.
* `Counter.Counts` says that a counter counts comments up to some depth: `Counter.natural` does so
  up to every depth, and `Counter.int32` as long as it is not full.
* `Counter.Counts.within`: up to this depth, the content of a comment is found by counting.
-/

namespace SqlAssembly.Sql

variable {σ : Type}

/-- What keeps the number of open comments: for one comment, behind an opener, and behind an end if
that was not the end of all. -/
structure Counter (σ : Type) where
  one : σ
  opened : σ → σ
  closed : σ → Option σ

namespace Counter

/-- The counter that is never full. -/
def natural : Counter Nat where
  one := 1
  opened n := n + 1
  closed n := if n - 1 = 0 then none else some (n - 1)

/-- The counter of 32 bits, which wraps around. -/
def int32 : Counter Int32 where
  one := 1
  opened n := n + 1
  closed n := if n - 1 = 0 then none else some (n - 1)

/-- The counter counts up to `bound`: within a comment that lies `n` deep in the outermost one, its
state is `state n`. -/
structure Counts (counter : Counter σ) (state : Nat → σ) (bound : Nat) : Prop where
  one : counter.one = state 0
  opened : ∀ n < bound, counter.opened (state n) = state (n + 1)
  last : counter.closed (state 0) = none
  closed : ∀ n < bound, counter.closed (state (n + 1)) = some (state n)

theorem counts_natural (bound : Nat) : natural.Counts (fun n => n + 1) bound where
  one := rfl
  opened _ _ := rfl
  last := rfl
  closed _ _ := rfl

theorem counts_int32 : int32.Counts (fun n => Int32.ofNat (n + 1)) (2 ^ 32 - 1) where
  one := rfl
  opened n _ := (Int32.ofNat_add (n + 1) 1).symm
  last := rfl
  closed n hn := by
    have hsub : Int32.ofNat (n + 1 + 1) - 1 = Int32.ofNat (n + 1) := by
      rw [Int32.ofNat_add, show Int32.ofNat 1 = 1 from rfl, Int32.add_sub_cancel]
    -- full is the counter only at `2 ^ 32`
    have hne : Int32.ofNat (n + 1) ≠ 0 := by
      intro h
      have hmod := congrArg (fun m : Int32 => m.toBitVec.toNat) h
      simp at hmod
      omega
    exact (congrArg (fun m => if m = 0 then none else some m) hsub).trans (if_neg hne)

end Counter

/-- Up to the end of a comment, found by counting. -/
def untilCounted (counter : Counter σ) (e : σ) : List Char → Span
  | [] => Span.unclosed
  | [c] => ⟨[c], [], false⟩
  | c :: d :: rest =>
    if c = '/' ∧ d = '*' then (untilCounted counter (counter.opened e) rest).push [c, d]
    else if c = '*' ∧ d = '/' then
      match counter.closed e with
      | none => ⟨[c, d], rest, true⟩
      | some e => (untilCounted counter e rest).push [c, d]
    else (untilCounted counter e (d :: rest)).push [c]

/-- The scanner counts in 32 bits. -/
theorem untilCounted_int32 (n : Int32) (l : List Char) :
    untilCounted Counter.int32 n l = Span.untilCommentEnd n l := by
  fun_induction Span.untilCommentEnd n l with
  | case1 => rfl
  | case2 => rfl
  | case3 n c d rest ho ih => rw [untilCounted, if_pos ho, ← ih]; rfl
  | case4 n c d rest ho hc hn => simp [untilCounted, hc, Counter.int32, hn]
  | case5 n c d rest ho hc hn ih => simp [untilCounted, hc, Counter.int32, hn, ← ih]
  | case6 n c d rest ho hc ih => rw [untilCounted, if_neg ho, if_neg hc, ih]

/-! ### The contents that are found -/

section Contents

variable (counter : Counter σ)

theorem covers_untilCounted (e : σ) (l : List Char) : (untilCounted counter e l).Covers l := by
  fun_induction untilCounted counter e l with
  | case1 => rfl
  | case2 => rfl
  | case3 e c d rest _ ih => exact ih.push [c, d]
  | case4 => rfl
  | case5 e c d rest _ _ _ _ ih => exact ih.push [c, d]
  | case6 e c d rest _ _ ih => exact ih.push [c]

theorem untilCounted_of_open {e : σ} {l : List Char}
    (h : (untilCounted counter e l).closed = false) :
    untilCounted counter e l = ⟨l, [], false⟩ := by
  fun_induction untilCounted counter e l with
  | case1 => rfl
  | case2 => rfl
  | case3 e c d rest _ ih => rw [ih h]; rfl
  | case4 => cases h
  | case5 e c d rest _ _ _ _ ih => rw [ih h]; rfl
  | case6 e c d rest _ _ ih => rw [ih h]; rfl

/-- A comment with an end ends in its mark. -/
theorem exists_body_of_closed {e : σ} {l : List Char}
    (h : (untilCounted counter e l).closed = true) :
    ∃ body, (untilCounted counter e l).text = body ++ ['*', '/'] := by
  have push : ∀ (front : List Char) {s : Span}, (∃ body, s.text = body ++ ['*', '/']) →
      ∃ body, (s.push front).text = body ++ ['*', '/'] := by
    rintro front s ⟨body, hs⟩
    exact ⟨front ++ body, by simp [Span.push, hs]⟩
  fun_induction untilCounted counter e l with
  | case1 => cases h
  | case2 => cases h
  | case3 e c d rest _ ih => exact push [c, d] (ih h)
  | case4 e c d rest _ hc _ => exact ⟨[], by rw [hc.1, hc.2]; rfl⟩
  | case5 e c d rest _ _ _ _ ih => exact push [c, d] (ih h)
  | case6 e c d rest _ _ ih => exact push [c] (ih h)

/-- What is found of a comment with an end starts as the comment does. -/
theorem exists_text_eq_cons {e : σ} {c : Char} {l : List Char}
    (h : (untilCounted counter e (c :: l)).closed = true) :
    ∃ u, (untilCounted counter e (c :: l)).text = c :: u := by
  have hcover := covers_untilCounted counter e (c :: l)
  obtain ⟨body, hbody⟩ := exists_body_of_closed counter h
  rw [Span.Covers] at hcover
  cases htext : (untilCounted counter e (c :: l)).text with
  | nil => simp [htext] at hbody
  | cons d u =>
    rw [htext] at hcover
    exact ⟨u, by rw [(List.cons.inj hcover).1]⟩

/-- What is found of a comment with an end does not depend on what stands behind it. -/
theorem untilCounted_text_append {e : σ} {l : List Char}
    (h : (untilCounted counter e l).closed = true) (t : List Char) :
    untilCounted counter e ((untilCounted counter e l).text ++ t) =
      ⟨(untilCounted counter e l).text, t, true⟩ := by
  fun_induction untilCounted counter e l with
  | case1 => cases h
  | case2 => cases h
  | case3 e c d rest ho ih =>
    simp only [Span.push, List.cons_append, List.nil_append] at h ⊢
    rw [untilCounted, if_pos ho, ih h]
    rfl
  | case4 e c d rest ho hc hn => simp [untilCounted, hc, hn]
  | case5 e c d rest ho hc e' hn ih =>
    simp only [Span.push, List.cons_append, List.nil_append] at h ⊢
    simp only [untilCounted, if_neg ho, if_pos hc, hn, ih h]
    rfl
  | case6 e c d rest ho hc ih =>
    -- behind `c` the search goes on with `d`, which is still the next character
    obtain ⟨u, hu⟩ := exists_text_eq_cons counter h
    have ih := ih h
    simp only [Span.push, List.cons_append, List.nil_append]
    rw [hu, List.cons_append] at ih ⊢
    rw [untilCounted, if_neg ho, if_neg hc, ih]
    rfl

/-- What counts as the content of a comment if its end is found by counting. -/
def Nesting.counted : Nesting where
  ended body rest :=
    untilCounted counter counter.one (body ++ '*' :: '/' :: rest) = ⟨body ++ ['*', '/'], rest, true⟩
  endless body := untilCounted counter counter.one body = ⟨body, [], false⟩

namespace Nesting

theorem ended_counted_congr {body rest : List Char} (h : (counted counter).ended body rest)
    (rest' : List Char) : (counted counter).ended body rest' := by
  have happend := untilCounted_text_append counter (congrArg Span.closed h) rest'
  rw [h] at happend
  simpa [counted] using happend

/-- By counting, every text has a content. -/
theorem covers_counted (n : Nat) : (counted counter).Covers n := by
  intro l _
  have hl := covers_untilCounted counter counter.one l
  cases hs : untilCounted counter counter.one l with
  | mk text rest closed =>
    rw [hs, Span.Covers] at hl
    cases closed with
    | false => exact .inl (untilCounted_of_open counter (congrArg Span.closed hs))
    | true =>
      obtain ⟨body, hbody⟩ := exists_body_of_closed counter (congrArg Span.closed hs)
      obtain rfl : text = body ++ ['*', '/'] := by rwa [hs] at hbody
      exact .inr ⟨body, rest, by simp [← hl], by simpa [counted, ← hl] using hs⟩

end Nesting

end Contents

/-! ### Contents of the grammar are found by counting -/

theorem untilCounted_of_not (counter : Counter σ) {c : Char} {l : List Char}
    (ho : ¬['/', '*'] <+: c :: l) (hc : ¬['*', '/'] <+: c :: l) (e : σ) :
    untilCounted counter e (c :: l) = (untilCounted counter e l).push [c] := by
  cases l with
  | nil => rfl
  | cons d l =>
    have ho' : ¬(c = '/' ∧ d = '*') := by rintro ⟨rfl, rfl⟩; exact ho ⟨l, rfl⟩
    have hc' : ¬(c = '*' ∧ d = '/') := by rintro ⟨rfl, rfl⟩; exact hc ⟨l, rfl⟩
    rw [untilCounted, if_neg ho', if_neg hc']

theorem untilCounted_opener (counter : Counter σ) (e : σ) (l : List Char) :
    untilCounted counter e ('/' :: '*' :: l) =
      (untilCounted counter (counter.opened e) l).push ['/', '*'] := by
  rw [untilCounted, if_pos ⟨rfl, rfl⟩]

theorem untilCounted_last {counter : Counter σ} {e : σ} (he : counter.closed e = none)
    (l : List Char) : untilCounted counter e ('*' :: '/' :: l) = ⟨['*', '/'], l, true⟩ := by
  simp [untilCounted, he]

theorem untilCounted_end {counter : Counter σ} {e e' : σ} (he : counter.closed e = some e')
    (l : List Char) : untilCounted counter e ('*' :: '/' :: l) =
      (untilCounted counter e' l).push ['*', '/'] := by
  simp [untilCounted, he]

namespace Counter.Counts

variable {counter : Counter σ} {state : Nat → σ} {bound : Nat}

/-- Counting runs over whole comments and comes to the same number behind them. -/
theorem untilCounted_append (h : counter.Counts state bound) {k : Nat} {body after : List Char}
    (hb : Commented k body after) {n : Nat} (hn : n + k ≤ bound) :
    untilCounted counter (state n) (body ++ after) =
      (untilCounted counter (state n) after).push body := by
  induction hb generalizing n with
  | nil => rfl
  | char ho hc _ ih =>
    rw [List.cons_append, untilCounted_of_not counter ho hc, ih hn, Span.push_push]
    rfl
  | @comment k inner l after _ _ ihi ih =>
    have split : ('/' :: '*' :: (inner ++ '*' :: '/' :: l)) ++ after =
        '/' :: '*' :: (inner ++ '*' :: '/' :: (l ++ after)) := by simp
    have hlt : n < bound := by omega
    rw [split, untilCounted_opener, h.opened n hlt, ihi (by omega),
      untilCounted_end (h.closed n hlt), ih hn]
    simp

theorem untilCounted_openComment (h : counter.Counts state bound) {k : Nat} {body : List Char}
    (hb : OpenComment k body) {n : Nat} (hn : n + k ≤ bound) :
    untilCounted counter (state n) body = ⟨body, [], false⟩ := by
  induction hb generalizing n with
  | @flat k l hb =>
    have hl := h.untilCounted_append hb hn
    rw [List.append_nil] at hl
    simp [hl, untilCounted, Span.unclosed, Span.push]
  | comment hb _ ih =>
    rw [h.untilCounted_append hb hn, untilCounted_opener, h.opened n (by omega), ih (by omega)]
    simp [Span.push]

/-- The contents of the grammar are found by a counter that counts up to their depth. -/
theorem within (h : counter.Counts state bound) {k : Nat} (hk : k ≤ bound) :
    (Nesting.upTo k).Within (.counted counter) where
  ended {body rest} hb := by
    show untilCounted counter counter.one _ = _
    rw [h.one, h.untilCounted_append hb (by omega), untilCounted_last h.last]
    rfl
  endless {body} hb := by
    show untilCounted counter counter.one _ = _
    rw [h.one, h.untilCounted_openComment hb (by omega)]

end Counter.Counts

namespace Nesting

theorem upTo_within_any (n : Nat) : (upTo n).Within any where
  ended hb := ⟨n, hb⟩
  endless hb := ⟨n, hb⟩

theorem any_within_natural : any.Within (counted .natural) where
  ended := fun ⟨n, hb⟩ => ((Counter.counts_natural n).within le_rfl).ended hb
  endless := fun ⟨n, hb⟩ => ((Counter.counts_natural n).within le_rfl).endless hb

theorem upTo_within_int32 : (upTo (2 ^ 32 - 1)).Within (counted .int32) :=
  Counter.counts_int32.within le_rfl

end Nesting

/-! ### Every text has a content of the grammar -/

theorem OpenComment.char {n : Nat} {c : Char} {l : List Char} (ho : ¬['/', '*'] <+: c :: l)
    (hc : ¬['*', '/'] <+: c :: l) (h : OpenComment n l) : OpenComment n (c :: l) := by
  cases h with
  | flat h => exact .flat (.char (by simpa using ho) (by simpa using hc) h)
  | comment h hi => exact .comment (.char ho hc h) hi

/-- A whole comment in front of an open one. -/
theorem OpenComment.cons_comment {n : Nat} {inner l : List Char}
    (hi : Commented n inner ('*' :: '/' :: l)) (h : OpenComment (n + 1) l) :
    OpenComment (n + 1) ('/' :: '*' :: (inner ++ '*' :: '/' :: l)) := by
  cases h with
  | flat h => exact .flat (.comment (by simpa using hi) h)
  | @comment _ l last h hl =>
    have := OpenComment.comment (Commented.comment hi h) hl
    simpa using this

/-- A text behind the opener of a comment has no end of it, or a content is followed by its end.
Comments lie at most as deep as the text has characters. -/
theorem Nesting.covers_upTo (n : Nat) : (upTo n).Covers n := by
  intro l hl
  induction hlen : l.length using Nat.strong_induction_on generalizing l n with
  | _ m ih =>
    rcases l with _ | ⟨c, l⟩
    · exact .inl (.flat (.nil n _))
    -- an end at the front is the end of this comment, whatever follows
    by_cases hc : ['*', '/'] <+: c :: l
    · obtain ⟨rest, hrest⟩ := hc
      exact .inr ⟨[], rest, hrest.symm, .nil n _⟩
    rw [List.length_cons] at hl hlen
    by_cases ho : ['/', '*'] <+: c :: l
    · obtain ⟨l', hl'⟩ := ho
      obtain ⟨rfl, rfl⟩ : '/' = c ∧ '*' :: l' = l := by simpa using hl'
      rw [List.length_cons] at hl hlen
      obtain ⟨n, rfl⟩ := Nat.exists_eq_succ_of_ne_zero (show n ≠ 0 by omega)
      rcases ih l'.length (by omega) n l' (by omega) rfl with h | ⟨inner, after, rfl, hi⟩
      · exact .inl (.comment (.nil _ _) h)
      -- the inner comment has an end, so what follows it decides
      rw [List.length_append, List.length_cons, List.length_cons] at hl hlen
      rcases ih after.length (by omega) (n + 1) after (by omega) rfl with h | ⟨body, rest, rfl, hb⟩
      · exact .inl (.cons_comment hi h)
      · exact .inr ⟨_, rest, by simp, .comment hi hb⟩
    · rcases ih l.length (by omega) n l (by omega) rfl with h | ⟨body, rest, rfl, hb⟩
      · exact .inl (h.char ho hc)
      · exact .inr ⟨c :: body, rest, rfl, hb.char ho hc⟩

theorem Nesting.covers_any (n : Nat) : any.Covers n := fun l hl =>
  (covers_upTo n l hl).imp (upTo_within_any n).endless fun ⟨body, rest, h, hb⟩ =>
    ⟨body, rest, h, (upTo_within_any n).ended hb⟩

end SqlAssembly.Sql
