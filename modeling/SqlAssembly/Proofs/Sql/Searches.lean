import SqlAssembly.Proofs.Sql.Octets

/-!
# Searches for places

A search of the scanner, started between two characters, ends between two characters: behind the
span of characters that the functions of `Span` tell.

* A search does not look back: what stands before its start only shifts its end (`closing_shift` and
  the like).
* From the start of a text, `closing_octets` and the like follow the span character by character.
* From any place between two characters, `closing_place` and the like put both together.
* `escapedClosing_jump`: to pass over one octet behind a backslash comes to the same end as to pass
  over one character.
-/

namespace SqlAssembly.Sql.Scanner

/-! ### Searches behind other octets -/

section Shift

variable {σ : Type} (p w : List UInt8)

theorem getElem?_shift (k : Nat) : (p ++ w)[p.length + k]? = w[k]? := by
  rw [List.getElem?_append_right (Nat.le_add_right _ _), Nat.add_sub_cancel_left]

theorem shift_lt (k : Nat) : p.length + k < (p ++ w).length ↔ k < w.length := by
  rw [List.length_append, Nat.add_lt_add_iff_left]

theorem closing_shift (q : UInt8) (k : Nat) :
    closing (p ++ w) q (p.length + k) = p.length + closing w q k := by
  fun_induction closing w q k
  all_goals
    rw [closing]
    simp only [shift_lt, getElem?_shift, Nat.add_assoc]
  case case1 hk hq hq' ih => rw [if_pos hk, if_pos hq, if_pos hq', ih]
  case case2 hk hq hq' => rw [if_pos hk, if_pos hq, if_neg hq']
  case case3 hk hq ih => rw [if_pos hk, if_neg hq, ih]
  case case4 hk => rw [if_neg hk, List.length_append]

theorem escapedClosing_shift (k : Nat) :
    escapedClosing (p ++ w) (p.length + k) = p.length + escapedClosing w k := by
  fun_induction escapedClosing w k
  all_goals
    rw [escapedClosing]
    simp only [shift_lt, getElem?_shift, Nat.add_assoc]
  case case1 hk hb ih => rw [if_pos hk, if_pos hb, ih]
  case case2 hk hb hq hq' ih => rw [if_pos hk, if_neg hb, if_pos hq, if_pos hq', ih]
  case case3 hk hb hq hq' => rw [if_pos hk, if_neg hb, if_pos hq, if_neg hq']
  case case4 hk hb hq ih => rw [if_pos hk, if_neg hb, if_neg hq, ih]
  case case5 hk => rw [if_neg hk, List.length_append]

theorem commentEnd_shift (counter : Counter σ) (d : σ) (k : Nat) :
    commentEnd counter (p ++ w) d (p.length + k) = p.length + commentEnd counter w d k := by
  fun_induction commentEnd counter w d k
  all_goals
    rw [commentEnd]
    simp only [shift_lt, getElem?_shift, Nat.add_assoc]
  case case1 hk ho ih => rw [if_pos hk, if_pos ho, ih]
  case case2 hk ho hc hd => rw [if_pos hk, if_neg ho, if_pos hc, hd]
  case case3 hk ho hc e hd ih =>
    rw [if_pos hk, if_neg ho, if_pos hc, hd]
    exact ih
  case case4 hk ho hc ih => rw [if_pos hk, if_neg ho, if_neg hc, ih]
  case case5 hk => rw [if_neg hk, List.length_append]

theorem nameEnd_shift (k : Nat) :
    nameEnd (p ++ w) (p.length + k) = p.length + nameEnd w k := by
  fun_induction nameEnd w k
  all_goals
    rw [nameEnd]
    simp only [shift_lt, getElem?_shift, Nat.add_assoc]
  case case1 hk hn ih => rw [if_pos hk, if_pos hn, ih]
  case case2 hk hn => rw [if_pos hk, if_neg hn]
  case case3 hk => rw [if_neg hk]

theorem find?_shift (pattern : List UInt8) (k : Nat) :
    find? pattern (p ++ w) (p.length + k) = (find? pattern w k).map (p.length + ·) := by
  have hdrop (k : Nat) : (p ++ w).drop (p.length + k) = w.drop k := by
    rw [← List.drop_drop, List.drop_left]
  fun_induction find? pattern w k
  all_goals
    rw [find?]
    simp only [shift_lt, hdrop, Nat.add_assoc]
  case case1 hp =>
    rw [if_pos hp]
    rfl
  case case2 hp hk ih => rw [if_neg hp, if_pos hk, ih]
  case case3 hp hk =>
    rw [if_neg hp, if_neg hk]
    rfl

end Shift

/-! ### Quotes -/

theorem closing_nil (q : UInt8) : closing [] q 0 = 0 := by
  rw [closing]
  rfl

theorem closing_cons (x q : UInt8) (w : List UInt8) :
    closing (x :: w) q 0 =
      if x = q then if w.head? = some q then closing (x :: w) q 2 else 1
      else 1 + closing w q 0 := by
  have hstep : closing (x :: w) q 1 = 1 + closing w q 0 := closing_shift [x] w q 0
  rw [closing]
  simp [hstep, List.head?_eq_getElem?]

/-- Other octets are passed over. -/
theorem closing_of_not_mem {q : UInt8} {u : List UInt8} (h : q ∉ u) (w : List UInt8) :
    closing (u ++ w) q 0 = u.length + closing w q 0 := by
  induction u with
  | nil => exact (Nat.zero_add _).symm
  | cons x u ih =>
    obtain ⟨hx, hu⟩ := not_or.1 (mt List.mem_cons.2 h)
    rw [List.cons_append, closing_cons, if_neg (Ne.symm hx), ih hu, List.length_cons]
    omega

theorem closing_double (q : UInt8) (w : List UInt8) :
    closing (q :: q :: w) q 0 = 2 + closing w q 0 := by
  rw [closing_cons, if_pos rfl, if_pos (by rfl)]
  exact closing_shift [q, q] w q 0

theorem closing_close {q : UInt8} {w : List UInt8} (h : w.head? ≠ some q) :
    closing (q :: w) q 0 = 1 := by
  rw [closing_cons, if_pos rfl, if_neg h]

theorem closing_octets {q : Char} (hq : q.toNat < 128) (l : List Char) :
    closing (octets l) q.toUInt8 0 = place (Span.untilQuote q l).text := by
  have hother {c : Char} (hc : c ≠ q) (l : List Char) :
      closing (octets (c :: l)) q.toUInt8 0 = place [c] + closing (octets l) q.toUInt8 0 := by
    rw [octets_cons, closing_of_not_mem (mt (toUInt8_mem_encode_iff hq).1 hc), place_singleton]
  fun_induction Span.untilQuote q l with
  | case1 => exact closing_nil _
  | case2 c =>
    by_cases hc : c = q
    · rw [hc, octets_cons_of_lt hq, place_of_lt hq]
      exact closing_close (by simp)
    · rw [hother hc, octets_nil, closing_nil, Nat.add_zero]
  | case3 rest ih =>
    rw [octets_cons_of_lt hq, octets_cons_of_lt hq, closing_double, ih, Span.push, place_append,
      place_pair_of_lt hq hq]
  | case4 d rest hd =>
    rw [octets_cons_of_lt hq, place_of_lt hq]
    exact closing_close (by rw [Ne, head?_octets_eq_iff hq]; simpa using hd)
  | case5 c d rest hc ih => rw [hother hc, ih, Span.push, place_append]

/-! ### Quotes and backslashes -/

theorem escapedClosing_nil : escapedClosing [] 0 = 0 := by
  rw [escapedClosing]
  rfl

theorem escapedClosing_cons (x : UInt8) (w : List UInt8) :
    escapedClosing (x :: w) 0 =
      if x = '\\'.toUInt8 then escapedClosing (x :: w) 2
      else if x = '\''.toUInt8 then
        if w.head? = some '\''.toUInt8 then escapedClosing (x :: w) 2 else 1
      else 1 + escapedClosing w 0 := by
  have hstep : escapedClosing (x :: w) 1 = 1 + escapedClosing w 0 := escapedClosing_shift [x] w 0
  rw [escapedClosing]
  simp [hstep, List.head?_eq_getElem?]

theorem escapedClosing_of_not_mem {u : List UInt8} (hb : '\\'.toUInt8 ∉ u)
    (hq : '\''.toUInt8 ∉ u) (w : List UInt8) :
    escapedClosing (u ++ w) 0 = u.length + escapedClosing w 0 := by
  induction u with
  | nil => exact (Nat.zero_add _).symm
  | cons x u ih =>
    obtain ⟨hxb, hub⟩ := not_or.1 (mt List.mem_cons.2 hb)
    obtain ⟨hxq, huq⟩ := not_or.1 (mt List.mem_cons.2 hq)
    rw [List.cons_append, escapedClosing_cons, if_neg (Ne.symm hxb), if_neg (Ne.symm hxq),
      ih hub huq, List.length_cons]
    omega

/-- One octet behind the first one of a character, the search goes on as behind the character. -/
theorem escapedClosing_within {c : Char} {x : UInt8} {u : List UInt8}
    (h : String.utf8EncodeChar c = x :: u) (w : List UInt8) :
    escapedClosing (u ++ w) 0 = u.length + escapedClosing w 0 := by
  have hle := le_of_mem_tail h
  exact escapedClosing_of_not_mem (fun hb => absurd (hle _ hb) (by decide))
    (fun hq => absurd (hle _ hq) (by decide)) w

theorem escapedClosing_escape (c : Char) (l : List Char) :
    escapedClosing (octets ('\\' :: c :: l)) 0 =
      place ['\\', c] + escapedClosing (octets l) 0 := by
  obtain ⟨x, u, hx⟩ := exists_encode c
  have hstep : escapedClosing ('\\'.toUInt8 :: x :: (u ++ octets l)) 2 =
      2 + escapedClosing (u ++ octets l) 0 :=
    escapedClosing_shift ['\\'.toUInt8, x] (u ++ octets l) 0
  rw [octets_cons_of_lt (by decide), octets_cons, hx, List.cons_append, escapedClosing_cons,
    if_pos rfl, hstep, escapedClosing_within hx, place, octets_cons_of_lt (by decide), octets_cons,
    hx]
  simp
  omega

theorem escapedClosing_double (w : List UInt8) :
    escapedClosing ('\''.toUInt8 :: '\''.toUInt8 :: w) 0 = 2 + escapedClosing w 0 := by
  rw [escapedClosing_cons, if_neg (by decide), if_pos rfl, if_pos (by rfl)]
  exact escapedClosing_shift ['\''.toUInt8, '\''.toUInt8] w 0

theorem escapedClosing_close {w : List UInt8} (h : w.head? ≠ some '\''.toUInt8) :
    escapedClosing ('\''.toUInt8 :: w) 0 = 1 := by
  rw [escapedClosing_cons, if_neg (by decide), if_pos rfl, if_neg h]

theorem escapedClosing_octets (l : List Char) :
    escapedClosing (octets l) 0 = place (Span.untilEscapedQuote l).text := by
  have hother {c : Char} (hb : c ≠ '\\') (hq : c ≠ '\'') (l : List Char) :
      escapedClosing (octets (c :: l)) 0 = place [c] + escapedClosing (octets l) 0 := by
    rw [octets_cons, escapedClosing_of_not_mem (mt (toUInt8_mem_encode_iff (by decide)).1 hb)
      (mt (toUInt8_mem_encode_iff (by decide)).1 hq), place_singleton]
  fun_induction Span.untilEscapedQuote l with
  | case1 => exact escapedClosing_nil
  | case2 c =>
    by_cases hb : c = '\\'
    · -- the backslash is the last octet, so the search goes on behind the end
      rw [hb]
      rw [octets_cons_of_lt (by decide), escapedClosing_cons, if_pos rfl, escapedClosing]
      rfl
    · by_cases hq : c = '\''
      · rw [hq, octets_cons_of_lt (by decide), place_of_lt (by decide)]
        exact escapedClosing_close (by simp)
      · rw [hother hb hq, octets_nil, escapedClosing_nil, Nat.add_zero]
  | case3 d rest ih => rw [escapedClosing_escape, ih, Span.push, place_append]
  | case4 rest _ ih =>
    rw [octets_cons_of_lt (by decide), octets_cons_of_lt (by decide), escapedClosing_double, ih,
      Span.push, place_append, place_pair_of_lt (by decide) (by decide)]
  | case5 d rest hd _ =>
    rw [octets_cons_of_lt (by decide), place_of_lt (by decide)]
    exact escapedClosing_close (by rw [Ne, head?_octets_eq_iff (by decide)]; simpa using hd)
  | case6 c d rest hb hq ih => rw [hother hb hq, ih, Span.push, place_append]

/-! ### Comments -/

section Comments

variable {σ : Type}

variable (counter : Counter σ)

theorem commentEnd_nil (e : σ) : commentEnd counter [] e 0 = 0 := by
  rw [commentEnd]
  rfl

theorem commentEnd_cons (e : σ) (x : UInt8) (w : List UInt8) :
    commentEnd counter (x :: w) e 0 =
      if x = '/'.toUInt8 ∧ w.head? = some '*'.toUInt8 then
        commentEnd counter (x :: w) (counter.opened e) 2
      else if x = '*'.toUInt8 ∧ w.head? = some '/'.toUInt8 then
        match counter.closed e with
        | none => 2
        | some e => commentEnd counter (x :: w) e 2
      else 1 + commentEnd counter w e 0 := by
  have hstep : commentEnd counter (x :: w) e 1 = 1 + commentEnd counter w e 0 :=
    commentEnd_shift [x] w counter e 0
  rw [commentEnd]
  cases counter.closed e <;> simp [hstep, List.head?_eq_getElem?]

theorem commentEnd_of_not_mem {u : List UInt8} (ho : '/'.toUInt8 ∉ u) (hc : '*'.toUInt8 ∉ u)
    (e : σ) (w : List UInt8) :
    commentEnd counter (u ++ w) e 0 = u.length + commentEnd counter w e 0 := by
  induction u with
  | nil => exact (Nat.zero_add _).symm
  | cons x u ih =>
    obtain ⟨hxo, huo⟩ := not_or.1 (mt List.mem_cons.2 ho)
    obtain ⟨hxc, huc⟩ := not_or.1 (mt List.mem_cons.2 hc)
    rw [List.cons_append, commentEnd_cons, if_neg fun h => hxo h.1.symm,
      if_neg fun h => hxc h.1.symm, ih huo huc, List.length_cons]
    omega

theorem commentEnd_two (x y : UInt8) (w : List UInt8) (e : σ) :
    commentEnd counter (x :: y :: w) e 2 = 2 + commentEnd counter w e 0 :=
  commentEnd_shift [x, y] w counter e 0

/-- A character that starts no mark of a comment is passed over. -/
theorem commentEnd_other {c : Char} {l : List Char} (ho : ¬(c = '/' ∧ l.head? = some '*'))
    (hc : ¬(c = '*' ∧ l.head? = some '/')) (e : σ) :
    commentEnd counter (octets (c :: l)) e 0 =
      place [c] + commentEnd counter (octets l) e 0 := by
  by_cases hopen : c = '/'
  · subst hopen
    rw [octets_cons_of_lt (by decide), commentEnd_cons, place_of_lt (by decide),
      if_neg fun h => ho ⟨rfl, (head?_octets_eq_iff (by decide) l).1 h.2⟩,
      if_neg fun h => absurd h.1 (by decide)]
  by_cases hclose : c = '*'
  · subst hclose
    rw [octets_cons_of_lt (by decide), commentEnd_cons, place_of_lt (by decide),
      if_neg fun h => absurd h.1 (by decide),
      if_neg fun h => hc ⟨rfl, (head?_octets_eq_iff (by decide) l).1 h.2⟩]
  rw [octets_cons, place_singleton,
    commentEnd_of_not_mem counter (mt (toUInt8_mem_encode_iff (by decide)).1 hopen)
      (mt (toUInt8_mem_encode_iff (by decide)).1 hclose)]

theorem commentEnd_octets (e : σ) (l : List Char) :
    commentEnd counter (octets l) e 0 = place (untilCounted counter e l).text := by
  fun_induction untilCounted counter e l with
  | case1 => exact commentEnd_nil counter _
  | case2 e c =>
    rw [commentEnd_other counter (by simp) (by simp), octets_nil, commentEnd_nil, Nat.add_zero]
  | case3 e c d rest ho ih =>
    obtain ⟨rfl, rfl⟩ := ho
    rw [octets_cons_of_lt (by decide), octets_cons_of_lt (by decide), commentEnd_cons,
      if_pos ⟨rfl, rfl⟩, commentEnd_two, ih, Span.push, place_append,
      place_pair_of_lt (by decide) (by decide)]
  | case4 e c d rest ho hc hn =>
    obtain ⟨rfl, rfl⟩ := hc
    rw [octets_cons_of_lt (by decide), octets_cons_of_lt (by decide), commentEnd_cons,
      if_neg fun h => absurd h.1 (by decide), if_pos ⟨rfl, rfl⟩, hn,
      place_pair_of_lt (by decide) (by decide)]
  | case5 e c d rest ho hc e' hn ih =>
    obtain ⟨rfl, rfl⟩ := hc
    rw [octets_cons_of_lt (by decide), octets_cons_of_lt (by decide), commentEnd_cons,
      if_neg fun h => absurd h.1 (by decide), if_pos ⟨rfl, rfl⟩, hn, Span.push, place_append,
      place_pair_of_lt (by decide) (by decide), ← ih]
    exact commentEnd_two counter _ _ _ _
  | case6 e c d rest ho hc ih =>
    rw [commentEnd_other counter (by simpa using ho) (by simpa using hc), ih, Span.push,
      place_append]

end Comments

/-! ### Names -/

theorem nameEnd_octets (l : List Char) :
    nameEnd (octets l) 0 = place (l.takeWhile isNameChar) := by
  induction l with
  | nil =>
    rw [nameEnd]
    rfl
  | cons c l ih =>
    have hhead := tests_inName.any_head? (c :: l)
    have hpos : 0 < (octets (c :: l)).length := place_pos (List.cons_ne_nil c l)
    rw [nameEnd, if_pos hpos, ← List.head?_eq_getElem?, hhead,
      List.takeWhile_cons]
    by_cases hc : isNameChar c = true
    · have hlt : c.toNat < 128 := tests_inName.lt_of_char hc
      have hstep : nameEnd (c.toUInt8 :: octets l) 1 = 1 + nameEnd (octets l) 0 :=
        nameEnd_shift [c.toUInt8] (octets l) 0
      rw [if_pos hc, List.head?_cons, Option.any_some, if_pos hc, octets_cons_of_lt hlt, hstep, ih,
        ← place_of_lt hlt, ← place_append]
      rfl
    · rw [if_neg hc, List.head?_cons, Option.any_some, if_neg hc]
      rfl

/-! ### Patterns -/

theorem map_add_map_add (o : Option Nat) (m n : Nat) :
    (o.map (n + ·)).map (m + ·) = o.map (m + n + ·) := by
  rw [Option.map_map]
  congr 1
  funext k
  exact (Nat.add_assoc m n k).symm

theorem find?_cons {x y : UInt8} {pattern w : List UInt8} (h : ¬x :: pattern <+: y :: w) :
    find? (x :: pattern) (y :: w) 0 = (find? (x :: pattern) w 0).map (1 + ·) := by
  rw [find?, List.drop_zero, if_neg (mt List.isPrefixOf_iff_prefix.1 h),
    if_pos (List.length_pos_iff.2 (List.cons_ne_nil y w))]
  exact find?_shift [y] w (x :: pattern) 0

theorem find?_of_not_mem {x : UInt8} {u : List UInt8} (h : x ∉ u) (pattern w : List UInt8) :
    find? (x :: pattern) (u ++ w) 0 = (find? (x :: pattern) w 0).map (u.length + ·) := by
  induction u with
  | nil => simp
  | cons y u ih =>
    obtain ⟨hy, hu⟩ := not_or.1 (mt List.mem_cons.2 h)
    rw [List.cons_append, find?_cons fun hp => hy (List.cons_prefix_cons.1 hp).1, ih hu,
      map_add_map_add, List.length_cons, Nat.add_comm 1]

section Patterns

variable {pattern : List Char} (hp : ∀ d ∈ pattern, d.toNat < 128)

include hp

theorem octets_prefix_iff (l : List Char) : octets pattern <+: octets l ↔ pattern <+: l := by
  induction pattern generalizing l with
  | nil => simp
  | cons d pattern ih =>
    obtain ⟨hd, hrest⟩ := List.forall_mem_cons.1 hp
    rw [octets_cons_of_lt hd]
    constructor
    · rintro ⟨w, hw⟩
      have hhead : (octets l).head? = some d.toUInt8 := by rw [← hw]; rfl
      obtain ⟨l, rfl⟩ := List.head?_eq_some_iff.1 ((head?_octets_eq_iff hd l).1 hhead)
      rw [octets_cons_of_lt hd, List.cons_append] at hw
      exact List.cons_prefix_cons.2 ⟨rfl, (ih hrest l).1 ⟨w, (List.cons.inj hw).2⟩⟩
    · rintro ⟨l, rfl⟩
      rw [List.cons_append, octets_cons_of_lt hd, octets_append]
      exact ⟨octets l, rfl⟩

theorem find?_here {l : List Char} (h : pattern <+: l) :
    find? (octets pattern) (octets l) 0 = some 0 := by
  rw [find?, List.drop_zero, if_pos (List.isPrefixOf_iff_prefix.2 ((octets_prefix_iff hp l).2 h))]

variable (hne : pattern ≠ [])

include hne

theorem find?_nowhere : find? (octets pattern) [] 0 = none := by
  obtain ⟨d, rest, rfl⟩ := List.exists_cons_of_ne_nil hne
  rw [octets_cons_of_lt (hp d List.mem_cons_self), find?]
  rfl

/-- A pattern is not found within a character. -/
theorem find?_later {c : Char} {l : List Char} (h : ¬pattern <+: c :: l) :
    find? (octets pattern) (octets (c :: l)) 0 =
      (find? (octets pattern) (octets l) 0).map (place [c] + ·) := by
  obtain ⟨d, rest, rfl⟩ := List.exists_cons_of_ne_nil hne
  have hd : d.toNat < 128 := hp d List.mem_cons_self
  rw [← octets_prefix_iff hp] at h
  obtain ⟨y, u, hu⟩ := exists_encode c
  have hdu : d.toUInt8 ∉ u := fun hmem => by
    have := le_of_mem_tail hu _ hmem
    rw [toNat_toUInt8 hd] at this
    omega
  rw [octets_cons_of_lt hd, octets_cons, hu, List.cons_append] at h
  rw [octets_cons_of_lt hd, octets_cons, place_singleton, hu, List.cons_append, find?_cons h,
    find?_of_not_mem hdu, map_add_map_add, List.length_cons, Nat.add_comm 1]

theorem find?_octets (l : List Char) :
    ((find? (octets pattern) (octets l) 0).map (· + place pattern)).getD (place l) =
      place (Span.untilTag pattern l).text := by
  fun_induction Span.untilTag pattern l with
  | case1 =>
    rw [octets_nil, find?_nowhere hp hne]
    rfl
  | case2 c rest h =>
    rw [find?_here hp (List.isPrefixOf_iff_prefix.1 h)]
    exact Nat.zero_add _
  | case3 c rest h ih =>
    rw [find?_later hp hne (mt List.isPrefixOf_iff_prefix.2 h), Span.push, place_append, ← ih]
    cases find? (octets pattern) (octets rest) 0 with
    | none => exact place_append [c] rest
    | some j => exact Nat.add_assoc _ _ _

end Patterns

theorem find?_lineFeed (l : List Char) :
    (find? ['\n'.toUInt8] (octets l) 0).getD (place l) = place (Span.untilLineFeed l).text := by
  have hp : ∀ d ∈ ['\n'], d.toNat < 128 := fun d hd => by
    rw [List.mem_singleton.1 hd]
    decide
  have hne : ['\n'] ≠ [] := by decide
  show (find? (octets ['\n']) (octets l) 0).getD (place l) = _
  fun_induction Span.untilLineFeed l with
  | case1 =>
    rw [octets_nil, find?_nowhere hp hne]
    rfl
  | case2 rest =>
    rw [find?_here hp (l := '\n' :: rest) ⟨rest, rfl⟩]
    rfl
  | case3 c rest hc ih =>
    have hno : ¬['\n'] <+: c :: rest := fun h => hc (List.cons_prefix_cons.1 h).1.symm
    rw [find?_later hp hne hno, Span.push, place_append, ← ih]
    cases find? (octets ['\n']) (octets rest) 0 with
    | none => exact place_append [c] rest
    | some j => rfl

/-! ### Searches from a place -/

theorem closing_place {q : Char} (hq : q.toNat < 128) (a l : List Char) :
    closing (octets (a ++ l)) q.toUInt8 (place a) = place (a ++ (Span.untilQuote q l).text) := by
  rw [octets_append, place_append, ← closing_octets hq]
  exact closing_shift _ _ _ 0

theorem escapedClosing_place (a l : List Char) :
    escapedClosing (octets (a ++ l)) (place a) =
      place (a ++ (Span.untilEscapedQuote l).text) := by
  rw [octets_append, place_append, ← escapedClosing_octets]
  exact escapedClosing_shift _ _ 0

theorem escapedClosing_end (a : List Char) : escapedClosing (octets a) (place a) = place a := by
  rw [escapedClosing, if_neg (show ¬place a < (octets a).length from Nat.lt_irrefl _)]
  rfl

/-- To pass over one octet behind a backslash comes to the same end as to pass over one character,
or none at the end of the text. -/
theorem escapedClosing_jump (a l : List Char) :
    escapedClosing (octets (a ++ '\\' :: l)) (place a + 2) =
      escapedClosing (octets (a ++ '\\' :: l)) (place (a ++ '\\' :: l.take 1)) := by
  have hback : place a + 1 = place (a ++ ['\\']) := place_succ (by decide) a
  cases l with
  | nil =>
    rw [List.take_nil, escapedClosing_end, escapedClosing, if_neg]
    · rfl
    · show ¬place a + 2 < place (a ++ ['\\'])
      omega
  | cons c l =>
    obtain ⟨x, u, hx⟩ := exists_encode c
    have htext : a ++ '\\' :: c :: l = (a ++ ['\\', c]) ++ l := by simp
    have hoctets : octets (a ++ '\\' :: c :: l) =
        (octets (a ++ ['\\']) ++ [x]) ++ (u ++ octets l) := by
      rw [List.append_cons, octets_append, octets_cons, hx]
      simp
    have hlength : place a + 2 = (octets (a ++ ['\\']) ++ [x]).length := by
      rw [List.length_append]
      exact congrArg (· + 1) hback
    have hcharacter : place (a ++ ['\\', c]) = place a + 2 + u.length := by
      rw [List.append_cons, place_append, ← hback, place_singleton, hx, List.length_cons]
      omega
    -- what is left of the character holds neither a quote nor a backslash
    have hjump : escapedClosing (octets (a ++ '\\' :: c :: l)) (place a + 2) =
        place a + 2 + (u.length + escapedClosing (octets l) 0) := by
      rw [hoctets, hlength, ← escapedClosing_within hx]
      exact escapedClosing_shift _ _ 0
    have hskip : escapedClosing (octets (a ++ '\\' :: c :: l)) (place (a ++ ['\\', c])) =
        place (a ++ ['\\', c]) + escapedClosing (octets l) 0 := by
      rw [htext, octets_append]
      exact escapedClosing_shift _ _ 0
    rw [hjump, List.take_succ_cons, List.take_zero, hskip, hcharacter]
    omega

theorem commentEnd_place {σ : Type} (counter : Counter σ) (e : σ) (a l : List Char) :
    commentEnd counter (octets (a ++ l)) e (place a) =
      place (a ++ (untilCounted counter e l).text) := by
  rw [octets_append, place_append, ← commentEnd_octets]
  exact commentEnd_shift _ _ _ _ 0

theorem nameEnd_place (a l : List Char) :
    nameEnd (octets (a ++ l)) (place a) = place (a ++ l.takeWhile isNameChar) := by
  rw [octets_append, place_append, ← nameEnd_octets]
  exact nameEnd_shift _ _ 0

theorem find?_place {pattern : List Char} (hp : ∀ d ∈ pattern, d.toNat < 128) (hne : pattern ≠ [])
    (a l : List Char) :
    ((find? (octets pattern) (octets (a ++ l)) (place a)).map (· + place pattern)).getD
        (place (a ++ l)) = place (a ++ (Span.untilTag pattern l).text) := by
  have hshift : find? (octets pattern) (octets a ++ octets l) (place a) =
      (find? (octets pattern) (octets l) 0).map (place a + ·) :=
    find?_shift _ _ (octets pattern) 0
  rw [octets_append, hshift, place_append, place_append, ← find?_octets hp hne]
  cases find? (octets pattern) (octets l) 0 with
  | none => rfl
  | some j => exact Nat.add_assoc _ _ _

theorem find?_lineFeed_place (a l : List Char) :
    (find? ['\n'.toUInt8] (octets (a ++ l)) (place a)).getD (place (a ++ l)) =
      place (a ++ (Span.untilLineFeed l).text) := by
  have hshift : find? ['\n'.toUInt8] (octets a ++ octets l) (place a) =
      (find? ['\n'.toUInt8] (octets l) 0).map (place a + ·) :=
    find?_shift _ _ ['\n'.toUInt8] 0
  rw [octets_append, hshift, place_append, place_append, ← find?_lineFeed]
  cases find? ['\n'.toUInt8] (octets l) 0 <;> rfl

theorem tagEnd?_place (a l : List Char) :
    tagEnd? (octets (a ++ '$' :: l)) (place a) = (dollarTag? l).map fun t => place (a ++ t.1) := by
  have hplace : place (a ++ ['$']) = place a + 1 := by
    rw [place_append, place_of_lt (by decide)]
  have htext : a ++ '$' :: l = (a ++ ['$']) ++ l := by simp
  have hrest : a ++ '$' :: l = (a ++ ['$'] ++ l.takeWhile isNameChar) ++ l.dropWhile isNameChar := by
    simp
  have htest := (tests_startsName.or (tests_eq (d := '$') (by decide))).any_head? l
  have hend : nameEnd (octets (a ++ '$' :: l)) (place a + 1) =
      place (a ++ ['$'] ++ l.takeWhile isNameChar) := by
    rw [← hplace, htext, nameEnd_place]
  have hhead : (octets (a ++ '$' :: l))[place a + 1]? = (octets l).head? := by
    rw [← hplace, htext, getElem?_place]
  have hafter : (octets (a ++ '$' :: l))[place (a ++ ['$'] ++ l.takeWhile isNameChar)]? =
      (octets (l.dropWhile isNameChar)).head? := by
    rw [hrest, getElem?_place]
  have hdollar := head?_octets_eq_iff (d := '$') (by decide) (l.dropWhile isNameChar)
  rw [tagEnd?, hend, hhead, hafter]
  cases l with
  | nil => rfl
  | cons c l =>
    obtain ⟨x, u, hx⟩ := exists_encode c
    have hfirst : (octets (c :: l)).head? = some x := by rw [octets_cons, hx]; rfl
    rw [hfirst, List.head?_cons, Option.any_some, Option.any_some] at htest
    have hnot : (!startsName x && x != '$'.toUInt8) = !(isNameStart c || c == '$') := by
      rw [← htest, Bool.not_or]
      rfl
    rw [hfirst, Option.any_some, hnot, dollarTag?]
    cases htag : (isNameStart c || c == '$') with
    | false => rfl
    | true =>
      rw [if_neg (by decide), if_pos rfl]
      split
      · next hd =>
        obtain ⟨rest, hrest⟩ := List.head?_eq_some_iff.1 (hdollar.1 hd)
        rw [hrest, ← place_of_lt (c := '$') (by decide), ← place_append]
        simp
      · next hd =>
        split
        · next rest hrest => exact absurd (hdollar.2 (by rw [hrest]; rfl)) hd
        · rfl

end SqlAssembly.Sql.Scanner
