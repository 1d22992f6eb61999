import SqlAssembly.Proofs.Sql.Numbering
import SqlAssembly.Proofs.Sql.Searches

/-!
# The scanner and the lexemes

What the scanner of octets does, told by characters and lexemes.

* `moveAt` is its move when the characters before and behind the place are given, and
  `startCounted_eq` the first lexeme of a text by the same conditions.
* `move_takes`: from between two characters a move takes up the next lexeme, and no slice that it
  asks for is missing.
* `Reached.exists_place` and `rewriteFrom_place` carry this over the whole pass.
* `foldlM_take`: to take up the lexemes one by one writes the statement of the text.
* `keeps_to_boundaries` puts this together.
-/

namespace SqlAssembly.Sql.Scanner

variable {σ : Type}

/-! ### Slices -/

theorem ofString_eq (s : String) : ofString s = octets s.toList := by
  have h : (String.ofList s.toList).toByteArray.data.toList = octets s.toList := by
    rw [String.toByteArray_ofList]
    exact List.toList_data_toByteArray
  rwa [String.ofList_toList] at h

theorem boundary_place {s : String} {a l : List Char} (hs : s.toList = a ++ l) :
    Boundary s (place a) := by
  refine String.Pos.Raw.isValid_iff_exists_append.2
    ⟨String.ofList a, String.ofList l, ?_, ?_⟩
  · rw [← String.ofList_append, ← hs, String.ofList_toList]
  · have h := congrArg List.length (ofString_eq (String.ofList a))
    rw [String.toList_ofList] at h
    ext
    exact h.symm

theorem sliceable_place {s : String} {a t l : List Char} (hs : s.toList = a ++ t ++ l) :
    Sliceable s (place a, place (a ++ t)) :=
  ⟨by rw [place_append]; exact Nat.le_add_right _ _,
    boundary_place (by rw [hs, List.append_assoc]), boundary_place hs⟩

/-- The octets between two places are those of the characters between them. -/
theorem octets_between (a t l : List Char) :
    ((octets (a ++ t ++ l)).drop (place a)).take (place (a ++ t) - place a) = octets t := by
  rw [octets_append, octets_append, place_append, Nat.add_sub_cancel_left, List.append_assoc, place,
    place, List.drop_left, List.take_left]

theorem slice?_place {s : String} {a t l : List Char} (hs : s.toList = a ++ t ++ l) :
    slice? s (place a, place (a ++ t)) = some (String.ofList t) := by
  rw [slice?, dif_pos (sliceable_place hs), Option.some_inj, ← String.toByteArray_inj]
  refine ByteArray.ext (Array.toList_inj.1 ?_)
  have ht : (String.ofList t).toByteArray.data.toList = octets t := by
    have := ofString_eq (String.ofList t)
    rwa [String.toList_ofList] at this
  have hall : s.toByteArray.data.toList = octets (a ++ t ++ l) := by
    rw [← hs]
    exact ofString_eq s
  rw [String.toByteArray_extract, ByteArray.data_extract, Array.toList_extract, hall, ht,
    List.extract_eq_take_drop]
  exact octets_between a t l

/-! ### Moves told by characters -/

/-- The first octet of a text with these characters. -/
theorem octet_eq_iff {c d : Char} (hd : d.toNat < 128) {b : UInt8} {l : List Char}
    (hb : (octets (c :: l)).head? = some b) : b = d.toUInt8 ↔ c = d := by
  have := head?_octets_eq_iff hd (c :: l)
  rwa [hb, Option.some_inj, List.head?_cons, Option.some_inj] at this

theorem octets_eq_iff {a l : List Char} {c d e : Char} (hd : d.toNat < 128) (he : e.toNat < 128)
    {b : UInt8} (hb : (octets (c :: l)).head? = some b) :
    b = d.toUInt8 ∧ (octets (a ++ c :: l))[place a + 1]? = some e.toUInt8 ↔
      c = d ∧ l.head? = some e := by
  rw [octet_eq_iff hd hb]
  refine and_congr_right fun hc => ?_
  subst hc
  have htext : a ++ c :: l = (a ++ [c]) ++ l := by simp
  rw [← place_of_lt hd, ← place_append, htext, getElem?_place, head?_octets_eq_iff he]

/-- The opener of a dollar quote behind the characters `a`, and what follows it. -/
def opener? (a : List Char) (c : Char) (l : List Char) : Option (List Char × List Char) :=
  if c = '$' ∧ continuesName a.getLast? = false then dollarTag? l else none

theorem opener?_eq_some {a l tag body : List Char} {c : Char}
    (h : opener? a c l = some (tag, body)) :
    c = '$' ∧ tag ++ body = '$' :: l ∧ tag ≠ [] ∧ ∀ d ∈ tag, d.toNat < 128 := by
  unfold opener? at h
  split at h
  · next hc =>
    refine ⟨hc.1, dollarTag?_covers h, ?_, ?_⟩
    · obtain ⟨t, rfl⟩ := dollarTag?_ne_nil h
      exact List.cons_ne_nil _ _
    · obtain ⟨name, rfl, hname⟩ := isTag_of_dollarTag? h
      have hall : ∀ d ∈ name, d.toNat < 128 := by
        rcases hname with rfl | hname
        · nofun
        · exact fun d hd => tests_inName.lt_of_char (isNameChar_iff.2 (hname.forall_nameChar d hd))
      intro d hd
      rcases List.mem_cons.1 hd with rfl | hd
      · decide
      · rcases List.mem_append.1 hd with hd | hd
        · exact hall d hd
        · rw [List.mem_singleton.1 hd]
          decide
  · cases h

/-- What the scanner does behind the characters `a` when the text goes on with `c` and `l`. -/
def moveAt (counter : Counter σ) (a : List Char) (c : Char) (l : List Char) : Move :=
  if c = '\'' ∨ c = '"' then .copy [] (place (a ++ c :: (Span.untilQuote c l).text))
  else if (c = 'E' ∨ c = 'e') ∧ l.head? = some '\'' ∧ continuesName a.getLast? = false then
    .copy [] (place (a ++ c :: '\'' :: (Span.untilEscapedQuote l.tail).text))
  else if c = '-' ∧ l.head? = some '-' then
    .copy [(place a, place (a ++ c :: l))] (place (a ++ (Span.untilLineFeed (c :: l)).text))
  else if c = '/' ∧ l.head? = some '*' then
    .copy [] (place (a ++ c :: '*' :: (untilCounted counter counter.one l.tail).text))
  else
    match opener? a c l with
    | some (tag, body) =>
      .copy [(place a, place (a ++ tag)), (place (a ++ tag), place (a ++ c :: l))]
        (place (a ++ tag ++ (Span.untilTag tag body).text))
    | none =>
      if c = ':' ∧ l.head? = some ':' then .cast
      else if c = ':' ∧ l.head?.any isNameStart then
        .name (place a + 1) (place (a ++ c :: l.takeWhile isNameChar))
      else .copy [] (place (a ++ [c]))

section MoveAt

variable {a l : List Char} {c : Char} {b : UInt8} (hb : (octets (c :: l)).head? = some b)

include hb

/-- The moves at a colon and at characters that start nothing. -/
theorem colon_place :
    (if b = ':'.toUInt8 ∧ (octets (a ++ c :: l))[place a + 1]? = some ':'.toUInt8 then .cast
      else if b = ':'.toUInt8 ∧ (octets (a ++ c :: l))[place a + 1]?.any startsName then
        .name (place a + 1) (nameEnd (octets (a ++ c :: l)) (place a + 1))
      else .copy [] (place a + width b) : Move) =
    if c = ':' ∧ l.head? = some ':' then .cast
    else if c = ':' ∧ l.head?.any isNameStart then
      .name (place a + 1) (place (a ++ c :: l.takeWhile isNameChar))
    else .copy [] (place (a ++ [c])) := by
  have hcolon := octet_eq_iff (d := ':') (by decide) hb
  refine ite_congr (propext (octets_eq_iff (by decide) (by decide) hb)) (fun _ => rfl) fun _ =>
    ite_congr (propext ?_) (fun h => ?_) fun _ => ?_
  · rw [hcolon]
    refine and_congr_right fun hc => ?_
    rw [hc, place_succ (c := ':') (by decide), List.append_cons a ':' l, getElem?_place,
      tests_startsName.any_head?]
  · rw [h.1, place_succ (c := ':') (by decide), List.append_cons a ':' l, nameEnd_place,
      List.append_cons a ':' (l.takeWhile isNameChar)]
  · have hhead : (String.utf8EncodeChar c).head? = some b := by
      obtain ⟨x, u, hx⟩ := exists_encode c
      rw [octets_cons, hx] at hb
      rw [hx]
      exact hb
    rw [width_eq hhead, place_append, place_singleton]

theorem opener_place :
    (if b = '$'.toUInt8 ∧ followsName (octets (a ++ c :: l)) (place a) = false then
        tagEnd? (octets (a ++ c :: l)) (place a)
      else none) = (opener? a c l).map fun t => place (a ++ t.1) := by
  rw [opener?, apply_ite (Option.map _)]
  refine ite_congr (propext ?_) (fun h => ?_) fun _ => rfl
  · rw [octet_eq_iff (by decide) hb, followsName_place]
  · rw [h.1, tagEnd?_place]

theorem move_place (counter : Counter σ) :
    move counter (octets (a ++ c :: l)) (place a) b = moveAt counter a c l := by
  unfold move moveAt
  refine ite_congr (propext ?_) (fun h => ?_) fun _ => ite_congr (propext ?_) (fun h => ?_) fun _ =>
    ite_congr (propext ?_) (fun h => ?_) fun _ => ite_congr (propext ?_) (fun h => ?_) fun _ => ?_
  · rw [octet_eq_iff (by decide) hb, octet_eq_iff (by decide) hb]
  · have hc : c.toNat < 128 := by rcases h with rfl | rfl <;> decide
    rw [(octet_eq_iff hc hb).2 rfl, place_succ hc, List.append_cons a c l, closing_place hc,
      List.append_assoc]
    rfl
  · rw [← and_assoc, or_and_right, octets_eq_iff (by decide) (by decide) hb,
      octets_eq_iff (by decide) (by decide) hb, ← or_and_right, and_assoc, followsName_place]
  · obtain ⟨hc, hl, -⟩ := h
    obtain ⟨body, rfl⟩ := List.head?_eq_some_iff.1 hl
    have hc : c.toNat < 128 := by rcases hc with rfl | rfl <;> decide
    have htext : a ++ c :: '\'' :: body = (a ++ [c, '\'']) ++ body := by simp
    rw [place_add_two hc (d := '\'') (by decide), htext, escapedClosing_place]
    simp
  · exact octets_eq_iff (by decide) (by decide) hb
  · show Move.copy [(place a, place (a ++ c :: l))] (Option.getD _ (place (a ++ c :: l))) = _
    rw [find?_lineFeed_place]
  · exact octets_eq_iff (by decide) (by decide) hb
  · obtain ⟨rfl, hl⟩ := h
    obtain ⟨body, rfl⟩ := List.head?_eq_some_iff.1 hl
    have htext : a ++ '/' :: '*' :: body = (a ++ ['/', '*']) ++ body := by simp
    rw [place_add_two (c := '/') (by decide) (d := '*') (by decide), htext, commentEnd_place]
    simp
  · rw [opener_place hb]
    cases htag : opener? a c l with
    | none => exact colon_place hb
    | some t =>
      obtain ⟨tag, body⟩ := t
      obtain ⟨rfl, hcovers, hne, hascii⟩ := opener?_eq_some htag
      have hseen := octets_between a tag body
      rw [List.append_assoc, hcovers] at hseen
      have hfind := find?_place hascii hne (a ++ tag) body
      rw [List.append_assoc a tag body, hcovers] at hfind
      show Move.copy [(place a, place (a ++ tag)), (place (a ++ tag), place (a ++ '$' :: l))]
        (Option.getD _ (place (a ++ '$' :: l))) = _
      rw [hseen]
      exact congrArg _ hfind

end MoveAt

/-! ### Lexemes -/

/-- Takes up a lexeme. -/
def Output.take (b : Bindings) (out : Output) : Lexeme → Except Fault Output
  | .placeholder name => out.number b (String.ofList name)
  | x => .ok (out.push (String.ofList x.text))

/-- The move takes up the lexeme `x` behind the characters `a` of the text. -/
inductive Move.Takes (s : String) (a : List Char) : Lexeme → Move → Prop
  | copy {x : Lexeme} {seen : List (Nat × Nat)} (hx : x.name? = none)
      (hseen : ∀ p ∈ seen, Sliceable s p) : Takes s a x (.copy seen (place (a ++ x.text)))
  | cast : Takes s a .cast .cast
  | name (name : List Char) :
      Takes s a (.placeholder name) (.name (place a + 1) (place (a ++ ':' :: name)))

section Takes

variable {s : String} {a rest : List Char} {x : Lexeme} {m : Move}

theorem Move.Takes.next_eq (h : m.Takes s a x) : m.next (place a) = place (a ++ x.text) := by
  cases h with
  | copy => rfl
  | cast => exact place_add_two (by decide) (by decide) a
  | name => rfl

theorem Move.Takes.sliceable (h : m.Takes s a x) (hs : s.toList = a ++ x.text ++ rest) :
    ∀ p ∈ m.slices (place a), Sliceable s p := by
  cases h with
  | copy hx hseen =>
    intro p hp
    rcases List.mem_append.1 hp with hp | hp
    · exact hseen p hp
    · rw [List.mem_singleton.1 hp]
      exact sliceable_place hs
  | cast => nofun
  | name name =>
    intro p hp
    rw [List.mem_singleton.1 hp, place_succ (c := ':') (by decide), List.append_cons a ':' name]
    exact sliceable_place (l := rest) (by rw [hs, Lexeme.text, List.append_cons a ':' name])

theorem mapM_slice? {seen : List (Nat × Nat)} (h : ∀ p ∈ seen, Sliceable s p) :
    ∃ pieces, seen.mapM (slice? s) = some pieces := by
  induction seen with
  | nil => exact ⟨[], rfl⟩
  | cons p seen ih =>
    obtain ⟨hp, hseen⟩ := List.forall_mem_cons.1 h
    obtain ⟨pieces, hpieces⟩ := ih hseen
    exact ⟨_, by rw [List.mapM_cons, slice?, dif_pos hp, hpieces]; rfl⟩

theorem Move.Takes.run_eq (h : m.Takes s a x) (hs : s.toList = a ++ x.text ++ rest) (b : Bindings)
    (out : Output) : m.run b s (place a) out = some (out.take b x) := by
  cases h with
  | copy hx hseen =>
    obtain ⟨pieces, hpieces⟩ := mapM_slice? hseen
    rw [Move.run, hpieces, slice?_place hs]
    cases x with
    | placeholder name => cases hx
    | _ => rfl
  | cast => rfl
  | name name =>
    have hs' : s.toList = (a ++ [':']) ++ name ++ rest := by
      rw [hs, Lexeme.text, List.append_cons a ':' name]
    rw [Move.run, place_succ (c := ':') (by decide), List.append_cons a ':' name,
      slice?_place hs']
    rfl

end Takes

theorem takes_copy {s : String} {a : List Char} {x : Lexeme} {stop : Nat} (hx : x.name? = none)
    (h : stop = place (a ++ x.text)) : (Move.copy [] stop).Takes s a x := by
  subst h
  exact .copy hx nofun

theorem head?_ne_some {d : Char} {l : List Char} (h : ∀ body, l = d :: body → False) :
    l.head? ≠ some d := by
  intro hd
  obtain ⟨body, hl⟩ := List.head?_eq_some_iff.1 hd
  exact h body hl

/-- The first lexeme of a text, told by the conditions that the scanner tests. -/
theorem startCounted_eq (counter : Counter σ) (a : List Char) (c : Char) (l : List Char) :
    Lexeme.startCounted counter a.getLast? c l =
      if c = '\'' ∨ c = '"' then
        (Span.untilQuote c l).region (if c = '\'' then .literal else .identifier) [c]
      else if (c = 'E' ∨ c = 'e') ∧ l.head? = some '\'' ∧ continuesName a.getLast? = false then
        (Span.untilEscapedQuote l.tail).region .escapeLiteral [c, '\'']
      else if c = '-' ∧ l.head? = some '-' then
        (Span.untilLineFeed l.tail).region .lineComment [c, '-']
      else if c = '/' ∧ l.head? = some '*' then
        (untilCounted counter counter.one l.tail).region .blockComment [c, '*']
      else
        match opener? a c l with
        | some (tag, body) => (Span.untilTag tag body).region .dollarQuote tag
        | none =>
          if c = ':' ∧ l.head? = some ':' then (.cast, l.tail)
          else if c = ':' ∧ l.head?.any isNameStart then
            (.placeholder (l.takeWhile isNameChar), l.dropWhile isNameChar)
          else (.other c, l) := by
  by_cases hcomment : c = '/' ∧ l.head? = some '*'
  · obtain ⟨rfl, -⟩ := id hcomment
    simp [Lexeme.startCounted, hcomment]
  rw [Lexeme.startCounted, if_neg hcomment]
  unfold Lexeme.start opener?
  by_cases hs : c = '\''
  · simp [hs]
  by_cases hd : c = '"'
  · simp [hd]
  by_cases he : c = 'E' ∨ c = 'e'
  · have hne : c ≠ '-' ∧ c ≠ '/' ∧ c ≠ '$' ∧ c ≠ ':' := by rcases he with rfl | rfl <;> decide
    rw [if_neg hs, if_neg hd, if_pos he]
    split
    · cases continuesName a.getLast? <;> simp [hs, hd, he, hne]
    · next hl => simp [hs, hd, he, hne, head?_ne_some hl]
  by_cases hm : c = '-'
  · subst hm
    rw [if_neg hs, if_neg hd, if_neg he, if_pos rfl]
    split
    · simp
    · next hl => simp [head?_ne_some hl]
  by_cases hc : c = '/'
  · subst hc
    rw [if_neg hs, if_neg hd, if_neg he, if_neg hm, if_pos rfl]
    split
    · exact (hcomment ⟨rfl, rfl⟩).elim
    · next hl => simp [head?_ne_some hl]
  by_cases hk : c = '$'
  · subst hk
    rw [if_neg hs, if_neg hd, if_neg he, if_neg hm, if_neg hc, if_pos rfl]
    cases continuesName a.getLast? <;> cases dollarTag? l <;> simp
  by_cases hp : c = ':'
  · subst hp
    rw [if_neg hs, if_neg hd, if_neg he, if_neg hm, if_neg hc, if_neg hk, if_pos rfl]
    split
    · simp
    · next d rest hl =>
      have hd : d ≠ ':' := hl
      simp [hd]
    · simp
  · simp [*]

/-- What the scanner does takes up the next lexeme, if the ends of comments are found with its
counter. -/
theorem moveAt_takes (counter : Counter σ) {s : String} {a l : List Char} {c : Char}
    (hs : s.toList = a ++ c :: l) :
    (moveAt counter a c l).Takes s a (Lexeme.startCounted counter a.getLast? c l).1 := by
  have hall : Sliceable s (place a, place (a ++ c :: l)) :=
    sliceable_place (l := []) (by rw [hs, List.append_nil])
  rw [moveAt, startCounted_eq]
  split
  · exact takes_copy rfl rfl
  split
  · exact takes_copy rfl rfl
  split
  · next h =>
    obtain ⟨rfl, hl⟩ := h
    obtain ⟨body, rfl⟩ := List.head?_eq_some_iff.1 hl
    refine .copy (x := .region .lineComment ('-' :: '-' :: _) _) rfl ?_
    simpa using hall
  split
  · exact takes_copy rfl rfl
  split
  · next tag body htag =>
    obtain ⟨rfl, hcovers, -, -⟩ := opener?_eq_some htag
    rw [List.append_assoc]
    refine .copy (x := .region .dollarQuote _ _) rfl ?_
    have htag : Sliceable s (place a, place (a ++ tag)) :=
      sliceable_place (l := body) (by rw [hs, List.append_assoc, hcovers])
    have hbody : Sliceable s (place (a ++ tag), place (a ++ '$' :: l)) := by
      rw [← hcovers, ← List.append_assoc]
      exact sliceable_place (l := []) (by rw [hs, List.append_nil, List.append_assoc, hcovers])
    simpa using ⟨htag, hbody⟩
  split
  · exact .cast
  split
  · next h =>
    obtain ⟨rfl, -⟩ := h
    exact .name _
  · exact takes_copy rfl rfl

theorem move_takes (counter : Counter σ) {s : String} {a l : List Char} {c : Char} {o : UInt8}
    (hs : s.toList = a ++ c :: l) (ho : (ofString s)[place a]? = some o) :
    (move counter (ofString s) (place a) o).Takes s a
      (Lexeme.startCounted counter a.getLast? c l).1 := by
  rw [ofString_eq, hs, getElem?_place] at ho
  rw [ofString_eq, hs, move_place ho]
  exact moveAt_takes counter hs

/-! ### The pass -/

theorem exists_takes (counter : Counter σ) {s : String} {a l : List Char} {o : UInt8}
    (hs : s.toList = a ++ l) (ho : (ofString s)[place a]? = some o) :
    ∃ x rest, s.toList = a ++ x.text ++ rest ∧
      (move counter (ofString s) (place a) o).Takes s a x := by
  cases l with
  | nil =>
    rw [ofString_eq, hs, getElem?_place] at ho
    cases ho
  | cons c l =>
    have hcover := Lexeme.startCounted_covers counter a.getLast? c l
    exact ⟨_, _, by rw [hs, List.append_assoc, hcover], move_takes counter hs ho⟩

/-- The places that the scanner comes to are ends of characters. -/
theorem Reached.exists_place {counter : Counter σ} {s : String} {i : Nat}
    (h : Reached counter s i) : ∃ a l, s.toList = a ++ l ∧ i = place a := by
  induction h with
  | start => exact ⟨[], s.toList, rfl, rfl⟩
  | step h ho ih =>
    obtain ⟨a, l, hs, rfl⟩ := ih
    obtain ⟨x, rest, hx, htakes⟩ := exists_takes counter hs ho
    exact ⟨a ++ x.text, rest, hx, htakes.next_eq⟩

/-- The pass behind the characters `a` takes up the lexemes of the rest of the text. -/
theorem rewriteFrom_place (counter : Counter σ) (b : Bindings) {s : String} {a l : List Char}
    (hs : s.toList = a ++ l) :
    ∃ xs, Reading (.counted counter) a.getLast? xs l ∧
      ∀ out, rewriteFrom counter b s (place a) out = some (xs.foldlM (Output.take b) out) := by
  induction hlen : l.length using Nat.strong_induction_on generalizing a l with
  | _ n ih =>
    cases l with
    | nil =>
      refine ⟨[], .nil _, fun out => ?_⟩
      rw [rewriteFrom]
      split
      · rfl
      · next o ho =>
        rw [ofString_eq, hs, getElem?_place] at ho
        cases ho
    | cons c l =>
      obtain ⟨o, u, ho⟩ := exists_encode c
      have hfirst : (ofString s)[place a]? = some o := by
        rw [ofString_eq, hs, getElem?_place, octets_cons, ho]
        rfl
      have hstarts := starts_startCounted counter a.getLast? c l
      have hcover := Lexeme.startCounted_covers counter a.getLast? c l
      have htakes := move_takes counter hs hfirst
      have hne := hstarts.text_ne_nil
      generalize Lexeme.startCounted counter a.getLast? c l = x at hstarts hcover htakes hne
      have hs' : s.toList = a ++ x.1.text ++ x.2 := by rw [hs, List.append_assoc, hcover]
      have hlt : x.2.length < n := by
        have h := congrArg List.length hcover
        have hpos := List.length_pos_iff.2 hne
        rw [List.length_append] at h
        omega
      obtain ⟨xs, hxs, hrun⟩ := ih x.2.length hlt hs' rfl
      have hlast : (a ++ x.1.text).getLast? = x.1.text.getLast? := by
        rw [List.getLast?_append, Option.or_of_isSome]
        rwa [List.getLast?_isSome]
      rw [hlast] at hxs
      refine ⟨x.1 :: xs, hcover ▸ .cons hstarts hxs, fun out => ?_⟩
      rw [rewriteFrom]
      split
      · next hnone =>
        rw [hfirst] at hnone
        cases hnone
      · next o' ho' =>
        obtain rfl : o = o' := by
          rw [hfirst] at ho'
          exact Option.some.inj ho'
        rw [htakes.run_eq hs', htakes.next_eq, List.foldlM_cons]
        cases htake : out.take b x.1 with
        | error e => rfl
        | ok out' => exact hrun out'

/-! ### The statement -/

/-- What is written once the lexemes `xs` are taken up. -/
def Output.ofLexemes (b : Bindings) (xs : List Lexeme) : Except Fault Output := do
  let data ← (uses xs).eraseDups.mapM b.require
  return ⟨xs.flatMap (numbered (uses xs).eraseDups), (uses xs).eraseDups, data⟩

theorem Output.number_of_mem (b : Bindings) (out : Output) {name : String} (h : name ∈ out.names) :
    out.number b name = .ok { out with text := out.text ++ marker (out.names.idxOf name) } := by
  obtain ⟨i, hi⟩ := Option.isSome_iff_exists.1 (List.isSome_idxOf?.2 h)
  rw [Output.number, List.idxOf_eq_getD_idxOf?, hi]
  rfl

theorem Output.number_of_not_mem (b : Bindings) (out : Output) {name : String}
    (h : name ∉ out.names) :
    out.number b name = (b.require name).map fun datum =>
      ⟨out.text ++ marker out.names.length, out.names ++ [name], out.data ++ [datum]⟩ := by
  rw [Output.number, List.idxOf?_eq_none_iff.2 h]
  cases b.require name <;> rfl

/-- A name more leaves the numbers of the other names. -/
theorem flatMap_numbered_concat {xs : List Lexeme} {name : String} {names : List String}
    (h : ∀ n ∈ uses xs, n ∈ names) :
    xs.flatMap (numbered (names ++ [name])) = xs.flatMap (numbered names) := by
  refine List.flatMap_congr fun x hx => ?_
  cases x with
  | placeholder n =>
    have hn : String.ofList n ∈ names := h _ (mem_uses_iff.2 (by rwa [String.toList_ofList]))
    rw [numbered, numbered, List.idxOf_append_of_mem hn]
  | _ => rfl

theorem uses_concat (xs : List Lexeme) (x : Lexeme) : uses (xs ++ [x]) = uses xs ++ uses [x] :=
  List.filterMap_append

theorem ofLexemes_concat_placeholder (b : Bindings) (xs : List Lexeme) (n : List Char) :
    Output.ofLexemes b (xs ++ [.placeholder n]) =
      (Output.ofLexemes b xs).bind fun out => out.number b (String.ofList n) := by
  have hone : uses [.placeholder n] = [String.ofList n] := rfl
  rw [Output.ofLexemes, Output.ofLexemes, uses_concat, hone, eraseDups_concat,
    List.flatMap_append, List.flatMap_singleton]
  split
  · next hmem =>
    cases (uses xs).eraseDups.mapM b.require with
    | error e => rfl
    | ok data =>
      exact (Output.number_of_mem b ⟨_, (uses xs).eraseDups, data⟩
        (List.mem_eraseDups.2 hmem)).symm
  · next hmem =>
    have hnew : String.ofList n ∉ (uses xs).eraseDups := mt List.mem_eraseDups.1 hmem
    have hplace : ((uses xs).eraseDups ++ [String.ofList n]).idxOf (String.ofList n) =
        (uses xs).eraseDups.length := by
      rw [List.idxOf_append_of_notMem hnew, List.idxOf_cons_self, Nat.add_zero]
    rw [flatMap_numbered_concat fun n hn => List.mem_eraseDups.2 hn, List.mapM_append, numbered,
      hplace]
    cases (uses xs).eraseDups.mapM b.require with
    | error e => rfl
    | ok data =>
      refine Eq.trans ?_ (Output.number_of_not_mem b ⟨_, (uses xs).eraseDups, data⟩ hnew).symm
      rw [List.mapM_cons, List.mapM_nil]
      cases b.require (String.ofList n) <;> rfl

theorem ofLexemes_concat_text (b : Bindings) (xs : List Lexeme) {x : Lexeme}
    (hx : x.name? = none) :
    Output.ofLexemes b (xs ++ [x]) =
      (Output.ofLexemes b xs).bind fun out => .ok (out.push (String.ofList x.text)) := by
  have hone : uses [x] = [] := by simp [uses, hx]
  have htext (names : List String) : numbered names x = x.text := by
    cases x with
    | placeholder n => cases hx
    | _ => rfl
  rw [Output.ofLexemes, Output.ofLexemes, uses_concat, hone, List.append_nil,
    List.flatMap_append, List.flatMap_singleton, htext]
  cases (uses xs).eraseDups.mapM b.require with
  | error e => rfl
  | ok data =>
    show Except.ok _ = Except.ok _
    rw [Output.push, String.toList_ofList]

theorem foldlM_take (b : Bindings) (xs : List Lexeme) :
    xs.foldlM (Output.take b) {} = Output.ofLexemes b xs := by
  induction xs using List.reverseRecOn with
  | nil => rfl
  | append_singleton xs x ih =>
    rw [List.foldlM_append, ih]
    simp only [List.foldlM_cons, List.foldlM_nil, bind_pure]
    cases x with
    | placeholder n => exact (ofLexemes_concat_placeholder b xs n).symm
    | _ => exact (ofLexemes_concat_text b xs rfl).symm

theorem statement_eq (b : Bindings) (s : String) :
    b.statement s = Output.statement <$> (lexemes none s.toList).foldlM (Output.take b) {} := by
  rw [foldlM_take, Output.ofLexemes, Bindings.statement, placeholders_eq_uses, map_bind]
  rfl

/-! ### Main results -/

/-- The pass comes to its end, with the lexemes of the text as the counter finds them. -/
theorem exists_rewrite_eq (counter : Counter σ) (b : Bindings) (s : String) :
    ∃ xs, Reading (.counted counter) none xs s.toList ∧
      rewrite counter b s = some (Output.statement <$> xs.foldlM (Output.take b) {}) := by
  obtain ⟨xs, hxs, hrun⟩ := rewriteFrom_place counter b (s := s) (a := []) rfl
  exact ⟨xs, hxs, congrArg (Option.map _) (hrun {})⟩

theorem rewrite_int32 (b : Bindings) (s : String) :
    rewrite Counter.int32 b s = some (b.statement s) := by
  obtain ⟨xs, hxs, hrun⟩ := exists_rewrite_eq Counter.int32 b s
  rw [hrun, statement_eq, reading_iff.1 hxs]

/-- The scanner of octets keeps to the ends of characters, whatever the text, the bindings and the
counter of comments. At each place that it comes to it goes on, and every slice that it asks for is
there. So the pass comes to its end with an outcome, which is that of `Bindings.statement` with its
counter of 32 bits. Behind a backslash one octet may be passed over for a character. -/
theorem keeps_to_boundaries (counter : Counter σ) (b : Bindings) (s : String) :
    (∀ i, Reached counter s i →
      Boundary s i ∧ ∀ o, (ofString s)[i]? = some o →
        i < (move counter (ofString s) i o).next i ∧
          Boundary s ((move counter (ofString s) i o).next i) ∧
            ∀ p ∈ (move counter (ofString s) i o).slices i, Sliceable s p) ∧
    (∃ outcome, rewrite counter b s = some outcome) ∧
    rewrite Counter.int32 b s = some (b.statement s) ∧
    ∀ a l, s.toList = a ++ '\\' :: l →
      escapedClosing (ofString s) (place a + 2) =
        escapedClosing (ofString s) (place (a ++ '\\' :: l.take 1)) := by
  refine ⟨fun i h => ?_, ?_, rewrite_int32 b s, fun a l hs => ?_⟩
  · obtain ⟨a, l, hs, rfl⟩ := h.exists_place
    refine ⟨boundary_place hs, fun o ho => ?_⟩
    obtain ⟨x, rest, hx, htakes⟩ := exists_takes counter hs ho
    exact ⟨lt_next counter ho, by rw [htakes.next_eq]; exact boundary_place hx,
      htakes.sliceable hx⟩
  · obtain ⟨xs, -, hrun⟩ := exists_rewrite_eq counter b s
    exact ⟨_, hrun⟩
  · rw [ofString_eq, hs]
    exact escapedClosing_jump a l

theorem keeps_to_boundaries_escaped_umlaut :
    Boundary "E'\\ü'" 0 ∧
      0 < (move Counter.int32 (ofString "E'\\ü'") 0 'E'.toUInt8).next 0 ∧
      (∃ outcome, rewrite Counter.int32 ∅ "E'\\ü'" = some outcome) ∧
      escapedClosing (ofString "E'\\ü'") (place ['E', '\''] + 2) =
        escapedClosing (ofString "E'\\ü'") (place ['E', '\'', '\\', 'ü']) :=
  have h := keeps_to_boundaries Counter.int32 ∅ "E'\\ü'"
  ⟨(h.1 0 .start).1, ((h.1 0 .start).2 _ (by decide)).1, h.2.1,
    h.2.2.2 ['E', '\''] ['ü', '\''] (by decide)⟩

end SqlAssembly.Sql.Scanner
