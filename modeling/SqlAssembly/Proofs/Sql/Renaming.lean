import SqlAssembly.Proofs.Sql.Numbering
import SqlAssembly.Proofs.Sql.Respelling

/-!
# Renamed placeholders

A statement has numbers for names, so it does not tell the names.

* `lexemes_renamed`: a text whose placeholders are renamed has the renamed lexemes.
* `Bindings.statement_renamed`: it has the same statement, as long as different names stay different
  and what is bound follows the names.
-/

namespace SqlAssembly

namespace Sql

/-- The lexeme with its name, if it has one, replaced. -/
def renamed (g : String → String) : Lexeme → Lexeme
  | .placeholder name => .placeholder (g (String.ofList name)).toList
  | x => x

theorem renamed_of_name?_eq_none {g : String → String} {x : Lexeme} (hx : x.name? = none) :
    renamed g x = x := by
  cases x with
  | placeholder name => cases hx
  | _ => rfl

theorem uses_map_renamed (g : String → String) (xs : List Lexeme) :
    uses (xs.map (renamed g)) = (uses xs).map g := by
  rw [uses, uses, List.filterMap_map, List.map_filterMap]
  refine List.filterMap_congr fun x _ => ?_
  cases x <;> simp [renamed, Lexeme.name?]

/-! ### Lexemes -/

theorem respelled_renamed (g : String → String) (xs : List Lexeme) :
    respelled (fun x => [renamed g x]) xs = (xs.map (renamed g)).flatMap Lexeme.text := by
  rw [respelled, List.map_eq_flatMap]

theorem respelling_renamed {g : String → String}
    (hg : ∀ n : String, IsName n.toList → IsName (g n).toList) :
    Respelling fun x => [renamed g x] where
  kept x hx := by rw [renamed_of_name?_eq_none hx]
  head name _ := by
    rw [List.flatMap_singleton]
    exact ⟨_, .inl rfl⟩
  read name hn prev rest hr := by
    have hname : IsName (g (String.ofList name)).toList := hg _ (by rwa [String.toList_ofList])
    have hstarts : Starts (.counted .int32) prev (renamed g (.placeholder name)) rest :=
      .placeholder hname hr
    rw [List.flatMap_singleton, hstarts.lexemes_eq, List.singleton_append]
    -- both names end with a character of a name
    exact congrArg _ (lexemes_congr
      (iff_of_true hname.continues_placeholder hn.continues_placeholder) rest)

/-- A word without a colon that a renamed text starts with is one that the text starts with. -/
theorem prefix_of_prefix_renamed (g : String → String) {p : List Char} (hp : ':' ∉ p)
    {xs : List Lexeme} (h : p <+: (xs.map (renamed g)).flatMap Lexeme.text) :
    p <+: xs.flatMap Lexeme.text := by
  induction xs generalizing p with
  | nil => exact h
  | cons x xs ih =>
    rw [List.map_cons, List.flatMap_cons] at h
    rw [List.flatMap_cons]
    rcases x.eq_placeholder_or with ⟨name, rfl⟩ | hx
    · -- a placeholder starts with a colon under each name
      cases p with
      | nil => exact List.nil_prefix
      | cons c p =>
        obtain ⟨rfl, -⟩ := List.cons_prefix_cons.1 h
        exact (hp List.mem_cons_self).elim
    · rw [renamed_of_name?_eq_none hx] at h
      obtain ⟨t, ht⟩ := h
      rcases List.append_eq_append_iff.1 ht with ⟨v, hv, -⟩ | ⟨v, rfl, hv⟩
      · exact ⟨v ++ xs.flatMap Lexeme.text, by rw [hv, List.append_assoc]⟩
      · exact (List.prefix_append_right_inj _).2
          (ih (fun hc => hp (List.mem_append_right _ hc)) ⟨t, hv.symm⟩)

theorem colon_not_mem_of_isName {name : List Char} (h : name = [] ∨ IsName name) :
    ':' ∉ name ++ ['$'] := by
  have hcolon : ¬NameChar ':' := by
    rw [← isNameChar_iff]
    decide
  intro hmem
  have hname : ':' ∈ name := by simpa using hmem
  rcases h with rfl | h
  · cases hname
  · exact hcolon (h.forall_nameChar _ hname)

/-- A text whose placeholders are renamed has the renamed lexemes. -/
theorem lexemes_renamed {g : String → String}
    (hg : ∀ n : String, IsName n.toList → IsName (g n).toList) (prev : Option Char)
    (l : List Char) :
    lexemes prev (((lexemes prev l).map (renamed g)).flatMap Lexeme.text) =
      (lexemes prev l).map (renamed g) := by
  have hf := respelling_renamed hg
  rw [← respelled_renamed, List.map_eq_flatMap]
  refine hf.lexemes_respelled fun xs ys hxs hopens => ?_
  rw [respelled_renamed] at hopens
  have hother := starts_of_lexemes_eq hxs
  generalize (xs.flatMap Lexeme.text).getLast?.or prev = p at hopens hother
  cases hother with
  | other hno =>
    -- the rest of the tag has no colon, so it would have been there before
    obtain ⟨hp, name, rest, hn, e⟩ := opens_dollar_iff.1 hopens
    obtain ⟨t, ht⟩ := prefix_of_prefix_renamed g (colon_not_mem_of_isName hn)
      ⟨rest, by rw [e, List.append_assoc, List.singleton_append]⟩
    refine hno (opens_dollar_iff.2 ⟨hp, name, t, hn, ?_⟩)
    rw [← ht, List.append_assoc, List.singleton_append]

/-! ### Places -/

theorem idxOf_map_of_injOn {g : String → String} {l : List String}
    (hg : Set.InjOn g {n | n ∈ l}) {n : String} (hn : n ∈ l) :
    (l.map g).idxOf (g n) = l.idxOf n := by
  induction l with
  | nil => cases hn
  | cons m l ih =>
    by_cases hm : m = n
    · simp [hm]
    · have hgm : g m ≠ g n := fun e => hm (hg List.mem_cons_self hn e)
      have htail : Set.InjOn g {n | n ∈ l} := hg.mono fun _ => List.mem_cons_of_mem m
      rw [List.map_cons, List.idxOf_cons_ne _ hgm, List.idxOf_cons_ne _ hm,
        ih htail ((List.mem_cons.1 hn).resolve_left (Ne.symm hm))]

theorem eraseDups_map_of_injOn {g : String → String} {l : List String}
    (hg : Set.InjOn g {n | n ∈ l}) : (l.map g).eraseDups = l.eraseDups.map g := by
  induction l using eraseDups_induction with
  | nil => rfl
  | cons a l ih =>
    -- the name that is `a` before is the one that is `g a` after
    have hfilter : (l.map g).filter (fun m => !m == g a) =
        (l.filter fun n => !n == a).map g := by
      rw [List.filter_map]
      refine congrArg (List.map g) (List.filter_congr fun n hn => ?_)
      have : g n = g a ↔ n = a :=
        ⟨fun e => hg (List.mem_cons_of_mem a hn) List.mem_cons_self e, fun e => congrArg g e⟩
      simp [this]
    have htail : Set.InjOn g {n | n ∈ l.filter fun n => !n == a} :=
      hg.mono fun n hn => List.mem_cons_of_mem a (List.mem_filter.1 hn).1
    rw [List.map_cons, List.eraseDups_cons, List.eraseDups_cons, List.map_cons, hfilter, ih htail]

/-- A renamed placeholder has the number it had. -/
theorem numbered_renamed {g : String → String} {names : List String}
    (hg : Set.InjOn g {n | n ∈ names}) {xs : List Lexeme} (hnames : ∀ n ∈ uses xs, n ∈ names)
    {x : Lexeme} (hx : x ∈ xs) : numbered (names.map g) (renamed g x) = numbered names x := by
  rcases x.eq_placeholder_or with ⟨name, rfl⟩ | hkept
  · have hmem : String.ofList name ∈ uses xs := mem_uses_iff.2 (by rwa [String.toList_ofList])
    rw [renamed, numbered, numbered, String.ofList_toList, idxOf_map_of_injOn hg (hnames _ hmem)]
  · rw [renamed_of_name?_eq_none hkept]
    cases x with
    | placeholder name => cases hkept
    | _ => rfl

end Sql

open Sql

/-- A text with renamed placeholders has the same statement, as long as different names stay
different and what is bound follows the names. -/
theorem Bindings.statement_renamed {b b' : Bindings} {sql sql' : String} {g : String → String}
    (hlex : lexemes none sql'.toList = (lexemes none sql.toList).map (renamed g))
    (hg : Set.InjOn g {n | n ∈ placeholders sql})
    (hb : ∀ n ∈ placeholders sql, b'.require (g n) = b.require n) :
    b'.statement sql' = b.statement sql := by
  have hnames : (placeholders sql').eraseDups = (placeholders sql).eraseDups.map g := by
    rw [placeholders_eq_uses, hlex, uses_map_renamed, ← placeholders_eq_uses,
      eraseDups_map_of_injOn hg]
  have hdata : ((placeholders sql).eraseDups.map g).mapM b'.require =
      (placeholders sql).eraseDups.mapM b.require := by
    rw [List.mapM_map]
    exact mapM_congr fun n hn => hb n (List.mem_eraseDups.1 hn)
  have htext : ((lexemes none sql.toList).map (renamed g)).flatMap
      (numbered ((placeholders sql).eraseDups.map g)) =
        (lexemes none sql.toList).flatMap (numbered (placeholders sql).eraseDups) := by
    rw [List.flatMap_map]
    refine List.flatMap_congr fun x hx => numbered_renamed ?_ (fun n hn => ?_) hx
    · exact hg.mono fun n hn => List.mem_eraseDups.1 hn
    · exact List.mem_eraseDups.2 hn
  rw [statement, statement, hnames, hlex, hdata, htext]

end SqlAssembly
