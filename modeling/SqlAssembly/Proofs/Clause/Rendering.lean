import SqlAssembly.Proofs.Clause.Filtering
import SqlAssembly.Proofs.Sql.Renaming

/-!
# Rendered templates

A template says `:value` where the condition of a filter has the filter's own name. Both are
placeholders, so it makes no difference to the statement which of them stands in the text.

* `Rule.ValuesLive` holds of a template where each `:value` at the end of a word is a placeholder.
* `Rule.substitute_eq`: substitution then renames placeholders.
* `compileFilters_template`: hence the condition of a filter and its template have one statement.
-/

namespace SqlAssembly

open Sql

namespace Rule

/-- At this place of the text stands a `:value` that ends a word. -/
def ValueAt (l : List Char) (n : Nat) : Prop :=
  ":value".toList <+: l.drop n ∧ endsWord (l.drop (n + 6)) = true

instance (l : List Char) (n : Nat) : Decidable (ValueAt l n) := instDecidableAnd

/-- Each `:value` at the end of a word is a placeholder. -/
def ValuesLive (template : String) : Prop :=
  ∀ n < template.toList.length, ValueAt template.toList n →
    ∃ k < (lexemes none template.toList).length,
      ((lexemes none template.toList).take k).flatMap Lexeme.text = template.toList.take n ∧
        (lexemes none template.toList)[k]? = some (.placeholder "value".toList)

instance : DecidablePred ValuesLive := fun template =>
  inferInstanceAs (Decidable (∀ n < template.toList.length, ValueAt template.toList n →
    ∃ k < (lexemes none template.toList).length,
      ((lexemes none template.toList).take k).flatMap Lexeme.text = template.toList.take n ∧
        (lexemes none template.toList)[k]? = some (.placeholder "value".toList)))

/-- Each `:value` at the end of a word is a placeholder of the text, which stands after `prev`. -/
def LiveAfter (prev : Option Char) (l : List Char) : Prop :=
  ∀ a b, l = a ++ (":value".toList ++ b) → endsWord b = true →
    ∃ xs ys, lexemes prev l = xs ++ .placeholder "value".toList :: ys ∧ xs.flatMap Lexeme.text = a

theorem ValuesLive.liveAfter {template : String} (h : ValuesLive template) :
    LiveAfter none template.toList := by
  intro a b hab hb
  have hvalue : ValueAt template.toList a.length := by
    rw [hab]
    refine ⟨⟨b, by rw [List.drop_left]⟩, ?_⟩
    rwa [← List.append_assoc, List.drop_left' (by simp)]
  obtain ⟨k, hk, htext, hget⟩ := h a.length (by simp [hab]) hvalue
  refine ⟨(lexemes none template.toList).take k, (lexemes none template.toList).drop (k + 1), ?_,
    htext.trans (by rw [hab, List.take_left])⟩
  conv_lhs => rw [← List.take_append_drop k (lexemes none template.toList)]
  rw [List.drop_eq_getElem_cons hk, (List.getElem?_eq_some_iff.1 hget).2]

/-- Behind its first lexeme the text has no `:value` that is no placeholder. -/
theorem LiveAfter.tail {prev : Option Char} {x : Lexeme} {rest : List Char}
    (h : LiveAfter prev (x.text ++ rest)) (hx : Starts (.counted .int32) prev x rest) :
    LiveAfter x.text.getLast? rest := by
  intro a b hab hb
  obtain ⟨xs, ys, hlex, htext⟩ := h (x.text ++ a) b (by rw [hab, List.append_assoc]) hb
  rw [hx.lexemes_eq] at hlex
  cases xs with
  | nil =>
    obtain ⟨rfl, -⟩ := List.cons.inj hlex
    cases htext
  | cons y xs =>
    obtain ⟨rfl, htail⟩ := List.cons.inj hlex
    exact ⟨xs, ys, htail, List.append_cancel_left htext⟩

/-- Within its first lexeme the text has no `:value` unless this is the lexeme. -/
theorem LiveAfter.length_le {prev : Option Char} {x : Lexeme} {rest : List Char}
    (h : LiveAfter prev (x.text ++ rest)) (hx : Starts (.counted .int32) prev x rest)
    (hne : x ≠ .placeholder "value".toList) {a b : List Char}
    (hab : x.text ++ rest = a ++ (":value".toList ++ b)) (hb : endsWord b = true) :
    x.text.length ≤ a.length := by
  obtain ⟨xs, ys, hlex, rfl⟩ := h a b hab hb
  rw [hx.lexemes_eq] at hlex
  cases xs with
  | nil => exact (hne (List.cons.inj hlex).1).elim
  | cons y xs =>
    obtain ⟨rfl, -⟩ := List.cons.inj hlex
    simp

/-! ### Words -/

/-- Of the ASCII characters, those of a word are those of a name. -/
theorem isWord_eq_isNameChar {c : Char} (hc : c.toNat < 128) :
    Unicode.isWord c = isNameChar c := by
  rw [Unicode.isWord, if_pos hc, isNameChar, Bool.or_comm]

theorem endsWord_of_not_nameChar {l : List Char} (hl : ∀ c ∈ l, c.toNat < 128)
    (h : ∀ c, l.head? = some c → ¬NameChar c) : endsWord l = true := by
  cases l with
  | nil => rfl
  | cons c l =>
    have := mt isNameChar_iff.1 (h c rfl)
    rw [endsWord, isWord_eq_isNameChar (hl c List.mem_cons_self)]
    simpa using this

/-! ### Substitution -/

variable {r : List Char}

/-- Where no `:value` ends a word, one character is kept. -/
theorem substitute_cons {c : Char} {l : List Char}
    (h : ∀ b, c :: l = ":value".toList ++ b → endsWord b = false) :
    substitute r (c :: l) = c :: substitute r l := by
  rw [substitute.eq_def]
  split
  · next rest he =>
    obtain ⟨rfl, rfl⟩ := List.cons.inj he
    rw [if_neg (by simp [h rest he])]
    simp [substitute]
  · next he =>
    obtain ⟨rfl, rfl⟩ := List.cons.inj he
    rfl
  · next he => cases he

/-- Substitution keeps a part of the text in which no `:value` starts that ends a word. -/
theorem substitute_append {u rest : List Char}
    (h : ∀ a b, u ++ rest = a ++ (":value".toList ++ b) → endsWord b = true →
      u.length ≤ a.length) : substitute r (u ++ rest) = u ++ substitute r rest := by
  induction u with
  | nil => rfl
  | cons c u ih =>
    have hfirst : ∀ b, c :: (u ++ rest) = ":value".toList ++ b → endsWord b = false := by
      intro b hb
      by_contra hend
      have := h [] b hb (Bool.eq_true_of_not_eq_false hend)
      simp at this
    have htail : substitute r (u ++ rest) = u ++ substitute r rest := ih fun a b hab hb => by
      have := h (c :: a) b (by rw [List.cons_append, hab]; rfl) hb
      simpa using this
    rw [List.cons_append, substitute_cons hfirst, htail]
    rfl

/-- Substitution of a name for `value` renames the placeholders. -/
def nameFor (name n : String) : String :=
  if n = "value" then name else n

/-- Where each `:value` is a placeholder, to substitute a name is to rename the placeholders. -/
theorem substitute_eq (name : String) {prev : Option Char} {l : List Char}
    (hl : ∀ c ∈ l, c.toNat < 128) (h : LiveAfter prev l) :
    substitute (':' :: name.toList) l =
      ((lexemes prev l).map (renamed (nameFor name))).flatMap Lexeme.text := by
  fun_induction lexemes prev l with
  | case1 => rfl
  | case2 prev c l x _ ih =>
    have hx : Starts (.counted .int32) prev x.1 x.2 := starts_start prev c l
    have hcover : x.1.text ++ x.2 = c :: l := Lexeme.start_covers prev c l
    rw [← hcover] at h hl ⊢
    obtain ⟨-, hrest⟩ := List.forall_mem_append.1 hl
    rw [List.map_cons, List.flatMap_cons, ← ih hrest (h.tail hx)]
    by_cases hvalue : x.1 = .placeholder "value".toList
    · -- the placeholder is replaced as a whole
      rw [hvalue] at hx ⊢
      have hend := endsWord_of_not_nameChar hrest hx.isName.2
      simp [renamed, nameFor, Lexeme.text, substitute, hend]
    · rw [substitute_append fun a b hab hb => h.length_le hx hvalue hab hb]
      have hsame : renamed (nameFor name) x.1 = x.1 := by
        rcases x.1.eq_placeholder_or with ⟨n, hn⟩ | hkept
        · rw [hn] at hvalue ⊢
          have : String.ofList n ≠ "value" := fun e =>
            hvalue (by rw [← e, String.toList_ofList])
          rw [renamed, nameFor, if_neg this, String.toList_ofList]
        · exact renamed_of_name?_eq_none hkept
      rw [hsame]

end Rule

/-- A text renders the template for a filter: it has the lexemes of the template, with the name of
the filter for each placeholder `value`, and whatever else is bound, it has with the filter bound
under its name the statement that the template has with the filter bound as `value`. -/
structure Rule.Renders (template name text : String) : Prop where
  /-- The placeholders `value` are renamed, and all else stays. -/
  lexemes_eq : lexemes none text.toList =
    (lexemes none template.toList).map (renamed (Rule.nameFor name))
  statement_eq : ∀ (b : Bindings) (datum : Datum),
    Bindings.statement (b.insert name datum) text =
      Bindings.statement (b.insert "value" datum) template

/-- A name that is not in use otherwise can stand for `value`. -/
theorem Rule.nameFor_injOn {name : String} {names : List String}
    (h : name = "value" ∨ name ∉ names) : Set.InjOn (Rule.nameFor name) {n | n ∈ names} := by
  have hother : ∀ n ∈ names, n ≠ "value" → n ≠ name := by
    rintro n hn hvalue rfl
    exact h.elim hvalue fun hnot => hnot hn
  intro m hm n hn e
  rw [Rule.nameFor, Rule.nameFor] at e
  by_cases hmvalue : m = "value" <;> by_cases hnvalue : n = "value"
  · rw [hmvalue, hnvalue]
  · rw [if_pos hmvalue, if_neg hnvalue] at e
    exact (hother n hn hnvalue e.symm).elim
  · rw [if_neg hmvalue, if_pos hnvalue] at e
    exact (hother m hm hmvalue e).elim
  · rwa [if_neg hmvalue, if_neg hnvalue] at e

/-- What is bound follows the names. -/
theorem Rule.require_nameFor {name n : String} (h : name = "value" ∨ n ≠ name) (b : Bindings)
    (datum : Datum) : Bindings.require (b.insert name datum) (Rule.nameFor name n) =
      Bindings.require (b.insert "value" datum) n := by
  rw [Bindings.require, Bindings.require, Rule.nameFor]
  by_cases hn : n = "value"
  · simp [hn]
  · have hname : n ≠ name := by
      rcases h with rfl | h
      · exact hn
      · exact h
    simp [hn, hname]

/-- A template is rendered under a name that it does not use otherwise. -/
theorem Rule.renders_substitute {template name : String}
    (hascii : ∀ c ∈ template.toList, c.toNat < 128) (hlive : Rule.ValuesLive template)
    (hname : IsName name.toList) (hfresh : name = "value" ∨ name ∉ placeholders template) :
    Rule.Renders template name
      (String.ofList (Rule.substitute (':' :: name.toList) template.toList)) := by
  have hnames : ∀ n : String, IsName n.toList → IsName (Rule.nameFor name n).toList := by
    intro n hn
    unfold Rule.nameFor
    split
    · exact hname
    · exact hn
  have hlex : lexemes none (String.ofList
      (Rule.substitute (':' :: name.toList) template.toList)).toList =
        (lexemes none template.toList).map (renamed (Rule.nameFor name)) := by
    rw [String.toList_ofList, Rule.substitute_eq name hascii hlive.liveAfter]
    exact lexemes_renamed hnames none template.toList
  refine ⟨hlex, fun b datum => ?_⟩
  refine Bindings.statement_renamed hlex (Rule.nameFor_injOn hfresh) fun n hn => ?_
  exact Rule.require_nameFor (hfresh.imp_right fun h e => h (e ▸ hn)) b datum

/-- **A filter with a template has the statement of the template.** Let every filter have a rule,
and let the rule of one filter have a template of ASCII characters, in which each `:value` that ends
a word is a placeholder. Let the filter be named by a name that is `value` or no placeholder of the
template. Then the filters are compiled, and the text of this filter renders the template. -/
theorem compileFilters_template {filters : Bindings} {rules : Rules} {rule : Rule}
    {name template : String} {datum : Datum}
    (hrules : ∀ n ∈ filters.keys, rules.contains n = true)
    (hfilter : filters.get? name = some datum) (hrule : rules.get? name = some rule)
    (htemplate : rule.template = some template)
    (hascii : ∀ c ∈ template.toList, c.toNat < 128) (hlive : Rule.ValuesLive template)
    (hname : IsName name.toList) (hfresh : name = "value" ∨ name ∉ placeholders template) :
    ∃ ps text, compileFilters filters rules = .ok ps ∧
      (Predicate.ofText text).bind name datum ∈ ps ∧ Rule.Renders template name text := by
  obtain ⟨ps, hps⟩ : ∃ ps, compileFilters filters rules = .ok ps := by
    rw [compileFilters_eq_mapM, exists_mapM_iff]
    exact fun filter hf => exists_filterPredicate_iff.2 (hrules _ (List.mem_map_of_mem hf))
  have hrender : rule.render name =
      String.ofList (Rule.substitute (':' :: name.toList) template.toList) := by
    rw [Rule.render, htemplate]
  refine ⟨ps, rule.render name, hps, ?_, ?_⟩
  · rw [compileFilters_eq_mapM] at hps
    exact mem_mapM_of_mem hps (Assoc.mem_of_lookup hfilter)
      (filterPredicate_eq_ok_iff.2 ⟨rule, hrule, rfl⟩)
  · rw [hrender]
    exact Rule.renders_substitute hascii hlive hname hfresh

/-- A template with casts, a literal, a dollar quote and a longer name around its value. -/
def tagTemplate : String :=
  "':valued' <> :value::text AND (:value_min < 2 OR $q$:other$q$ = ANY(a.tags || :value))"

/-- Rules for the kind and the tag of an article. -/
def articleRules : Rules :=
  Assoc.ofList [("kind", ⟨"a", "kind", none⟩), ("tag", ⟨"a", "tag", some tagTemplate⟩)]

theorem compileFilters_template_tag :
    ∃ ps text, compileFilters (Assoc.ofList [("kind", .int 3), ("tag", .text "db")]) articleRules =
        .ok ps ∧
      (Predicate.ofText text).bind "tag" (.text "db") ∈ ps ∧
        Rule.Renders tagTemplate "tag" text := by
  have hascii : tagTemplate.toList.all (fun c => c.toNat < 128) = true := by decide +kernel
  exact compileFilters_template (by decide) rfl rfl rfl (by simpa using hascii)
    (by decide +kernel) (by decide +kernel) (.inr (by decide +kernel))

example : (articleRules.get? "tag").map (Rule.render · "tag") =
    some "':valued' <> :tag::text AND (:value_min < 2 OR $q$:other$q$ = ANY(a.tags || :tag))" := by
  decide +kernel

end SqlAssembly
