import SqlAssembly.GraphQL.Expansion
import SqlAssembly.Proofs.Outcome
import Mathlib.Logic.Relation

/-!
# What an expansion comes to

An expansion is told by the fragments that it reaches, without its stack.

* `SelectionSet.ExpandsTo` puts the fields of every fragment in its place and leaves `__typename`
  out.
* `SelectionSet.Reaches` follows the fields other than `__typename` and the fragments of both sorts.
* `expand_error`: a fault blames a fragment that was reached. It is not defined, or it includes
  itself, or it is on the stack.
* `ExpandsTo.grounded`: what has an expansion reaches no such fragment, since each fragment it
  reaches is `Grounded`.
* `collect_exact` puts this together.
-/

namespace SqlAssembly.GraphQL

open Relation

/-- The names that a selection set spreads, at any depth but not under `__typename`. -/
def SelectionSet.spreads : SelectionSet → List String
  | .empty => []
  | .field name children rest =>
    (if name = typenameField then [] else children.spreads) ++ rest.spreads
  | .inline body rest => body.spreads ++ rest.spreads
  | .spread name rest => name :: rest.spreads

section Fragments

variable (fragments : Assoc SelectionSet)

/-- The first fragment spreads the second one. -/
def Includes (outer inner : String) : Prop :=
  ∃ body, fragments.get? outer = some body ∧ inner ∈ body.spreads

/-- There is no such fragment. -/
def Undefined (name : String) : Prop :=
  fragments.get? name = none

/-- The fragment includes itself, at once or through other fragments. -/
def Cyclic (name : String) : Prop :=
  TransGen (Includes fragments) name name

/-- The fragment is defined, and so are all fragments that it includes, to an end. -/
inductive Grounded : String → Prop
  | intro {name : String} {body : SelectionSet} (h : fragments.get? name = some body)
      (hs : ∀ inner ∈ body.spreads, Grounded inner) : Grounded name

namespace SelectionSet

/-- The fragment is spread in the set, or in a fragment that is reached from there. -/
def Reaches (set : SelectionSet) (name : String) : Prop :=
  ∃ first ∈ set.spreads, ReflTransGen (Includes fragments) first name

/-- The selection has the fields of every fragment in the place of the fragment, in their order, and
has no `__typename`. -/
inductive ExpandsTo : SelectionSet → Selection → Prop
  | empty : ExpandsTo .empty .empty
  | typename {children rest : SelectionSet} {t : Selection} (hr : ExpandsTo rest t) :
      ExpandsTo (.field typenameField children rest) t
  | field {name : String} {children rest : SelectionSet} {under t : Selection}
      (hn : name ≠ typenameField) (hc : ExpandsTo children under) (hr : ExpandsTo rest t) :
      ExpandsTo (.field name children rest) (.field name under t)
  | inline {body rest : SelectionSet} {first t : Selection} (hb : ExpandsTo body first)
      (hr : ExpandsTo rest t) : ExpandsTo (.inline body rest) (first ++ t)
  | spread {name : String} {body rest : SelectionSet} {first t : Selection}
      (hf : fragments.get? name = some body) (hb : ExpandsTo body first) (hr : ExpandsTo rest t) :
      ExpandsTo (.spread name rest) (first ++ t)

end SelectionSet

end Fragments

variable {fragments : Assoc SelectionSet} {stack : List String}
variable {set children body rest : SelectionSet} {t : Selection} {name n : String}

/-! ### Fragments that are reached -/

theorem Grounded.of_includes (h : Grounded fragments n) {m : String}
    (hi : Includes fragments n m) : Grounded fragments m := by
  obtain ⟨hb, hs⟩ := h
  obtain ⟨body, hbody, hm⟩ := hi
  rw [hb] at hbody
  cases hbody
  exact hs m hm

theorem Grounded.not_undefined (h : Grounded fragments n) : ¬Undefined fragments n := by
  intro hu
  obtain ⟨hb, -⟩ := h
  rw [Undefined, hb] at hu
  cases hu

/-- Along a cycle there is no end. -/
theorem Grounded.not_cyclic (h : Grounded fragments n) : ¬Cyclic fragments n := by
  induction h with
  | @intro n body hb _ ih =>
    intro hc
    obtain ⟨m, ⟨body', hb', hm⟩, hback⟩ := TransGen.head'_iff.1 hc
    rw [hb] at hb'
    cases hb'
    exact ih m hm (TransGen.tail' hback ⟨body, hb, hm⟩)

namespace SelectionSet

theorem Reaches.grounded (h : ∀ m ∈ set.spreads, Grounded fragments m)
    (hr : set.Reaches fragments n) : Grounded fragments n := by
  obtain ⟨first, hfirst, hr⟩ := hr
  induction hr with
  | refl => exact h first hfirst
  | tail _ hi ih => exact ih.of_includes hi

/-- A set reaches what any set reaches that spreads no more. -/
theorem Reaches.mono {set' : SelectionSet} (hs : set.spreads ⊆ set'.spreads)
    (h : set.Reaches fragments n) : set'.Reaches fragments n := by
  obtain ⟨first, hfirst, h⟩ := h
  exact ⟨first, hs hfirst, h⟩

theorem reaches_spread : (spread name rest).Reaches fragments name :=
  ⟨name, by simp [spreads], .refl⟩

/-- What the set of a fragment reaches is included in the fragment. -/
theorem Reaches.included (hf : fragments.get? name = some body) (h : body.Reaches fragments n) :
    TransGen (Includes fragments) name n := by
  obtain ⟨first, hfirst, h⟩ := h
  exact TransGen.head' ⟨body, hf, hfirst⟩ h

theorem Reaches.spread (hf : fragments.get? name = some body) (h : body.Reaches fragments n) :
    (spread name rest).Reaches fragments n :=
  ⟨name, by simp [spreads], (h.included hf).to_reflTransGen⟩

end SelectionSet

/-! ### Selections -/

open SelectionSet

theorem expandsTo_of_expand (h : set.expand fragments stack = .ok t) :
    set.ExpandsTo fragments t := by
  induction stack, set using expansion_induction fragments generalizing t with
  | empty stack =>
    rw [expand_empty] at h
    cases h
    exact .empty
  | field stack name children rest ihChildren ih =>
    rw [expand_field] at h
    split at h
    · next hn =>
      subst hn
      exact .typename (ih h)
    · next hn =>
      obtain ⟨under, hu, h⟩ := bind_eq_ok_iff.1 h
      obtain ⟨t, ht, rfl⟩ := map_eq_ok_iff.1 h
      exact .field hn (ihChildren hu) (ih ht)
  | inline stack body rest ihBody ih =>
    rw [expand_inline] at h
    obtain ⟨first, hfirst, h⟩ := bind_eq_ok_iff.1 h
    obtain ⟨t, ht, rfl⟩ := map_eq_ok_iff.1 h
    exact .inline (ihBody hfirst) (ih ht)
  | spread stack name rest ihBody ih =>
    rw [expand_spread] at h
    split at h
    · cases h
    · next body hf =>
      split at h
      · cases h
      · next hn =>
        obtain ⟨first, hfirst, h⟩ := bind_eq_ok_iff.1 h
        obtain ⟨t, ht, rfl⟩ := map_eq_ok_iff.1 h
        exact .spread hf (ihBody body hf (Bool.eq_false_iff.2 hn) hfirst) (ih ht)

/-- A set has one expansion. -/
theorem SelectionSet.ExpandsTo.unique {t' : Selection} (h : set.ExpandsTo fragments t)
    (h' : set.ExpandsTo fragments t') : t = t' := by
  induction h generalizing t' with
  | empty =>
    cases h'
    rfl
  | typename _ ih =>
    cases h' with
    | typename hr => exact ih hr
    | field hn => exact (hn rfl).elim
  | field hn _ _ ihChildren ih =>
    cases h' with
    | typename => exact (hn rfl).elim
    | field _ hc hr => rw [ihChildren hc, ih hr]
  | inline _ _ ihBody ih =>
    cases h' with
    | inline hb hr => rw [ihBody hb, ih hr]
  | spread hf _ _ ihBody ih =>
    cases h' with
    | spread hf' hb hr =>
      rw [hf] at hf'
      cases hf'
      rw [ihBody hb, ih hr]

/-- An expansion is finite, so what it goes through comes to an end. -/
theorem SelectionSet.ExpandsTo.grounded (h : set.ExpandsTo fragments t) :
    ∀ m ∈ set.spreads, Grounded fragments m := by
  induction h with
  | empty => exact nofun
  | typename _ ih => simpa [spreads] using ih
  | field hn _ _ ihChildren ih => simpa [spreads, hn, or_imp, forall_and] using ⟨ihChildren, ih⟩
  | inline _ _ ihBody ih => simpa [spreads, or_imp, forall_and] using ⟨ihBody, ih⟩
  | spread hf _ _ ihBody ih => simpa [spreads] using ⟨.intro hf ihBody, ih⟩

/-! ### Faults -/

/-- The fault blames a fragment that cannot be expanded: it is not defined, or it includes itself or
is being expanded already. -/
inductive Blames (fragments : Assoc SelectionSet) (stack : List String) (name : String) :
    Fault → Prop
  | undefined (h : Undefined fragments name) :
      Blames fragments stack name (.configuration (.undefinedFragment name))
  | cyclic (h : Cyclic fragments name ∨ name ∈ stack) :
      Blames fragments stack name (.configuration (.cyclicFragment name))

theorem expand_error {e : Fault} (h : set.expand fragments stack = .error e) :
    ∃ m, set.Reaches fragments m ∧ Blames fragments stack m e := by
  induction stack, set using expansion_induction fragments generalizing e with
  | empty stack => simp at h
  | field stack name children rest ihChildren ih =>
    rw [expand_field] at h
    split at h
    · obtain ⟨m, hm, hb⟩ := ih h
      exact ⟨m, hm.mono (by simp [spreads]), hb⟩
    · next hn =>
      rcases bind_eq_error_iff.1 h with h | ⟨under, -, h⟩
      · obtain ⟨m, hm, hb⟩ := ihChildren h
        exact ⟨m, hm.mono (by simp [spreads, hn]), hb⟩
      · obtain ⟨m, hm, hb⟩ := ih (map_eq_error_iff.1 h)
        exact ⟨m, hm.mono (by simp [spreads]), hb⟩
  | inline stack body rest ihBody ih =>
    rw [expand_inline] at h
    rcases bind_eq_error_iff.1 h with h | ⟨first, -, h⟩
    · obtain ⟨m, hm, hb⟩ := ihBody h
      exact ⟨m, hm.mono (by simp [spreads]), hb⟩
    · obtain ⟨m, hm, hb⟩ := ih (map_eq_error_iff.1 h)
      exact ⟨m, hm.mono (by simp [spreads]), hb⟩
  | spread stack name rest ihBody ih =>
    rw [expand_spread] at h
    split at h
    · next hf =>
      cases h
      exact ⟨name, reaches_spread, .undefined hf⟩
    · next body hf =>
      split at h
      · next hn =>
        cases h
        exact ⟨name, reaches_spread, .cyclic (.inr (List.contains_iff_mem.1 hn))⟩
      · next hn =>
        rcases bind_eq_error_iff.1 h with h | ⟨first, -, h⟩
        · obtain ⟨m, hm, hb⟩ := ihBody body hf (Bool.eq_false_iff.2 hn) h
          refine ⟨m, hm.spread hf, ?_⟩
          cases hb with
          | undefined hu => exact .undefined hu
          | cyclic hc =>
            refine .cyclic ?_
            rcases hc with hc | hc
            · exact .inl hc
            rcases List.mem_cons.1 hc with rfl | hc
            -- the fragment that was entered here is reached again from its own set
            · exact .inl (hm.included hf)
            · exact .inr hc
        · obtain ⟨m, hm, hb⟩ := ih (map_eq_error_iff.1 h)
          exact ⟨m, hm.mono (by simp [spreads]), hb⟩

/-! ### Expansions -/

/-- The expansion of a set is exact. -/
structure SelectionSet.CollectsExactly (fragments : Assoc SelectionSet) (set : SelectionSet) :
    Prop where
  /-- Whatever is being expanded around the set is so at the end, be there a fault or not. -/
  unwinds : ∀ stack, (set.collect fragments stack).left = stack
  /-- There is a fault exactly if a fragment is reached that is not defined or includes itself. -/
  fails : (∃ e, (set.collect fragments []).result = .error e) ↔
    ∃ m, set.Reaches fragments m ∧ (Undefined fragments m ∨ Cyclic fragments m)
  /-- A fault is one of the configuration, and blames such a fragment. -/
  faults : ∀ e, (set.collect fragments []).result = .error e →
    ∃ m, set.Reaches fragments m ∧
      (Undefined fragments m ∧ e = .configuration (.undefinedFragment m) ∨
        Cyclic fragments m ∧ e = .configuration (.cyclicFragment m))
  /-- A selection is the one with the fields of every fragment in its place. -/
  returns : ∀ t, (set.collect fragments []).result = .ok t ↔ set.ExpandsTo fragments t

/-- **Expansion is exact.** It replaces every fragment by its fields unless it reaches one that is
not defined or includes itself, and it leaves every fragment that it enters. -/
theorem collect_exact (fragments : Assoc SelectionSet) (set : SelectionSet) :
    set.CollectsExactly fragments := by
  have hfaults : ∀ e, set.expand fragments [] = .error e →
      ∃ m, set.Reaches fragments m ∧
        (Undefined fragments m ∧ e = .configuration (.undefinedFragment m) ∨
          Cyclic fragments m ∧ e = .configuration (.cyclicFragment m)) := by
    intro e he
    obtain ⟨m, hm, hb⟩ := expand_error he
    refine ⟨m, hm, ?_⟩
    cases hb with
    | undefined hu => exact .inl ⟨hu, rfl⟩
    | cyclic hc => exact .inr ⟨hc.resolve_right List.not_mem_nil, rfl⟩
  have husable : ∀ t, set.ExpandsTo fragments t → ∀ m, set.Reaches fragments m →
      ¬(Undefined fragments m ∨ Cyclic fragments m) := by
    intro t ht m hm
    have hg := hm.grounded ht.grounded
    exact not_or.2 ⟨hg.not_undefined, hg.not_cyclic⟩
  refine ⟨fun stack => (set.collect fragments stack).left_eq, ⟨?_, ?_⟩, hfaults, fun t =>
    ⟨expandsTo_of_expand, ?_⟩⟩
  · rintro ⟨e, he⟩
    obtain ⟨m, hm, hb⟩ := hfaults e he
    exact ⟨m, hm, hb.imp And.left And.left⟩
  · rintro ⟨m, hm, hbad⟩
    cases hr : set.expand fragments [] with
    | ok t => exact (husable t (expandsTo_of_expand hr) m hm hbad).elim
    | error e => exact ⟨e, hr⟩
  · intro ht
    cases hr : set.expand fragments [] with
    | ok t' =>
      rw [ht.unique (expandsTo_of_expand hr)]
      exact hr
    | error e =>
      obtain ⟨m, hm, hb⟩ := hfaults e hr
      exact (husable t ht m hm (hb.imp And.left And.left)).elim

/-- A fragment may be spread twice, also inside another one. -/
example :
    (SelectionSet.spread "Named" (.field "author" (.spread "Named" .empty)
      (.spread "Named" .empty))).expand
        (Assoc.ofList [("Named", .field "name" .empty (.field typenameField .empty .empty))]) [] =
      .ok (.field "name" .empty (.field "author" (.field "name" .empty .empty)
        (.field "name" .empty .empty))) := by
  cbv

end SqlAssembly.GraphQL
