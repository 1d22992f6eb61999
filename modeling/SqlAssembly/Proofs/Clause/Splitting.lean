import SqlAssembly.Listing.Basic
import SqlAssembly.Proofs.Clause.Merging

/-!
# Clauses in two parts

A clause for some predicates followed by others is the clause for the first ones with that for the
others behind it. The second part continues the first one if that has a text.

* `hasText` tells whether a list of predicates has a text.
* `text_joinPredicates_append`: the text of a clause in two parts.
* `Listing.text_build_settled`: conditions that are already in the text of a listing.
* `joinPredicates_append`: both, with what a clause binds.
-/

namespace SqlAssembly

/-- Whether one of the predicates has a text. -/
def hasText (ps : List Predicate) : Bool :=
  ps.any fun p => p.sql?.isSome

namespace Listing

/-- The listing with predicates in front of its conditions. -/
def preceded (l : Listing) (ps : List Predicate) : Listing :=
  { l with conditions := ps ++ l.conditions, continues := false }

/-- The listing whose text has the clause for predicates already, and goes on with its own
conditions. -/
def settled (l : Listing) (ps : List Predicate) : Listing :=
  { l with text := l.text ++ (joinPredicates ps false).text, continues := true }

end Listing

/-! ### Texts -/

theorem conjuncts_eq_nil_iff {ps : List Predicate} : conjuncts ps = [] ↔ hasText ps = false := by
  simp [conjuncts, hasText, List.filterMap_eq_nil_iff]

theorem text_joinPredicates_of_not_hasText {ps : List Predicate} (h : hasText ps = false)
    (continues : Bool) : (joinPredicates ps continues).text = "" := by
  rw [joinPredicates, conjuncts_eq_nil_iff.2 h]

theorem text_joinPredicates_of_hasText {ps : List Predicate} (h : hasText ps = true)
    (continues : Bool) :
    (joinPredicates ps continues).text =
      (if continues then " AND " else " WHERE ") ++ " AND ".intercalate (conjuncts ps) := by
  have hne : conjuncts ps ≠ [] := fun hnil => by simp [conjuncts_eq_nil_iff.1 hnil] at h
  rw [joinPredicates]
  cases hc : conjuncts ps with
  | nil => exact (hne hc).elim
  | cons part parts => rfl

/-- The second part of a clause continues the first one if that has a text. -/
theorem text_joinPredicates_append (ps qs : List Predicate) (continues : Bool) :
    (joinPredicates (ps ++ qs) continues).text =
      (joinPredicates ps continues).text ++
        (joinPredicates qs (continues || hasText ps)).text := by
  have happend : hasText (ps ++ qs) = (hasText ps || hasText qs) := List.any_append
  cases hp : hasText ps with
  | false =>
    have hconjuncts : conjuncts (ps ++ qs) = conjuncts qs := by
      rw [conjuncts_append, conjuncts_eq_nil_iff.2 hp, List.nil_append]
    rw [text_joinPredicates_of_not_hasText hp, String.empty_append, Bool.or_false]
    simp only [joinPredicates, hconjuncts]
  | true =>
    rw [hp, Bool.true_or] at happend
    rw [Bool.or_true, text_joinPredicates_of_hasText happend, text_joinPredicates_of_hasText hp,
      conjuncts_append]
    cases hq : hasText qs with
    | false =>
      rw [text_joinPredicates_of_not_hasText hq, conjuncts_eq_nil_iff.2 hq, List.append_nil,
        String.append_empty]
    | true =>
      have hps : conjuncts ps ≠ [] := by simp [conjuncts_eq_nil_iff, hp]
      have hqs : conjuncts qs ≠ [] := by simp [conjuncts_eq_nil_iff, hq]
      rw [text_joinPredicates_of_hasText hq, String.intercalate_append_of_ne_nil hps hqs,
        if_pos rfl]
      simp only [String.append_assoc]

/-! ### Listings -/

theorem Listing.text_build (l : Listing) :
    NamedQuery.text <$> l.build = (do
      let more ← l.filterPredicates
      let tail ← l.paging.tail
      return l.text ++
        (joinPredicates (l.conditions ++ more ++ l.searchPredicate?.toList) l.continues).text ++
        l.groupingText ++ tail.text) := by
  simp only [build, filtered, predicates, map_bind, bind_assoc, map_pure, pure_bind]

/-- Conditions may be in the text of a listing already, if they have a text: the query for the page
reads the same. -/
theorem Listing.text_build_settled (l : Listing) {ps : List Predicate} (h : hasText ps = true) :
    NamedQuery.text <$> (l.settled ps).build = NamedQuery.text <$> (l.preceded ps).build := by
  rw [text_build, text_build]
  refine bind_congr fun more => bind_congr fun tail => ?_
  change pure (l.text ++ (joinPredicates ps false).text ++
      (joinPredicates (l.conditions ++ more ++ l.searchPredicate?.toList) true).text ++
      l.groupingText ++ tail.text) =
    pure (l.text ++
      (joinPredicates (ps ++ l.conditions ++ more ++ l.searchPredicate?.toList) false).text ++
      l.groupingText ++ tail.text)
  rw [List.append_assoc ps, List.append_assoc ps, text_joinPredicates_append ps, h, Bool.or_true]
  simp only [String.append_assoc, List.append_assoc]

/-! ### The main statement -/

/-- **A clause splits where its predicates do.** The second part continues the first one if that
has a text, and the bindings of the second part are merged into those of the first. Hence a name is
bound to the datum of the last predicate that binds it and stands where the first one puts it, and
conditions with a text may be in the text of a listing already. -/
theorem joinPredicates_append (ps qs : List Predicate) (continues : Bool) (l : Listing) :
    (joinPredicates (ps ++ qs) continues).text =
        (joinPredicates ps continues).text ++
          (joinPredicates qs (continues || hasText ps)).text ∧
      (joinPredicates (ps ++ qs) continues).bindings =
        (joinPredicates ps continues).bindings.merge
          (joinPredicates qs (continues || hasText ps)).bindings ∧
      (∀ name d, (joinPredicates ps continues).bindings.get? name = some d ↔
        ∃ before p after, ps = before ++ p :: after ∧ p.bindings.get? name = some d ∧
          ∀ q ∈ after, q.bindings.get? name = none) ∧
      FirstsOf (joinPredicates ps continues).bindings.keys
        (ps.flatMap fun p => p.bindings.keys) ∧
      (joinPredicates ps continues).bindings.keys.Nodup ∧
      (hasText ps = true →
        NamedQuery.text <$> (l.settled ps).build = NamedQuery.text <$> (l.preceded ps).build) := by
  have hfirsts : FirstsOf (joinPredicates ps continues).bindings.keys
      (ps.flatMap fun p => p.bindings.keys) := firstsOf_iff.2 (keys_mergedBindings ps)
  exact ⟨text_joinPredicates_append ps qs continues, mergedBindings_append ps qs,
    fun _ _ => get?_mergedBindings_eq_some_iff, hfirsts, hfirsts.nodup,
    fun h => l.text_build_settled h⟩

/-- A blank condition in front, and one that only carries bindings behind. -/
theorem joinPredicates_append_blankFirst :
    let ps : List Predicate := [
      .ofText "  ",
      (Predicate.ofText "e.kind = :kind").bind "kind" (.int 1),
      .ofBindings (Assoc.ofList [("place", .text "hall"), ("kind", .int 2)])]
    let l : Listing := {
      text := "SELECT e.id FROM events e"
      conditions := [.ofText "e.place = :place"] }
    hasText ps = true ∧
      (joinPredicates (ps ++ l.conditions) false).text =
        " WHERE (e.kind = :kind)" ++ " AND (e.place = :place)" ∧
      (joinPredicates ps false).bindings.get? "kind" = some (.int 2) ∧
      NamedQuery.text <$> (l.settled ps).build = NamedQuery.text <$> (l.preceded ps).build := by
  intro ps l
  have htext : hasText ps = true := by decide +kernel
  obtain ⟨hsplit, -, hlast, -, -, hlisting⟩ := joinPredicates_append ps l.conditions false l
  refine ⟨htext, ?_, ?_, hlisting htext⟩
  · rw [hsplit, htext]
    rfl
  · exact (hlast "kind" (.int 2)).2
      ⟨[.ofText "  ", (Predicate.ofText "e.kind = :kind").bind "kind" (.int 1)],
        .ofBindings (Assoc.ofList [("place", .text "hall"), ("kind", .int 2)]), [], rfl, rfl,
        by simp⟩

end SqlAssembly
