import SqlAssembly.Request.Basic
import Mathlib.Data.List.Perm.Subperm

/-!
# Requests that agree

What `Request.agrees` compares: requests that agree want the same fields, and of each field the
requests under it agree. `agrees_of_nested?` is the converse.
-/

namespace SqlAssembly.Request

namespace Items

/-- What the first list wants, the second one wants, with as much under it. -/
theorem get?_of_within {r s : Items} (h : r.within s = true) (name : String) :
    (r.get? name = some none → s.get? name = some none) ∧
      ∀ x, r.get? name = some (some x) → ∃ y, s.get? name = some (some y) ∧ x.agrees y = true := by
  induction r with
  | empty =>
    rw [get?]
    simp
  | leaf n rest ih =>
    simp only [within, Bool.and_eq_true, beq_iff_eq] at h
    rw [get?]
    split
    · next hn =>
      subst hn
      simpa using h.1
    · exact ih h.2
  | branch n nested rest _ ih =>
    rw [within, Bool.and_eq_true] at h
    rw [get?]
    split
    · next hn =>
      subst hn
      split at h
      · next other ho => simpa using ⟨other, ho, h.1⟩
      · cases h.1
    · exact ih h.2

theorem names_subset_of_within {r s : Items} (h : r.within s = true) : r.names ⊆ s.names := by
  intro name hr
  rw [mem_names_iff, Option.isSome_iff_exists] at hr ⊢
  obtain ⟨_ | x, hu⟩ := hr
  · exact ⟨_, (get?_of_within h name).1 hu⟩
  · obtain ⟨y, hy, -⟩ := (get?_of_within h name).2 x hu
    exact ⟨_, hy⟩

/-- Lists that agree want the same fields. -/
theorem names_perm_of_agrees {r s : Items} (hr : r.Distinct) (h : r.agrees s = true) :
    r.names.Perm s.names := by
  rw [agrees, Bool.and_eq_true, beq_iff_eq] at h
  have hsub := hr.nodup_names.subperm (names_subset_of_within h.2)
  exact hsub.perm_of_length_le (Nat.le_of_eq h.1.symm)

/-- Lists that agree have a list under the same fields, and these agree. -/
theorem nested?_of_agrees {r s : Items} (hr : r.Distinct) (h : r.agrees s = true) (name : String) :
    Option.Rel (fun x y => x.agrees y = true) (r.nested? name) (s.nested? name) := by
  have hmem : name ∈ r.names ↔ name ∈ s.names := (names_perm_of_agrees hr h).mem_iff
  rw [agrees, Bool.and_eq_true] at h
  obtain ⟨hleaf, hbranch⟩ := get?_of_within h.2 name
  rw [nested?, nested?]
  rcases hg : r.get? name with _ | _ | x
  · have hs : s.get? name = none := by simpa [mem_names_iff, hg] using hmem
    rw [hs]
    exact .none
  · rw [hleaf hg]
    exact .none
  · obtain ⟨y, hy, hxy⟩ := hbranch x hg
    rw [hy]
    exact .some hxy

/-- A list is within another one that wants its fields, with as much under each. -/
theorem within_of_get? {r s : Items} (hr : r.Distinct)
    (h : ∀ name under, r.get? name = some under → ∃ under', s.get? name = some under' ∧
      Option.Rel (fun x y => x.agrees y = true) under under') : r.within s = true := by
  induction r with
  | empty => rfl
  | leaf n rest ih =>
    obtain ⟨under', hget, hrel⟩ := h n none (if_pos rfl)
    cases hrel
    rw [within, hget, beq_self_eq_true, Bool.true_and]
    refine ih hr.2 fun name under hname => h name under ?_
    -- a field of the rest is not the first one
    have hmem : name ∈ rest.names := (mem_names_iff rest name).2 (by rw [hname]; rfl)
    rwa [get?, if_neg fun e : n = name => hr.1 (e ▸ hmem)]
  | branch n nested rest _ ih =>
    obtain ⟨under', hget, hrel⟩ := h n (some nested) (if_pos rfl)
    cases hrel with
    | some hxy =>
      rw [within, hget]
      refine Bool.and_eq_true_iff.2 ⟨hxy, ih hr.2.2 fun name under hname => h name under ?_⟩
      have hmem : name ∈ rest.names := (mem_names_iff rest name).2 (by rw [hname]; rfl)
      rwa [get?, if_neg fun e : n = name => hr.1 (e ▸ hmem)]

end Items

variable {r s : Request}

theorem contains_eq_of_agrees (h : r.agrees s = true) (name : String) :
    r.contains name = s.contains name := by
  rw [Bool.eq_iff_iff, contains, contains, ← Items.mem_names_iff, ← Items.mem_names_iff]
  exact (Items.names_perm_of_agrees r.distinct h).mem_iff

theorem isEmpty_eq_of_agrees (h : r.agrees s = true) : r.isEmpty = s.isEmpty := by
  rw [isEmpty, isEmpty, Bool.eq_iff_iff, List.isEmpty_iff, List.isEmpty_iff]
  have hp := Items.names_perm_of_agrees r.distinct h
  exact ⟨fun e => List.perm_nil.1 (e ▸ hp.symm), fun e => List.perm_nil.1 (e ▸ hp)⟩

theorem nested?_of_agrees (h : r.agrees s = true) (name : String) :
    Option.Rel (fun x y => x.agrees y = true) (r.nested? name) (s.nested? name) := by
  have hi := Items.nested?_of_agrees r.distinct h name
  rw [← map_items_nested?, ← map_items_nested?] at hi
  cases hr : r.nested? name <;> cases hs : s.nested? name <;> rw [hr, hs] at hi <;> cases hi
  · exact .none
  · next hxy => exact .some hxy

/-- Requests agree that want the same fields, if of each field the requests under it agree. -/
theorem agrees_of_nested? (hc : ∀ name, r.contains name = s.contains name)
    (hn : ∀ name, Option.Rel (fun x y => x.agrees y = true) (r.nested? name) (s.nested? name)) :
    r.agrees s = true := by
  have hmem (name : String) : name ∈ r.items.names ↔ name ∈ s.items.names := by
    rw [Items.mem_names_iff, Items.mem_names_iff]
    exact Bool.eq_iff_iff.1 (hc name)
  have hperm : r.items.names.Perm s.items.names :=
    (List.perm_ext_iff_of_nodup r.distinct.nodup_names s.distinct.nodup_names).2 hmem
  refine Bool.and_eq_true_iff.2 ⟨beq_iff_eq.2 hperm.length_eq, ?_⟩
  refine Items.within_of_get? r.distinct fun name under hget => ?_
  obtain ⟨under', hget'⟩ : ∃ under', s.items.get? name = some under' := by
    rw [← Option.isSome_iff_exists, ← Items.mem_names_iff, ← hmem, Items.mem_names_iff, hget]
    rfl
  refine ⟨under', hget', ?_⟩
  have hr : (r.nested? name).map items = under := by
    rw [map_items_nested?, Items.nested?, hget, Option.join_some]
  have hs : (s.nested? name).map items = under' := by
    rw [map_items_nested?, Items.nested?, hget', Option.join_some]
  have hrel := hn name
  generalize r.nested? name = a at hr hrel
  generalize s.nested? name = b at hs hrel
  subst hr hs
  cases hrel with
  | none => exact .none
  | some hxy => exact .some hxy

end SqlAssembly.Request
