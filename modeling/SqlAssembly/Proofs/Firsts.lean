import Mathlib.Data.List.Basic
import Mathlib.Data.List.Induction
import Mathlib.Data.List.Sort

/-!
# First occurrences

`FirstsOf l all` says that `l` is `all` with every text only where it first comes. There is one such
list, `List.eraseDups`.
-/

namespace SqlAssembly

/-- The list has the texts of `all`, each once, in the order in which they first come there. -/
structure FirstsOf (l all : List String) : Prop where
  mem : ∀ t, t ∈ l ↔ t ∈ all
  /-- Of two texts the one that comes first in `all` stands before the other. -/
  sorted : l.Pairwise fun t u => all.idxOf t < all.idxOf u

/-- One more text counts unless it came before. -/
theorem eraseDups_concat (all : List String) (t : String) :
    (all ++ [t]).eraseDups = if t ∈ all then all.eraseDups else all.eraseDups ++ [t] := by
  rw [List.eraseDups_append]
  split
  · next h => simp [List.removeAll, h]
  · next h => simp [List.removeAll, h, List.eraseDups_cons]

theorem firstsOf_eraseDups (all : List String) : FirstsOf all.eraseDups all := by
  refine ⟨fun t => List.mem_eraseDups, ?_⟩
  induction all using List.reverseRecOn with
  | nil => exact List.Pairwise.nil
  | append_singleton all u ih =>
    -- the places in `all` stay what they are
    have hplace {t : String} (ht : t ∈ all) : (all ++ [u]).idxOf t = all.idxOf t :=
      List.idxOf_append_of_mem ht
    have hbefore : all.eraseDups.Pairwise fun t v => (all ++ [u]).idxOf t < (all ++ [u]).idxOf v :=
      ih.imp_of_mem fun ht hv h => by
        rwa [hplace (List.mem_eraseDups.1 ht), hplace (List.mem_eraseDups.1 hv)]
    rw [eraseDups_concat]
    split
    · exact hbefore
    · next hu =>
      refine List.pairwise_append.2 ⟨hbefore, List.pairwise_singleton _ _, fun t ht v hv => ?_⟩
      have hmem : t ∈ all := List.mem_eraseDups.1 ht
      have hlt : all.idxOf t < all.length := List.idxOf_lt_length_iff.2 hmem
      rw [List.mem_singleton.1 hv, hplace hmem, List.idxOf_append_of_notMem hu]
      omega

/-- There is one such list. -/
theorem firstsOf_iff {l all : List String} : FirstsOf l all ↔ l = all.eraseDups := by
  constructor
  · intro h
    have : Std.Irrefl fun t u => all.idxOf t < all.idxOf u := ⟨fun t => Nat.lt_irrefl _⟩
    have hd := firstsOf_eraseDups all
    exact h.sorted.eq_of_mem_iff hd.sorted fun t => (h.mem t).trans (hd.mem t).symm
  · rintro rfl
    exact firstsOf_eraseDups all

theorem FirstsOf.nodup {l all : List String} (h : FirstsOf l all) : l.Nodup :=
  h.sorted.imp fun hlt e => absurd hlt (by rw [e]; exact Nat.lt_irrefl _)

theorem eraseDups_of_nodup {l : List String} (h : l.Nodup) : l.eraseDups = l := by
  induction l using List.reverseRecOn with
  | nil => rfl
  | append_singleton l t ih =>
    obtain ⟨hl, -, ht⟩ := List.nodup_append.1 h
    rw [eraseDups_concat, if_neg fun hmem => ht t hmem t (List.mem_singleton_self t) rfl, ih hl]

/-- Repetitions may be left out of the first part beforehand. -/
theorem eraseDups_eraseDups_append (l m : List String) :
    (l.eraseDups ++ m).eraseDups = (l ++ m).eraseDups := by
  induction m using List.reverseRecOn with
  | nil => rw [List.append_nil, List.append_nil, eraseDups_of_nodup (firstsOf_eraseDups l).nodup]
  | append_singleton m t ih =>
    rw [← List.append_assoc, ← List.append_assoc, eraseDups_concat, eraseDups_concat, ih]
    simp only [List.mem_append, List.mem_eraseDups]

/-- Repetitions may be left out of the second part beforehand. -/
theorem eraseDups_append_eraseDups (l m : List String) :
    (l ++ m.eraseDups).eraseDups = (l ++ m).eraseDups := by
  induction m using List.reverseRecOn with
  | nil => rfl
  | append_singleton m t ih =>
    rw [← List.append_assoc, eraseDups_concat (l ++ m), ← ih, eraseDups_concat]
    by_cases hm : t ∈ m
    · rw [if_pos hm, if_pos (List.mem_append_right l hm)]
    · rw [if_neg hm, ← List.append_assoc, eraseDups_concat]
      simp only [List.mem_append, List.mem_eraseDups]

end SqlAssembly
