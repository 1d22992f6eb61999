import Mathlib.Data.List.TakeWhile

/-!
# Runs of characters

How texts divide at their characters.

* `Run` is the longest run of characters of one kind at the start of a text. There is only one, and
  `takeWhile` and `dropWhile` find it.
* `prefix_of_not_mem`: a word does not reach over a character that it does not have.
-/

namespace SqlAssembly.Text

/-- All characters of the run are of the kind, and the run cannot go on with the rest. -/
structure Run (p : Char → Bool) (run rest : List Char) : Prop where
  all : ∀ c ∈ run, p c = true
  stops : ∀ c, rest.head? = some c → p c = false

variable {p : Char → Bool} {run rest run' rest' : List Char}

theorem Run.takeWhile_append (h : Run p run rest) : (run ++ rest).takeWhile p = run := by
  rw [List.takeWhile_append_of_pos h.all]
  cases rest with
  | nil => simp
  | cons c rest => simp [h.stops c rfl]

theorem Run.dropWhile_append (h : Run p run rest) : (run ++ rest).dropWhile p = rest := by
  rw [List.dropWhile_append_of_pos h.all]
  cases rest with
  | nil => simp
  | cons c rest => simp [h.stops c rfl]

theorem run_takeWhile (p : Char → Bool) (l : List Char) :
    Run p (l.takeWhile p) (l.dropWhile p) := by
  refine ⟨fun c hc => List.mem_takeWhile_imp hc, fun c hc => ?_⟩
  simpa [hc] using List.head?_dropWhile_not p l

theorem Run.unique (h : Run p run rest) (h' : Run p run' rest')
    (heq : run ++ rest = run' ++ rest') : run = run' ∧ rest = rest' := by
  constructor
  · rw [← h.takeWhile_append, heq, h'.takeWhile_append]
  · rw [← h.dropWhile_append, heq, h'.dropWhile_append]

/-- A word without the character lies before the character. -/
theorem prefix_of_not_mem {d : Char} {p l t : List Char} (h : p <+: l ++ d :: t) (hd : d ∉ p) :
    p <+: l := by
  obtain ⟨u, hu⟩ := h
  rcases List.append_eq_append_iff.1 hu with ⟨v, rfl, -⟩ | ⟨v, rfl, hv⟩
  · exact ⟨v, rfl⟩
  · rcases v with _ | ⟨e, v⟩
    · simp
    · obtain ⟨rfl, -⟩ := List.cons.inj hv
      exact (hd (by simp)).elim

end SqlAssembly.Text
