import SqlAssembly.Proofs.Text.Runs
import SqlAssembly.Text.Scrub

/-!
# What scrubbing leaves

The core of a text stands from its first to its last ordinary character, that is, one that is
neither special nor blank. Scrubbing leaves the core without the special symbols.

* `scrub_eq_empty_iff`: nothing is left exactly when there are only special symbols and blanks.
* `trimChars_append`: trimming removes the blanks around a text that has none at its ends.
* `scrub_exact`: what is left, and that scrubbing once is enough.
-/

namespace SqlAssembly.Text

/-- A character that is neither special nor blank. -/
def IsOrdinary (c : Char) : Prop :=
  isSpecial c = false ∧ isBlank c = false

instance : DecidablePred IsOrdinary := fun _ => instDecidableAnd

/-- What stands in a text from its first to its last ordinary character; nothing if it has none. -/
structure IsCore (core text : List Char) : Prop where
  /-- Around it no character is ordinary. -/
  around : ∃ before after, text = before ++ core ++ after ∧ ∀ c ∈ before ++ after, ¬IsOrdinary c
  first : ∀ c, core.head? = some c → IsOrdinary c
  last : ∀ c, core.getLast? = some c → IsOrdinary c

/-- The text `t` is what has to be left of `s`. -/
structure Scrubbed (s t : String) : Prop where
  special : ∀ c ∈ t.toList, isSpecial c = false
  first : ∀ c, t.toList.head? = some c → isBlank c = false
  last : ∀ c, t.toList.getLast? = some c → isBlank c = false
  /-- Left are the characters of the core that are not special, in order. -/
  exact : ∃ core, IsCore core s.toList ∧ t.toList = core.filter fun c => !isSpecial c
  /-- Nothing is left exactly when there is no ordinary character. -/
  eq_empty_iff : t = "" ↔ ∀ c ∈ s.toList, ¬IsOrdinary c
  again : scrub t = t

/-! ### Trimming -/

/-- A text of blanks is trimmed away, and no other text is. -/
theorem trimChars_eq_nil_iff {l : List Char} :
    trimChars l = [] ↔ ∀ c ∈ l, isBlank c = true := by
  rw [trimChars, List.reverse_eq_nil_iff, List.dropWhile_eq_nil_iff]
  simp only [List.mem_reverse]
  constructor
  · intro h c hc
    rw [← List.takeWhile_append_dropWhile (p := isBlank) (l := l), List.mem_append] at hc
    rcases hc with hc | hc
    · exact List.mem_takeWhile_imp hc
    · exact h c hc
  · exact fun h c hc => h c ((List.dropWhile_sublist isBlank).subset hc)

/-- Trimming leaves what has blanks around it, and none at its ends. -/
theorem trimChars_append {before mid after : List Char} (hb : ∀ c ∈ before, isBlank c = true)
    (ha : ∀ c ∈ after, isBlank c = true) (hf : ∀ c, mid.head? = some c → isBlank c = false)
    (hl : ∀ c, mid.getLast? = some c → isBlank c = false) :
    trimChars (before ++ mid ++ after) = mid := by
  cases mid with
  | nil =>
    rw [trimChars_eq_nil_iff, List.append_nil]
    exact fun c hc => (List.mem_append.1 hc).elim (hb c) (ha c)
  | cons d mid =>
    have front : Run isBlank before (d :: mid ++ after) := ⟨hb, by simpa using hf⟩
    have back : Run isBlank after.reverse (d :: mid).reverse :=
      ⟨by simpa using ha, by rwa [List.head?_reverse]⟩
    rw [trimChars, List.append_assoc, front.dropWhile_append, List.reverse_append,
      back.dropWhile_append, List.reverse_reverse]

/-! ### Scrubbing -/

/-- Nothing is left exactly when there are only special symbols and blanks. -/
theorem scrub_eq_empty_iff {s : String} :
    scrub s = "" ↔ ∀ c ∈ s.toList, isSpecial c = true ∨ isBlank c = true := by
  rw [← String.toList_eq_nil_iff, scrub, String.toList_ofList, trimChars_eq_nil_iff]
  simp only [List.mem_filter, and_imp]
  refine forall₂_congr fun c _ => ?_
  cases isSpecial c <;> simp

/-! ### The core of a text -/

/-- Every text has a core. -/
theorem exists_isCore (text : List Char) : ∃ core, IsCore core text := by
  let idle (c : Char) : Bool := decide (¬IsOrdinary c)
  have front := run_takeWhile idle text
  have back := run_takeWhile idle (text.dropWhile idle).reverse
  -- the core is what the two runs of idle characters leave between them
  generalize hcore : ((text.dropWhile idle).reverse.dropWhile idle).reverse = core
  generalize hafter : ((text.dropWhile idle).reverse.takeWhile idle).reverse = after
  have hrest : core ++ after = text.dropWhile idle := by
    rw [← hcore, ← hafter, ← List.reverse_append, List.takeWhile_append_dropWhile,
      List.reverse_reverse]
  refine ⟨core, ⟨text.takeWhile idle, after, ?_, fun c hc => ?_⟩, fun c hc => ?_, fun c hc => ?_⟩
  · rw [List.append_assoc, hrest, List.takeWhile_append_dropWhile]
  · rcases List.mem_append.1 hc with hc | hc
    · exact of_decide_eq_true (front.all c hc)
    · rw [← hafter, List.mem_reverse] at hc
      exact of_decide_eq_true (back.all c hc)
  · have hstop := front.stops c (by rw [← hrest, List.head?_append, hc, Option.some_or])
    exact of_not_not (of_decide_eq_false hstop)
  · rw [← hcore, List.getLast?_reverse] at hc
    exact of_not_not (of_decide_eq_false (back.stops c hc))

theorem isBlank_of_not_isOrdinary {c : Char} (h : ¬IsOrdinary c) (hs : isSpecial c = false) :
    isBlank c = true := by
  simpa [IsOrdinary, hs] using h

/-- When a text begins with an ordinary character, it does so without the special symbols too. -/
theorem head?_filter_of_isOrdinary {l : List Char} (h : ∀ c, l.head? = some c → IsOrdinary c)
    (c : Char) (hc : (l.filter fun c => !isSpecial c).head? = some c) : isBlank c = false := by
  cases l with
  | nil => cases hc
  | cons d l =>
    obtain ⟨hd, hb⟩ := h d rfl
    rw [List.filter_cons_of_pos (by simp [hd])] at hc
    cases hc
    exact hb

theorem getLast?_filter_of_isOrdinary {l : List Char}
    (h : ∀ c, l.getLast? = some c → IsOrdinary c) (c : Char)
    (hc : (l.filter fun c => !isSpecial c).getLast? = some c) : isBlank c = false := by
  rw [← List.head?_reverse, ← List.filter_reverse] at hc
  exact head?_filter_of_isOrdinary (by simpa using h) c hc

/-- What is left of a text is its core without the special symbols. -/
theorem IsCore.toList_scrub {core : List Char} {s : String} (h : IsCore core s.toList) :
    (scrub s).toList = core.filter fun c => !isSpecial c := by
  obtain ⟨⟨before, after, hs, haround⟩, hfirst, hlast⟩ := h
  have idle (c : Char) (hc : c ∈ before ++ after) (hsp : (!isSpecial c) = true) :
      isBlank c = true :=
    isBlank_of_not_isOrdinary (haround c hc) (by simpa using hsp)
  rw [scrub, String.toList_ofList, hs, List.filter_append, List.filter_append]
  refine trimChars_append (fun c hc => ?_) (fun c hc => ?_)
    (head?_filter_of_isOrdinary hfirst) (getLast?_filter_of_isOrdinary hlast)
  · obtain ⟨hc, hsp⟩ := List.mem_filter.1 hc
    exact idle c (List.mem_append_left _ hc) hsp
  · obtain ⟨hc, hsp⟩ := List.mem_filter.1 hc
    exact idle c (List.mem_append_right _ hc) hsp

/-- A text without special symbols, and without blanks at its ends, stays as it is. -/
theorem scrub_eq_self {t : String} (hsp : ∀ c ∈ t.toList, isSpecial c = false)
    (hf : ∀ c, t.toList.head? = some c → isBlank c = false)
    (hl : ∀ c, t.toList.getLast? = some c → isBlank c = false) : scrub t = t := by
  have hfilter : (t.toList.filter fun c => !isSpecial c) = t.toList :=
    List.filter_eq_self.2 fun c hc => by simp [hsp c hc]
  have htrim : trimChars ([] ++ t.toList ++ []) = t.toList := trimChars_append nofun nofun hf hl
  rw [List.append_nil, List.nil_append] at htrim
  rw [scrub, hfilter, htrim, String.ofList_toList]

/-- **Scrubbing removes exactly what it has to.** What is left of a text are the characters of its
core that are not special, and scrubbing leaves that as it is. -/
theorem scrub_exact (s : String) : Scrubbed s (scrub s) := by
  obtain ⟨core, hcore⟩ := exists_isCore s.toList
  have hleft := hcore.toList_scrub
  have hfirst : ∀ c, (scrub s).toList.head? = some c → isBlank c = false := by
    rw [hleft]
    exact head?_filter_of_isOrdinary hcore.first
  have hlast : ∀ c, (scrub s).toList.getLast? = some c → isBlank c = false := by
    rw [hleft]
    exact getLast?_filter_of_isOrdinary hcore.last
  have hspecial : ∀ c ∈ (scrub s).toList, isSpecial c = false :=
    fun c hc => isSpecial_of_mem_scrub hc
  refine ⟨hspecial, hfirst, hlast, ⟨core, hcore, hleft⟩, ?_, scrub_eq_self hspecial hfirst hlast⟩
  rw [scrub_eq_empty_iff]
  refine forall₂_congr fun c _ => ?_
  rw [IsOrdinary]
  cases isSpecial c <;> simp

/-- A blank that only special symbols kept from an end goes with them. -/
example : scrub "(a, b) -- №" = "a b" := by
  decide +kernel

end SqlAssembly.Text
