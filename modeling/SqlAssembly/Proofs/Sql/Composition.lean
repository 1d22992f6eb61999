import SqlAssembly.Proofs.Sql.Boundary
import SqlAssembly.Proofs.Sql.Numbering
import SqlAssembly.Sql.Statement

/-!
# Texts made of fragments

* `Glue` is a text to put between fragments, which changes none of them.
* `MadeOf xs fs` says that the texts `xs` are made of the fragments `fs` and of nothing else that
  holds a placeholder.
* `MadeOf.glue` and `MadeOf.intercalate` put texts together; `MadeOf.plain` and `MadeOf.resultName`
  are the texts that need no fragment.
-/

namespace SqlAssembly.Sql

/-- A text without quotes, dollar signs, colons, slashes and hyphens. -/
def Plain (s : String) : Prop :=
  ∀ c ∈ s.toList, c ∉ ['\'', '"', '$', ':', '-', '/']

instance : DecidablePred Plain := fun s =>
  List.decidableBAll (fun c => c ∉ ['\'', '"', '$', ':', '-', '/']) s.toList

/-- A plain text with inert characters at both ends. -/
def Glue (g : String) : Prop :=
  Plain g ∧ g.toList.head?.any (fun c => decide (Inert c)) = true ∧
    g.toList.getLast?.any (fun c => decide (Inert c)) = true

instance : DecidablePred Glue := fun _ => instDecidableAnd

theorem lexemes_plain {s : String} (h : Plain s) : lexemes none s.toList = s.toList.map .other :=
  lexemes_eq_map_other none h

/-- Single characters open no region. -/
theorem isClosed_of_mem_map_other {l : List Char} {x : Lexeme} (hx : x ∈ l.map .other) :
    x.isClosed = true := by
  obtain ⟨c, -, rfl⟩ := List.mem_map.1 hx
  rfl

theorem closed_plain {s : String} (h : Plain s) : Closed s := by
  rw [Closed, lexemes_plain h]
  exact fun x hx => isClosed_of_mem_map_other hx

theorem mem_placeholders_iff {s n : String} :
    n ∈ placeholders s ↔ .placeholder n.toList ∈ lexemes none s.toList :=
  mem_uses_iff

/-- Glue keeps the lexemes of both sides. -/
theorem lexemes_glue {s g : String} (hs : Closed s) (hg : Glue g) (t : String) :
    lexemes none (s ++ g ++ t).toList =
      lexemes none s.toList ++ (g.toList.map .other ++ lexemes none t.toList) := by
  obtain ⟨hplain, hhead, hlast⟩ := hg
  rw [String.toList_append, String.toList_append]
  unfold Plain at hplain
  generalize g.toList = l at hplain hhead hlast
  obtain ⟨d, hd, hdi⟩ := (Option.any_eq_true _ _).1 hhead
  obtain ⟨m, rfl⟩ := List.head?_eq_some_iff.1 hd
  rw [List.append_assoc, List.cons_append, lexemes_append_inert hs (of_decide_eq_true hdi),
    List.map_cons, List.cons_append]
  congr 2
  -- behind its first character the glue is empty, or ends with an inert character again
  rcases List.eq_nil_or_concat m with rfl | ⟨k, e, rfl⟩
  · rfl
  · have he : Inert e := by
      rw [List.concat_eq_append, ← List.cons_append, List.getLast?_concat] at hlast
      exact of_decide_eq_true hlast
    have hk : lexemes none k = k.map .other :=
      lexemes_eq_map_other none fun c hc => hplain c (by simp [hc])
    have hclosed : ∀ x ∈ lexemes none k, x.isClosed = true := by
      rw [hk]
      exact fun x hx => isClosed_of_mem_map_other hx
    rw [List.concat_eq_append, List.append_assoc, List.singleton_append,
      lexemes_append_inert hclosed he, hk]
    simp

theorem Closed.glue {s g t : String} (hs : Closed s) (hg : Glue g) (ht : Closed t) :
    Closed (s ++ g ++ t) := by
  rw [Closed, lexemes_glue hs hg]
  intro x hx
  rcases List.mem_append.1 hx with hx | hx
  · exact hs x hx
  · rcases List.mem_append.1 hx with hx | hx
    · exact isClosed_of_mem_map_other hx
    · exact ht x hx

theorem mem_placeholders_glue {s g : String} (hs : Closed s) (hg : Glue g) {t n : String} :
    n ∈ placeholders (s ++ g ++ t) ↔ n ∈ placeholders s ∨ n ∈ placeholders t := by
  simp only [mem_placeholders_iff, lexemes_glue hs hg, List.mem_append, List.mem_map,
    reduceCtorEq, and_false, exists_false, false_or]

/-! ### Result names -/

theorem quoted_doubleQuoteChar (l : List Char) : Quoted '"' (l.flatMap doubleQuoteChar) := by
  induction l with
  | nil => exact .nil
  | cons c l ih =>
    rw [List.flatMap_cons, doubleQuoteChar]
    split
    · exact .double ih
    · next h => exact .char h ih

theorem isPlainChar_of_isPlainName {l : List Char} (h : isPlainName l = true) :
    ∀ c ∈ l, isPlainChar c = true := by
  cases l with
  | nil => cases h
  | cons d l =>
    obtain ⟨hd, hl⟩ := Bool.and_eq_true_iff.1 h
    rintro c (_ | ⟨_, hc⟩)
    · rw [isPlainChar, Bool.or_eq_true_iff]
      exact .inl hd
    · exact List.all_eq_true.1 hl c hc

theorem plain_of_isPlainName {s : String} (h : isPlainName s.toList = true) : Plain s := by
  intro c hc hmem
  have hplain := isPlainChar_of_isPlainName h c hc
  have hno : ['\'', '"', '$', ':', '-', '/'].all (fun d => !isPlainChar d) = true := by decide
  have := List.all_eq_true.1 hno c hmem
  rw [hplain] at this
  cases this

/-- A result name is plain, or one quoted identifier. -/
theorem lexemes_resultName (name : String) :
    Plain (resultName name) ∨
      ∃ text, lexemes none (resultName name).toList = [.region .identifier text true] := by
  unfold resultName
  split
  · next h => exact .inl (plain_of_isPlainName h)
  · have hstart : Starts (.counted .int32) none
        (.region .identifier ('"' :: (name.toList.flatMap doubleQuoteChar ++ ['"'])) true) [] :=
      .quote .identifier (quoted_doubleQuoteChar name.toList) nofun
    refine .inr ⟨'"' :: (name.toList.flatMap doubleQuoteChar ++ ['"']), ?_⟩
    simpa [lexemes, Lexeme.text] using hstart.lexemes_eq

theorem closed_resultName (name : String) : Closed (resultName name) := by
  rcases lexemes_resultName name with h | ⟨text, h⟩
  · exact closed_plain h
  · rw [Closed, h]
    intro x hx
    rw [List.mem_singleton.1 hx]
    rfl

theorem placeholders_plain {s : String} (h : Plain s) : placeholders s = [] := by
  rw [List.eq_nil_iff_forall_not_mem]
  intro n hn
  rw [mem_placeholders_iff, lexemes_plain h] at hn
  obtain ⟨c, -, hc⟩ := List.mem_map.1 hn
  cases hc

theorem placeholders_resultName (name : String) : placeholders (resultName name) = [] := by
  rcases lexemes_resultName name with h | ⟨text, h⟩
  · exact placeholders_plain h
  · rw [placeholders, h]
    rfl

/-! ### Fragments -/

/-- The closed texts `xs` are made of the fragments `fs`: no fragment is broken or hidden, and the
fragments hold all placeholders of the texts. -/
structure MadeOf (xs fs : List String) : Prop where
  closed : ∀ x ∈ xs, Closed x
  /-- The lexemes of a fragment stand together in a text. -/
  whole : ∀ f ∈ fs, ∃ x ∈ xs, lexemes none f.toList <:+: lexemes none x.toList
  /-- A placeholder comes from a fragment. -/
  names : ∀ x ∈ xs, ∀ n ∈ placeholders x, ∃ f ∈ fs, n ∈ placeholders f

namespace MadeOf

theorem refl {xs : List String} (h : ∀ x ∈ xs, Closed x) : MadeOf xs xs where
  closed := h
  whole f hf := ⟨f, hf, List.infix_refl _⟩
  names x hx _ hn := ⟨x, hx, hn⟩

theorem trans {xs ys zs : List String} (h : MadeOf xs ys) (h' : MadeOf ys zs) : MadeOf xs zs where
  closed := h.closed
  whole f hf := by
    obtain ⟨y, hy, hfy⟩ := h'.whole f hf
    obtain ⟨x, hx, hyx⟩ := h.whole y hy
    exact ⟨x, hx, hfy.trans hyx⟩
  names x hx n hn := by
    obtain ⟨y, hy, hn⟩ := h.names x hx n hn
    exact h'.names y hy n hn

theorem append {xs ys fs gs : List String} (h : MadeOf xs fs) (h' : MadeOf ys gs) :
    MadeOf (xs ++ ys) (fs ++ gs) where
  closed x hx := (List.mem_append.1 hx).elim (h.closed x) (h'.closed x)
  whole f hf := by
    rcases List.mem_append.1 hf with hf | hf
    · obtain ⟨x, hx, hfx⟩ := h.whole f hf
      exact ⟨x, List.mem_append_left _ hx, hfx⟩
    · obtain ⟨x, hx, hfx⟩ := h'.whole f hf
      exact ⟨x, List.mem_append_right _ hx, hfx⟩
  names x hx n hn := by
    rcases List.mem_append.1 hx with hx | hx
    · obtain ⟨f, hf, hn⟩ := h.names x hx n hn
      exact ⟨f, List.mem_append_left _ hf, hn⟩
    · obtain ⟨f, hf, hn⟩ := h'.names x hx n hn
      exact ⟨f, List.mem_append_right _ hf, hn⟩

/-- Order and repetition do not matter. -/
theorem congr {xs ys fs gs : List String} (h : MadeOf xs fs) (hx : ∀ x, x ∈ ys ↔ x ∈ xs)
    (hf : ∀ f, f ∈ gs ↔ f ∈ fs) : MadeOf ys gs := by
  obtain ⟨hclosed, hwhole, hnames⟩ := h
  refine ⟨?_, ?_, ?_⟩
  all_goals simp only [hx, hf]
  · exact hclosed
  · exact hwhole
  · exact hnames

/-- A closed text without placeholders needs no fragment. -/
theorem bare {s : String} (h : Closed s) (hp : placeholders s = []) : MadeOf [s] [] where
  closed x hx := by
    rw [List.mem_singleton.1 hx]
    exact h
  whole f hf := nomatch hf
  names x hx n hn := by
    rw [List.mem_singleton.1 hx, hp] at hn
    cases hn

theorem plain {s : String} (h : Plain s) : MadeOf [s] [] :=
  bare (closed_plain h) (placeholders_plain h)

theorem resultName (name : String) : MadeOf [Sql.resultName name] [] :=
  bare (closed_resultName name) (placeholders_resultName name)

/-- Two texts with glue between them. -/
theorem glue {s g t : String} {fs gs : List String} (hs : MadeOf [s] fs) (hg : Glue g)
    (ht : MadeOf [t] gs) : MadeOf [s ++ g ++ t] (fs ++ gs) := by
  have hsc : Closed s := hs.closed s (List.mem_singleton_self s)
  have htc : Closed t := ht.closed t (List.mem_singleton_self t)
  -- the text is made of `s` and `t`, and these are made of their fragments
  refine trans ⟨?_, ?_, ?_⟩ (hs.append ht)
  · intro x hx
    rw [List.mem_singleton.1 hx]
    exact hsc.glue hg htc
  · intro f hf
    refine ⟨_, List.mem_singleton_self _, ?_⟩
    rw [lexemes_glue hsc hg]
    rcases List.mem_pair.1 hf with rfl | rfl
    · exact (List.prefix_append _ _).isInfix
    · rw [← List.append_assoc]
      exact (List.suffix_append _ _).isInfix
  · intro x hx n hn
    rw [List.mem_singleton.1 hx, mem_placeholders_glue hsc hg] at hn
    rcases hn with hn | hn
    · exact ⟨s, by simp, hn⟩
    · exact ⟨t, by simp, hn⟩

/-- Texts with glue between any two of them. -/
theorem intercalate {g : String} (hg : Glue g) {xs : List String} (h : ∀ x ∈ xs, Closed x) :
    MadeOf [g.intercalate xs] xs := by
  induction xs with
  | nil =>
    rw [String.intercalate_nil]
    exact plain (by decide)
  | cons x xs ih =>
    obtain ⟨hx, hxs⟩ := List.forall_mem_cons.1 h
    have hself : MadeOf [x] [x] := refl (by simpa using hx)
    cases xs with
    | nil => rwa [String.intercalate_singleton]
    | cons y ys =>
      rw [String.intercalate_cons_cons]
      exact hself.glue hg (ih hxs)

theorem intercalate_eraseDups {g : String} (hg : Glue g) {xs : List String}
    (h : ∀ x ∈ xs, Closed x) : MadeOf [g.intercalate xs.eraseDups] xs :=
  (intercalate hg fun x hx => h x (List.mem_eraseDups.1 hx)).congr (fun _ => Iff.rfl) fun _ =>
    List.mem_eraseDups.symm

end MadeOf

end SqlAssembly.Sql
