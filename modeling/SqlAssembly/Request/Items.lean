/-!
# Items of a request

The wanted fields of a request are a list whose cells are of two sorts, those without and those with
a list of wanted fields under them. Every function on it is a plain recursion.

* `Items.add` wants a field; `Items.place` puts a list under a field.
* `Items.merge` wants everything that another list wants.
* `Items.Distinct` says that no list names a field twice, at any level. All of these keep it.

A list is seen through its names, `Items.names`, and through `Items.get?`, which tells for each
field whether it is wanted and what is wanted under it.
-/

namespace SqlAssembly.Request

/-- Wanted fields. -/
inductive Items where
  | empty
  | leaf (name : String) (rest : Items)
  | branch (name : String) (nested : Items) (rest : Items)
deriving DecidableEq, Repr

namespace Items

/-- The wanted fields, in order. -/
def names : Items → List String
  | empty => []
  | leaf name rest => name :: rest.names
  | branch name _ rest => name :: rest.names

/-- What is known of a field: `none` if it is not wanted, else what is wanted under it, if it has a
list there. -/
def get? (r : Items) (name : String) : Option (Option Items) :=
  match r with
  | empty => none
  | leaf n rest => if n = name then some none else rest.get? name
  | branch n nested rest => if n = name then some (some nested) else rest.get? name

/-- What is wanted under a field, if it has a list there. -/
def nested? (r : Items) (name : String) : Option Items :=
  (r.get? name).join

/-- Wants a field. One that is wanted already stays as it is. -/
def add (r : Items) (name : String) : Items :=
  match r with
  | empty => leaf name empty
  | leaf n rest => if n = name then leaf n rest else leaf n (rest.add name)
  | branch n nested rest =>
    if n = name then branch n nested rest else branch n nested (rest.add name)

/-- Wants a field and changes the list under it; `change` is given the present one, if any. -/
def place (r : Items) (name : String) (change : Option Items → Items) : Items :=
  match r with
  | empty => branch name (change none) empty
  | leaf n rest => if n = name then branch n (change none) rest else leaf n (rest.place name change)
  | branch n nested rest =>
    if n = name then branch n (change (some nested)) rest
    else branch n nested (rest.place name change)

/-- Wants everything that `s` wants, in its order. -/
def merge (r s : Items) : Items :=
  match s with
  | empty => r
  | leaf name rest => (r.add name).merge rest
  | branch name nested rest =>
    (r.place name fun old => match old with
      | some present => present.merge nested
      | none => nested).merge rest

/-- Wants a field with the given list under it, besides what is wanted there already. -/
def addNested (r : Items) (name : String) (nested : Items) : Items :=
  r.place name fun old => match old with
    | some present => present.merge nested
    | none => nested

/-- The fields that have a list under them, with the names in it. -/
def relatedLists : Items → List (String × List String)
  | empty => []
  | leaf _ rest => rest.relatedLists
  | branch name nested rest => (name, nested.names) :: rest.relatedLists

/-- Whether `s` wants everything that `r` wants, with equally much under every field. -/
def within (r s : Items) : Bool :=
  match r with
  | empty => true
  | leaf name rest => s.get? name == some none && rest.within s
  | branch name nested rest =>
    (match s.get? name with
      | some (some other) => nested.names.length == other.names.length && nested.within other
      | _ => false) && rest.within s

/-- Whether two lists want the same at every level, whatever the order. -/
def agrees (r s : Items) : Bool :=
  r.names.length == s.names.length && r.within s

/-- No field is named twice, at any level. -/
def Distinct : Items → Prop
  | empty => True
  | leaf name rest => name ∉ rest.names ∧ rest.Distinct
  | branch name nested rest => name ∉ rest.names ∧ nested.Distinct ∧ rest.Distinct

/-- The names are those of the wanted fields. -/
theorem mem_names_iff (r : Items) (name : String) : name ∈ r.names ↔ (r.get? name).isSome := by
  induction r with
  | empty => simp [names, get?]
  | leaf n rest ih =>
    by_cases h : n = name
    · simp [names, get?, h]
    · simpa [names, get?, h, Ne.symm h] using ih
  | branch n nested rest _ ih =>
    by_cases h : n = name
    · simp [names, get?, h]
    · simpa [names, get?, h, Ne.symm h] using ih

/-- The added field is wanted, with what was wanted under it before. -/
theorem get?_add (r : Items) (name other : String) :
    (r.add name).get? other =
      if other = name then some (r.nested? name) else r.get? other := by
  induction r with
  | empty =>
    by_cases h : other = name
    · simp [add, get?, nested?, h]
    · simp [add, get?, h, Ne.symm h]
  | leaf n rest ih =>
    by_cases hn : n = name
    · by_cases h : other = name
      · simp [add, get?, nested?, hn, h]
      · simp [add, get?, hn, h, Ne.symm h]
    · by_cases h : n = other
      · have : other ≠ name := h ▸ hn
        simp [add, get?, h, this]
      · simp [add, get?, nested?, hn, h, ih]
  | branch n nested rest _ ih =>
    by_cases hn : n = name
    · by_cases h : other = name
      · simp [add, get?, nested?, hn, h]
      · simp [add, get?, hn, h, Ne.symm h]
    · by_cases h : n = other
      · have : other ≠ name := h ▸ hn
        simp [add, get?, h, this]
      · simp [add, get?, nested?, hn, h, ih]

/-- The field is wanted, with the changed list under it. -/
theorem get?_place (r : Items) (name other : String) (change : Option Items → Items) :
    (r.place name change).get? other =
      if other = name then some (some (change (r.nested? name))) else r.get? other := by
  induction r with
  | empty =>
    by_cases h : other = name
    · simp [place, get?, nested?, h]
    · simp [place, get?, h, Ne.symm h]
  | leaf n rest ih =>
    by_cases hn : n = name
    · by_cases h : other = name
      · simp [place, get?, nested?, hn, h]
      · simp [place, get?, hn, h, Ne.symm h]
    · by_cases h : n = other
      · have : other ≠ name := h ▸ hn
        simp [place, get?, h, this]
      · simp [place, get?, nested?, hn, h, ih]
  | branch n nested rest _ ih =>
    by_cases hn : n = name
    · by_cases h : other = name
      · simp [place, get?, nested?, hn, h]
      · simp [place, get?, hn, h, Ne.symm h]
    · by_cases h : n = other
      · have : other ≠ name := h ▸ hn
        simp [place, get?, h, this]
      · simp [place, get?, nested?, hn, h, ih]

/-- An unknown field comes last, and a known one keeps its place. -/
theorem names_add (r : Items) (name : String) :
    (r.add name).names = if name ∈ r.names then r.names else r.names ++ [name] := by
  induction r with
  | empty => simp [add, names]
  | leaf n rest ih =>
    by_cases hn : n = name
    · simp [add, names, hn]
    · by_cases hm : name ∈ rest.names <;> simp [add, names, hn, Ne.symm hn, hm, ih]
  | branch n nested rest _ ih =>
    by_cases hn : n = name
    · simp [add, names, hn]
    · by_cases hm : name ∈ rest.names <;> simp [add, names, hn, Ne.symm hn, hm, ih]

/-- An unknown field comes last, and a known one keeps its place. -/
theorem names_place (r : Items) (name : String) (change : Option Items → Items) :
    (r.place name change).names = if name ∈ r.names then r.names else r.names ++ [name] := by
  induction r with
  | empty => simp [place, names]
  | leaf n rest ih =>
    by_cases hn : n = name
    · simp [place, names, hn]
    · by_cases hm : name ∈ rest.names <;> simp [place, names, hn, Ne.symm hn, hm, ih]
  | branch n nested rest _ ih =>
    by_cases hn : n = name
    · simp [place, names, hn]
    · by_cases hm : name ∈ rest.names <;> simp [place, names, hn, Ne.symm hn, hm, ih]

theorem not_mem_names_add {r : Items} {n name : String} (h : n ∉ r.names) (hn : n ≠ name) :
    n ∉ (r.add name).names := by
  rw [names_add]
  split
  · exact h
  · simp [h, hn]

theorem not_mem_names_place {r : Items} {n name : String} {change : Option Items → Items}
    (h : n ∉ r.names) (hn : n ≠ name) : n ∉ (r.place name change).names := by
  rw [names_place]
  split
  · exact h
  · simp [h, hn]

namespace Distinct

/-- The names of a list are distinct. -/
theorem nodup_names {r : Items} (h : r.Distinct) : r.names.Nodup := by
  induction r with
  | empty => exact List.nodup_nil
  | leaf n rest ih => exact List.nodup_cons.2 ⟨h.1, ih h.2⟩
  | branch n nested rest _ ih => exact List.nodup_cons.2 ⟨h.1, ih h.2.2⟩

theorem of_get? {r nested : Items} {name : String} (h : r.Distinct)
    (hg : r.get? name = some (some nested)) : nested.Distinct := by
  induction r with
  | empty => cases hg
  | leaf n rest ih =>
    unfold get? at hg
    split at hg
    · cases hg
    · exact ih h.2 hg
  | branch n under rest _ ih =>
    unfold get? at hg
    split at hg
    · cases hg
      exact h.2.1
    · exact ih h.2.2 hg

theorem of_nested? {r nested : Items} {name : String} (h : r.Distinct)
    (hn : r.nested? name = some nested) : nested.Distinct :=
  h.of_get? (Option.join_eq_some_iff.1 hn)

theorem add {r : Items} (h : r.Distinct) (name : String) : (r.add name).Distinct := by
  induction r with
  | empty => exact ⟨List.not_mem_nil, trivial⟩
  | leaf n rest ih =>
    unfold Items.add
    split
    · exact h
    · next hn => exact ⟨not_mem_names_add h.1 hn, ih h.2⟩
  | branch n nested rest _ ih =>
    unfold Items.add
    split
    · exact h
    · next hn => exact ⟨not_mem_names_add h.1 hn, h.2.1, ih h.2.2⟩

theorem place {r : Items} (h : r.Distinct) (name : String) {change : Option Items → Items}
    (hc : ∀ old, (∀ x, old = some x → x.Distinct) → (change old).Distinct) :
    (r.place name change).Distinct := by
  have hnone : (change none).Distinct := hc none fun _ e => nomatch e
  induction r with
  | empty => exact ⟨List.not_mem_nil, hnone, trivial⟩
  | leaf n rest ih =>
    unfold Items.place
    split
    · exact ⟨h.1, hnone, h.2⟩
    · next hn => exact ⟨not_mem_names_place h.1 hn, ih h.2⟩
  | branch n nested rest _ ih =>
    unfold Items.place
    split
    · exact ⟨h.1, hc _ fun x e => Option.some.inj e ▸ h.2.1, h.2.2⟩
    · next hn => exact ⟨not_mem_names_place h.1 hn, h.2.1, ih h.2.2⟩

theorem merge {r s : Items} (hr : r.Distinct) (hs : s.Distinct) : (r.merge s).Distinct := by
  induction s generalizing r with
  | empty => exact hr
  | leaf name rest ih => exact ih (hr.add name) hs.2
  | branch name nested rest ihNested ih =>
    refine ih (hr.place name fun old hold => ?_) hs.2.2
    cases old with
    | none => exact hs.2.1
    | some present => exact ihNested (hold present rfl) hs.2.1

theorem addNested {r nested : Items} (hr : r.Distinct) (name : String) (hn : nested.Distinct) :
    (r.addNested name nested).Distinct := by
  refine hr.place name fun old hold => ?_
  cases old with
  | none => exact hn
  | some present => exact (hold present rfl).merge hn

end Distinct

end Items

end SqlAssembly.Request
