/-!
# Ordered association

`Assoc α` is a finite map from names to values that remembers the order in which the names were
first given.

* `Assoc.insert` replaces the value of a known name in place and appends an unknown one.
* `Assoc.merge` inserts one map into another, so the second map wins and the first keeps its order.
* `Assoc.agrees` compares two maps without regard to order.

Names are distinct by construction: `Assoc.keys_nodup` is a field of the type.
-/

namespace SqlAssembly

/-- A finite map from names to values, in the order in which the names were first given. -/
structure Assoc (α : Type) where
  entries : List (String × α)
  keys_nodup : (entries.map Prod.fst).Nodup

namespace Assoc

variable {α : Type}

/-- The entries after `name` has been given `value`: in its old place if it has one, else last. -/
def put (name : String) (value : α) : List (String × α) → List (String × α)
  | [] => [(name, value)]
  | entry :: rest =>
    if entry.1 = name then (name, value) :: rest else entry :: put name value rest

/-- Putting a known name keeps the list of names; an unknown one is appended to it. -/
theorem map_fst_put (name : String) (value : α) (l : List (String × α)) :
    (put name value l).map Prod.fst =
      if name ∈ l.map Prod.fst then l.map Prod.fst else l.map Prod.fst ++ [name] := by
  induction l with
  | nil => simp [put]
  | cons entry rest ih =>
    by_cases h : entry.1 = name
    · simp [put, h]
    · have h' : ¬ name = entry.1 := fun e => h e.symm
      by_cases hm : name ∈ rest.map Prod.fst
      · simp only [put, h, if_false, List.map_cons, ih, hm, if_true, List.mem_cons, or_true]
      · simp only [put, h, if_false, List.map_cons, ih, hm, List.mem_cons, h', or_self,
          List.cons_append]

theorem nodup_put {name : String} {value : α} {l : List (String × α)}
    (h : (l.map Prod.fst).Nodup) : ((put name value l).map Prod.fst).Nodup := by
  rw [map_fst_put]
  split
  · exact h
  · next hm =>
    rw [List.nodup_append]
    refine ⟨h, by simp, ?_⟩
    intro a ha b hb
    have hb' : b = name := by simpa using hb
    exact fun e => hm (hb' ▸ e ▸ ha)

/-- The map without names. -/
def empty : Assoc α := ⟨[], by simp⟩

instance : EmptyCollection (Assoc α) := ⟨empty⟩

instance : Inhabited (Assoc α) := ⟨empty⟩

/-- Gives `name` the value `value`. -/
def insert (m : Assoc α) (name : String) (value : α) : Assoc α :=
  ⟨put name value m.entries, nodup_put m.keys_nodup⟩

/-- The value of `name`, if it has one. -/
def get? (m : Assoc α) (name : String) : Option α :=
  m.entries.lookup name

/-- Whether `name` has a value. -/
def contains (m : Assoc α) (name : String) : Bool :=
  (m.get? name).isSome

/-- The names, oldest first. -/
def keys (m : Assoc α) : List String :=
  m.entries.map Prod.fst

/-- The number of names. -/
def size (m : Assoc α) : Nat :=
  m.entries.length

/-- Whether there is no name. -/
def isEmpty (m : Assoc α) : Bool :=
  m.entries.isEmpty

/-- Inserts the entries of `n` into `m`, in their order. -/
def merge (m n : Assoc α) : Assoc α :=
  n.entries.foldl (fun m entry => m.insert entry.1 entry.2) m

/-- The map with the given entries, inserted in order. -/
def ofList (l : List (String × α)) : Assoc α :=
  l.foldl (fun m entry => m.insert entry.1 entry.2) ∅

/-- Whether two maps give related values to the same names, whatever their order. -/
def agrees (same : α → α → Bool) (m n : Assoc α) : Bool :=
  m.size == n.size && m.entries.all fun entry =>
    match n.get? entry.1 with
    | some value => same entry.2 value
    | none => false

/-- Changes every value, keeping names and order. -/
def map {β : Type} (f : α → β) (m : Assoc α) : Assoc β :=
  ⟨m.entries.map fun entry => (entry.1, f entry.2), by
    have h : (m.entries.map fun entry => (entry.1, f entry.2)).map Prod.fst =
        m.entries.map Prod.fst := by simp
    exact h ▸ m.keys_nodup⟩

end Assoc

end SqlAssembly
