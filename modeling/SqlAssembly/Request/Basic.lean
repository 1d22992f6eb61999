import SqlAssembly.Assoc.Basic
import SqlAssembly.Request.Items

/-!
# Requests

A `Request` is the fields that a caller wants, in the order in which they were first wanted. A field
may have a request of its own under it, which wants fields of the record the field leads to; that a
field has such a request at all is remembered even if it is empty. No field is wanted twice.

* `Request.add` wants a field, and `Request.addNested` one with a request under it.
* `Request.merge` wants everything that another request wants.
* `Request.contains` and `Request.nested?` look a field up.
* `Request.flatten` and `Request.withRelated` lead to and from two flat lists.
* `Request.agrees` compares without regard to order.
-/

namespace SqlAssembly

/-- The fields that a caller wants. -/
structure Request where
  items : Request.Items
  /-- No field is named twice, at any level. -/
  distinct : items.Distinct
deriving DecidableEq, Repr

namespace Request

/-- The request for nothing. -/
def empty : Request := ⟨.empty, trivial⟩

instance : EmptyCollection Request := ⟨empty⟩

instance : Inhabited Request := ⟨empty⟩

/-- Two requests for the same fields are the same request. -/
theorem eq_of_items {r s : Request} (h : r.items = s.items) : r = s := by
  cases r
  cases s
  cases h
  rfl

/-- The wanted fields, in order. -/
def names (r : Request) : List String :=
  r.items.names

/-- The number of fields, without those further down. -/
def size (r : Request) : Nat :=
  r.names.length

/-- Whether nothing is wanted. -/
def isEmpty (r : Request) : Bool :=
  r.names.isEmpty

/-- Whether a field is wanted. -/
def contains (r : Request) (name : String) : Bool :=
  (r.items.get? name).isSome

/-- The request under a field, if there is one. -/
def nested? (r : Request) (name : String) : Option Request :=
  (r.items.nested? name).pmap Request.mk fun _ h => r.distinct.of_nested? h

@[simp] theorem map_items_nested? (r : Request) (name : String) :
    (r.nested? name).map items = r.items.nested? name := by
  rw [nested?, Option.map_pmap, Option.pmap_eq_map, Option.map_id']

/-- Wants a field. One that is wanted already stays as it is. -/
def add (r : Request) (name : String) : Request :=
  ⟨r.items.add name, r.distinct.add name⟩

/-- Wants a field with the given request under it, besides what is wanted there already. -/
def addNested (r : Request) (name : String) (nested : Request) : Request :=
  ⟨r.items.addNested name nested.items, r.distinct.addNested name nested.distinct⟩

/-- Wants everything that `s` wants, in its order. -/
def merge (r s : Request) : Request :=
  ⟨r.items.merge s.items, r.distinct.merge s.distinct⟩

/-- The request for the given fields, with nothing under them. -/
def ofNames (names : List String) : Request :=
  names.foldl add empty

/-- The request for the given fields, with each list of `related` under the field it belongs to. -/
def withRelated (names : List String) (related : Assoc (List String)) : Request :=
  names.foldl (fun r name => match related.get? name with
    | some nested => r.addNested name (ofNames nested)
    | none => r.add name) empty

/-- The wanted fields, and the fields wanted directly under each. -/
def flatten (r : Request) : List String × Assoc (List String) :=
  (r.names, Assoc.ofList r.items.relatedLists)

/-- Whether two requests want the same at every level, whatever the order. -/
def agrees (r s : Request) : Bool :=
  r.items.agrees s.items

end Request

end SqlAssembly
