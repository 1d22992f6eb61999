import SqlAssembly.Clause.Containing
import SqlAssembly.Clause.Rule
import SqlAssembly.Listing.Page

/-!
# Listings

A `Listing` is a query for a list of which one page is shown, in the parts a program collects: the
text it starts with, conditions, filters, a search, a grouping, and what decides the page.

* `Listing.filtered` is the query for the whole list.
* `Listing.build` is the query for the page: the same text with the end that orders and cuts it.

A filter without a rule is noticed before an invalid direction.
-/

namespace SqlAssembly

/-- A query for a list of which one page is shown. -/
structure Listing where
  /-- The text up to the conditions. -/
  text : String
  conditions : List Predicate := []
  /-- Whether the text has conditions of its own, which the others continue. -/
  continues : Bool := false
  /-- The text behind the conditions. -/
  grouping : Option String := none
  filters : Option (Bindings × Rules) := none
  /-- The columns to search in, and the text to search for. -/
  search : Option (List String × String) := none
  paging : Paging := {}

namespace Listing

/-- The listing with one more condition. -/
def addCondition (l : Listing) (p : Predicate) : Listing :=
  { l with conditions := l.conditions ++ [p] }

/-- The conditions that the filters stand for. -/
def filterPredicates (l : Listing) : Except Fault (List Predicate) :=
  match l.filters with
  | some (filters, rules) => compileFilters filters rules
  | none => .ok []

/-- The condition that the search stands for. -/
def searchPredicate? (l : Listing) : Option Predicate :=
  l.search.bind fun (columns, text) => Predicate.containing? columns text

/-- All conditions: the given ones, then those of the filters, then that of the search. -/
def predicates (l : Listing) : Except Fault (List Predicate) := do
  return l.conditions ++ (← l.filterPredicates) ++ l.searchPredicate?.toList

/-- The text of the grouping with a blank in front. -/
def groupingText (l : Listing) : String :=
  match l.grouping with
  | some text => " " ++ text
  | none => ""

/-- The query for the whole list. -/
def filtered (l : Listing) : Except Fault NamedQuery := do
  let clause := joinPredicates (← l.predicates) l.continues
  return { clause with text := l.text ++ clause.text ++ l.groupingText }

/-- The query for the page. -/
def build (l : Listing) : Except Fault NamedQuery := do
  let whole ← l.filtered
  let tail ← l.paging.tail
  return ⟨whole.text ++ tail.text, whole.bindings.merge tail.bindings⟩

end Listing

end SqlAssembly
