import SqlAssembly.Datum.Basic
import SqlAssembly.Sql.Statement
import SqlAssembly.Text.Scrub

/-!
# Predicates

A `Predicate` is an SQL condition with the bindings it needs. Its text may be absent, when it only
carries bindings that text elsewhere uses; a text of blanks counts as absent.

`joinPredicates` puts predicates into one clause: each text in parentheses, with `AND` between them,
and the bindings of all, a later one winning over an earlier one of its name.
-/

namespace SqlAssembly

/-- An SQL condition and the bindings it needs. -/
structure Predicate where
  text : Option String := none
  bindings : Bindings := ∅

instance : Inhabited Predicate := ⟨{}⟩

namespace Predicate

/-- The predicate with a text and no bindings. -/
def ofText (text : String) : Predicate := { text }

/-- The predicate that only carries bindings. -/
def ofBindings (bindings : Bindings) : Predicate := { bindings }

/-- The predicate with one more binding. -/
def bind (p : Predicate) (name : String) (datum : Datum) : Predicate :=
  { p with bindings := p.bindings.insert name datum }

/-- The text, unless it is absent or blank. -/
def sql? (p : Predicate) : Option String :=
  p.text.filter fun s => !Text.isBlankText s

end Predicate

/-- The texts of the predicates that have one, in parentheses. -/
def conjuncts (ps : List Predicate) : List String :=
  ps.filterMap fun p => p.sql?.map fun s => "(" ++ s ++ ")"

@[simp] theorem conjuncts_append (ps qs : List Predicate) :
    conjuncts (ps ++ qs) = conjuncts ps ++ conjuncts qs :=
  List.filterMap_append

theorem conjuncts_eq_map (ps : List Predicate) :
    conjuncts ps = (ps.filterMap Predicate.sql?).map fun s => "(" ++ s ++ ")" := by
  rw [conjuncts, List.map_filterMap]

/-- The bindings of all predicates, later ones winning. -/
def mergedBindings (ps : List Predicate) : Bindings :=
  ps.foldl (fun b p => b.merge p.bindings) ∅

/-- The clause for the predicates: empty if none has a text, else introduced by `WHERE`, or by `AND`
if it continues a condition. -/
def joinPredicates (ps : List Predicate) (continues : Bool) : NamedQuery where
  text := match conjuncts ps with
    | [] => ""
    | parts => (if continues then " AND " else " WHERE ") ++ " AND ".intercalate parts
  bindings := mergedBindings ps

/-- A query with its conditions behind it. -/
def NamedQuery.ofParts (head : String) (conditions : List Predicate) : NamedQuery :=
  let clause := joinPredicates conditions false
  { clause with text := head ++ clause.text }

end SqlAssembly
