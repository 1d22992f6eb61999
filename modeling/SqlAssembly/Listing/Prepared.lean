import SqlAssembly.Listing.Basic
import SqlAssembly.Listing.RowCount
import SqlAssembly.Session.Client
import SqlAssembly.Trace

/-!
# Prepared listings

A `Prepared` listing is the query for a page together with the number of rows of the whole list.

* `NamedQuery.countRows` runs a query once under `EXPLAIN ANALYZE`. It asks the client for the plan
  and for nothing else.
* `Listing.prepare` counts the rows of the whole list and puts the end behind the same query. What
  the description of the listing has wrong is found before the client is asked.
-/

namespace SqlAssembly

/-- The query for a page, and the number of rows of the whole list. -/
structure Prepared where
  query : NamedQuery
  total : Nat

/-- The statement whose plan tells the number of rows of a query. -/
def NamedQuery.countStatement (q : NamedQuery) : Except Fault Statement :=
  q.bindings.statement ("EXPLAIN ANALYZE " ++ q.text)

variable {m : Type → Type} [Monad m]

/-- The number of rows of a query, by the plan that the client gives. -/
def NamedQuery.countRows (client : Client m) (q : NamedQuery) : m (Traced Nat) :=
  match q.countStatement with
  | .error fault => return .ofExcept (.error fault)
  | .ok s => do
    let plan ← client.plan s
    return do
      Traced.report ⟨.debug, "counting rows",
        [("sql", s.text), ("param_count", toString s.data.length)]⟩
      let total ← rowCount (← plan)
      Traced.report ⟨.debug, "row count estimated", [("total", toString total)]⟩
      return total

/-- Counts the rows of the whole list and prepares the query for the page. -/
def Listing.prepare (client : Client m) (l : Listing) : m (Traced Prepared) :=
  match l.filtered with
  | .error fault => return .ofExcept (.error fault)
  | .ok whole =>
    match l.paging.tail with
    | .error fault => return .ofExcept (.error fault)
    | .ok tail => do
      let total ← whole.countRows client
      return do
        let total ← total
        let bindings := whole.bindings.merge tail.bindings
        let text := whole.text ++ tail.text
        Traced.report ⟨.debug, "prepared query",
          [("sql", text), ("binding_count", toString bindings.size),
            ("total_count", toString total)]⟩
        return ⟨⟨text, bindings⟩, total⟩

end SqlAssembly
