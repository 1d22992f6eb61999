import SqlAssembly.Sql.Statement
import SqlAssembly.Wire.Type

/-!
# Clients

A `Client` is whatever runs statements for a query: it answers with rows, or with the lines of a
plan. What else happens on the way is a matter of its monad.

`Client.ofQuery` makes a client of one that only knows rows: the plan is the first column of the
rows.
-/

namespace SqlAssembly

/-- A row of an answer. -/
structure Row where
  columns : List Wire.ParamType
  /-- The texts of the columns; the absent value has none. -/
  cells : List (Option String)

/-- The column of a row at an index, read as text. -/
def Row.text (row : Row) (index : Nat) : Except Fault String :=
  match row.columns[index]? with
  | none => .error (.query (.missingColumn index))
  | some type =>
    match row.cells[index]?.join with
    | some text => if type.takesText then .ok text else .error (.query (.unreadableColumn index))
    | none => .error (.query (.unreadableColumn index))

/-- What runs statements. -/
structure Client (m : Type → Type) where
  query : Statement → m (Except Fault (List Row))
  plan : Statement → m (Except Fault (List String))

namespace Client

variable {m : Type → Type} [Monad m]

/-- The lines of a plan that came as rows. -/
def planLines (rows : List Row) : Except Fault (List String) :=
  rows.mapM fun row => row.text 0

/-- The client that finds plans in the rows of its queries. -/
def ofQuery (query : Statement → m (Except Fault (List Row))) : Client m where
  query := query
  plan s := return (← query s).bind planLines

end Client

/-- Runs a query. A query with a placeholder that has no binding never reaches the client. -/
def NamedQuery.fetch {m : Type → Type} [Monad m] (client : Client m) (q : NamedQuery) :
    m (Except Fault (List Row)) :=
  match q.statement with
  | .ok s => client.query s
  | .error fault => return .error fault

end SqlAssembly
