import SqlAssembly.Clause.Predicate
import SqlAssembly.Text.Scrub

/-!
# Pages

A `PageRequest` is what a caller says about the part of a list to show: its size, where it starts
and how the list is ordered; the word for the direction is read without regard to case and to blanks
around it. `Paging` adds the table to order by, an ordering given as SQL text, and the defaults.

`Paging.tail` is the end of a query: `ORDER BY` if there is an ordering, then `OFFSET` and `LIMIT`.
The ordering is the given SQL text; else the scrubbed field of the request; else the default
columns, descending, if there is a table.
-/

namespace SqlAssembly

/-- The direction of an ordering. -/
inductive Direction where
  | ascending
  | descending
deriving DecidableEq, Repr

namespace Direction

/-- The SQL word. -/
def sql : Direction → String
  | ascending => "ASC"
  | descending => "DESC"

/-- The direction that a word names exactly. -/
def ofWord? (s : String) : Option Direction :=
  if s = "ASC" then some ascending else if s = "DESC" then some descending else none

/-- The direction that a caller's word names. -/
def parse (s : String) : Except Fault Direction :=
  match ofWord? ((Text.trim s).map Char.toUpper) with
  | some d => .ok d
  | none => .error (.validation (.badDirection s))

/-- Reads a direction from JSON: its word, or the word with null. -/
def ofSource? : Json.Source → Option Direction
  | .string word => word.bind ofWord?
  | .object [(word, .null)] => word.bind ofWord?
  | _ => none

/-- The direction of a JSON text. -/
def read? (s : String) : Option Direction := do
  ofSource? (← Json.Source.parse? s)

end Direction

/-- The placeholder of the number of rows to skip. -/
def offsetName : String := "offset"

/-- The placeholder of the number of rows to show. -/
def perPageName : String := "perPage"

/-- What a caller says about the page to show. -/
structure PageRequest where
  perPage : Option UInt32 := none
  offset : Option UInt32 := none
  order : Option String := none
  orderBy : Option String := none
deriving DecidableEq, Repr

/-- What holds when a caller says nothing. -/
structure PageDefaults where
  perPage : UInt32 := 25
  sortColumns : List String := ["id", "created_at"]
deriving DecidableEq, Repr

/-- All that decides the order of a list and the part of it to show. -/
structure Paging where
  request : Option PageRequest := none
  /-- The table, or its alias, that columns are qualified by. -/
  table : Option String := none
  /-- An ordering as SQL text. -/
  ordering : Option String := none
  defaults : PageDefaults := {}
deriving DecidableEq, Repr

namespace PageRequest

/-- The direction; ascending if none is given. -/
def direction (r : PageRequest) : Except Fault Direction :=
  match r.order with
  | some word => Direction.parse word
  | none => .ok .ascending

/-- The request as a JSON object. -/
def toJson (r : PageRequest) : Json :=
  let number (n : Option UInt32) : Json := match n with
    | some n => .ofInt64 (Int64.ofNat n.toNat)
    | none => .null
  let text (s : Option String) : Json := match s with
    | some s => .string s
    | none => .null
  .object [("perPage", number r.perPage), ("offset", number r.offset), ("order", text r.order),
    ("orderBy", text r.orderBy)]

/-- Reads a request; every field may be absent. -/
def ofSource? (source : Json.Source) : Option PageRequest := do
  let size (s : Json.Source) : Option UInt32 := (s.natBelow? (Nat.pow 2 32)).map Nat.toUInt32
  match ← source.record? ["perPage", "offset", "order", "orderBy"] with
  | [perPage, offset, order, orderBy] =>
    return {
      perPage := ← Json.Source.optional? size perPage
      offset := ← Json.Source.optional? size offset
      order := ← Json.Source.optional? Json.Source.text? order
      orderBy := ← Json.Source.optional? Json.Source.text? orderBy }
  | _ => none

/-- The request of a JSON text. -/
def read? (s : String) : Option PageRequest := do
  ofSource? (← Json.Source.parse? s)

end PageRequest

namespace Paging

/-- The direction that the caller wishes. -/
def direction (p : Paging) : Except Fault Direction :=
  match p.request with
  | some r => r.direction
  | none => .ok .ascending

/-- The field that the caller orders by, scrubbed; none if nothing is left of it. -/
def orderField? (p : Paging) : Option String :=
  ((p.request.bind PageRequest.orderBy).map Text.scrub).filter fun s => !s.isEmpty

/-- The ordering, if there is one. -/
def ordering? (p : Paging) (d : Direction) : Option String :=
  match p.ordering, p.orderField?, p.table with
  | some sql, _, _ => some sql
  | none, some field, some table => some (table ++ "." ++ field ++ " " ++ d.sql)
  | none, some field, none => some (field ++ " " ++ d.sql)
  | none, none, some table =>
    if p.defaults.sortColumns.isEmpty then none
    else
      some (", ".intercalate (p.defaults.sortColumns.map fun c => table ++ "." ++ c ++ " DESC"))
  | none, none, none => none

/-- The number of rows to show. -/
def perPage (p : Paging) : UInt32 :=
  (p.request.bind PageRequest.perPage).getD p.defaults.perPage

/-- The number of rows to skip. -/
def offset (p : Paging) : UInt32 :=
  (p.request.bind PageRequest.offset).getD 0

/-- The bindings of the page. -/
def bindings (p : Paging) : Bindings :=
  (Assoc.empty.insert perPageName (.int (Int64.ofNat p.perPage.toNat))).insert offsetName
    (.int (Int64.ofNat p.offset.toNat))

/-- The end of a query that orders it and cuts the page out of it. A word for the direction has to
be valid even where an ordering is given as SQL text. -/
def tail (p : Paging) : Except Fault NamedQuery := do
  let d ← p.direction
  let order := match p.ordering? d with
    | some sql => " ORDER BY " ++ sql
    | none => ""
  return {
    text := order ++ " OFFSET :" ++ offsetName ++ " LIMIT :" ++ perPageName
    bindings := p.bindings }

end Paging

end SqlAssembly
