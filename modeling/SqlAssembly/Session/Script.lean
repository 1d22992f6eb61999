import SqlAssembly.Session.Client

/-!
# Scripted clients

A client that answers from a script and keeps a record of its calls. It has no rows; its plan is
fixed, or is looked for in the rows of a query.
-/

namespace SqlAssembly

/-- What a client can be called for. -/
inductive Method where
  | query
  | plan
deriving DecidableEq, Repr

/-- The name of a method in records. -/
def Method.title : Method → String
  | query => "query"
  | plan => "query_plan"

/-- A call of a client. -/
structure Call where
  method : Method
  statement : Statement

/-- The answers of a scripted client. -/
structure Script where
  /-- The lines of every plan, if they are fixed. -/
  plan : Option (List String) := none
  /-- The fault of every call, if calls fail. -/
  failure : Option Fault := none

namespace Script

/-- Records a call and answers it. -/
def answer {α : Type} (s : Script) (method : Method) (reply : α) (statement : Statement) :
    StateM (List Call) (Except Fault α) := do
  modify (· ++ [⟨method, statement⟩])
  match s.failure with
  | some fault => return .error fault
  | none => return .ok reply

/-- The client of a script. -/
def client (s : Script) : Client (StateM (List Call)) :=
  match s.plan with
  | some lines => { query := s.answer .query [], plan := s.answer .plan lines }
  | none => .ofQuery (s.answer .query [])

end Script

end SqlAssembly
