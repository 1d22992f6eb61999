import SqlAssembly.Session.Client
import SqlAssembly.Wire.Encode

/-!
# Scripted servers

A server that prepares and runs statements by a script, as seen from a client: each statement is
prepared first, which uses up one entry of the script and tells the types of its parameters; then
its data are written in their binary forms, and only when all of them have one is it run. The text
of a statement is sent with a NUL at its end, so a text that holds one is not sent at all.
-/

namespace SqlAssembly

/-- How a server answers one statement. -/
inductive Reply where
  | refusal
  /-- The statement has the given parameters and gives rows with the given columns. -/
  | rows (parameters columns : List Wire.ParamType) (cells : List (List (Option String)))

/-- What a server has seen. -/
inductive Exchange where
  | prepare (text : String)
  | execute (data : List (Option (List UInt8)))
deriving DecidableEq, Repr

/-- A server. -/
structure Server where
  replies : List Reply
  log : List Exchange := []

namespace Server

/-- The binary forms of data for parameters of the given types; indices count from `index`. -/
def encodeData : Nat → List Wire.ParamType → List Datum →
    Except Fault (List (Option (List UInt8)))
  | index, type :: types, datum :: data =>
    match Wire.encode datum type with
    | .ok form => do return form :: (← encodeData (index + 1) types data)
    | .error _ => .error (.query (.unwritableParameter index))
  | _, _, _ => .ok []

/-- The binary forms of all data of a statement. -/
def encodeAll (types : List Wire.ParamType) (data : List Datum) :
    Except Fault (List (Option (List UInt8))) :=
  if types.length = data.length then encodeData 0 types data
  else .error (.query (.parameterCount types.length data.length))

/-- Prepares and runs a statement that was sent. -/
def respond (s : Statement) : StateM Server (Except Fault (List Row)) := do
  let server ← get
  let log := server.log ++ [Exchange.prepare s.text]
  match server.replies with
  | [] =>
    set { server with log := log }
    return .error (.query .refused)
  | .refusal :: rest =>
    set { server with replies := rest, log := log }
    return .error (.query .refused)
  | .rows parameters columns cells :: rest =>
    match encodeAll parameters s.data with
    | .error fault =>
      set { server with replies := rest, log := log }
      return .error fault
    | .ok data =>
      set { server with replies := rest, log := log ++ [Exchange.execute data] }
      return .ok (cells.map fun row => ⟨columns, row⟩)

/-- Sends a statement, to be prepared and run. -/
def query (s : Statement) : StateM Server (Except Fault (List Row)) :=
  if s.text.toList.contains '\x00' then return .error (.query .unsendable) else respond s

/-- The client of a server. -/
def client : Client (StateM Server) :=
  .ofQuery query

end Server

end SqlAssembly
