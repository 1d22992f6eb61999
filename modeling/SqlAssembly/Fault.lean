import SqlAssembly.Datum.Inspect

/-!
# Faults

What can go wrong while a query is composed, counted or run. A `Fault` belongs to one of five
classes, and within a class it is known by its cause; `Fault.message` gives the words.

* `Misconfiguration`: the description of the query is incomplete or contradicts itself.
* `Invalidity`: what a caller asked for cannot be used.
* `BadAnswer`: the database answered with something else than what was asked for.
* `QueryFailure` and `PoolFailure`: the database or the pool of connections refused.

A syntax error in a document is named by the part of the document where it is, a `GraphQL.Part`.
-/

namespace SqlAssembly

namespace GraphQL

/-- A part of a document. -/
inductive Part where
  | document
  | operation
  | var
  | variableDefinition
  | type
  | listType
  | typeName
  | fragment
  | selection
  | field
  | inlineFragment
  | argument
  | value
  | objectField
deriving DecidableEq, Repr

/-- The name of a part in messages. -/
def Part.title : Part → String
  | document => "Document"
  | operation => "Operation Definition"
  | var => "Variable"
  | variableDefinition => "Variable Definition"
  | type => "Type"
  | listType => "List Type"
  | typeName => "Type Name"
  | fragment => "Fragment Definition"
  | selection => "Selection"
  | field => "Field"
  | inlineFragment => "Inline Fragment"
  | argument => "Argument"
  | value => "Value"
  | objectField => "Object Field"

end GraphQL

/-- Why the description of a query cannot be used. -/
inductive Misconfiguration where
  | unboundPlaceholder (name : String)
  | missingRule (filter : String)
  /-- Nothing says which fields of the table are wanted. -/
  | noSource (table : String)
  | emptyRequest (table : String)
  /-- None of the wanted fields of the table selects anything. -/
  | nothingSelectable (table : String)
  /-- Two parts of one query bind a placeholder to different data. -/
  | conflict (name : String) (first second : Datum)
  /-- A selection has no field that holds the wanted fields. -/
  | noEnvelope (selection : String)
  | badDocument (part : GraphQL.Part)
  | noOperation
  | severalOperations
  | undefinedFragment (name : String)
  | cyclicFragment (name : String)
  | other (text : String)

/-- Why an input of the caller cannot be used. -/
inductive Invalidity where
  | badDirection (text : String)
  | other (text : String)

/-- Why an answer of the database cannot be used. -/
inductive BadAnswer where
  | emptyPlan
  | noRowCount (line : String)
  /-- The number of rows is written in digits of another script. -/
  | foreignDigits (digits : String)
  | countTooLarge (digits : String)
  | other (text : String)

/-- Why a query could not be run. -/
inductive QueryFailure where
  | timeout
  /-- The text of the statement cannot be sent, since it holds a NUL. -/
  | unsendable
  | refused
  | parameterCount (expected given : Nat)
  | unwritableParameter (index : Nat)
  | missingColumn (index : Nat)
  | unreadableColumn (index : Nat)

/-- Why no connection could be had. -/
inductive PoolFailure where
  | closed
  | noRuntime
  | waitTimeout
  | other (text : String)

/-- What went wrong. -/
inductive Fault where
  | configuration (cause : Misconfiguration)
  | validation (cause : Invalidity)
  | execution (cause : BadAnswer)
  | query (cause : QueryFailure)
  | pool (cause : PoolFailure)

/-- The words for a misconfiguration. -/
def Misconfiguration.message : Misconfiguration → String
  | unboundPlaceholder name => "no binding supplied for placeholder :" ++ name
  | missingRule filter => "no filter rule configured for `" ++ filter ++ "`"
  | noSource table => "no fields or selection given for `" ++ table ++ "`"
  | emptyRequest table => "empty field set requested from `" ++ table ++ "`"
  | nothingSelectable table => "no requested field is selectable from `" ++ table ++ "`"
  | conflict name first second =>
    "binding `:" ++ name ++ "` is bound to both " ++ first.inspect ++ " and " ++ second.inspect
  | noEnvelope selection => "selection `" ++ selection ++ "` has no `data` field"
  | badDocument part => "invalid GraphQL document: Syntax Error: Invalid " ++ part.title
  | noOperation =>
    "no GraphQL operation: GraphQL Error: Document does not contain any operations"
  | severalOperations =>
    "no GraphQL operation: GraphQL Error: Document contains more than one operation, " ++
      "missing operation name"
  | undefinedFragment name => "fragment `" ++ name ++ "` is not defined"
  | cyclicFragment name => "fragment `" ++ name ++ "` spreads itself"
  | other text => text

/-- The words for an invalid input. -/
def Invalidity.message : Invalidity → String
  | badDirection text => "order must be ASC or DESC, got `" ++ text ++ "`"
  | other text => text

/-- The words for a bad answer. -/
def BadAnswer.message : BadAnswer → String
  | emptyPlan => "EXPLAIN ANALYZE returned an empty plan"
  | noRowCount line => "no actual row count in plan line `" ++ line ++ "`"
  | foreignDigits digits => "invalid row count `" ++ digits ++ "`: invalid digit found in string"
  | countTooLarge digits =>
    "invalid row count `" ++ digits ++ "`: number too large to fit in target type"
  | other text => text

/-- The words for a failed query. -/
def QueryFailure.message : QueryFailure → String
  | timeout => "timeout waiting for server"
  | unsendable => "error encoding message to server"
  | refused => "db error"
  | parameterCount expected given =>
    "expected " ++ toString expected ++ " parameters but got " ++ toString given
  | unwritableParameter index => "error serializing parameter " ++ toString index
  | missingColumn index => "invalid column `" ++ toString index ++ "`"
  | unreadableColumn index => "error deserializing column " ++ toString index

/-- The words for a missing connection. -/
def PoolFailure.message : PoolFailure → String
  | closed => "Pool has been closed"
  | noRuntime => "No runtime specified"
  | waitTimeout => "Timeout occurred while waiting for a slot to become available"
  | other text => text

namespace Fault

/-- The words for a fault: its class, then its cause. -/
def message : Fault → String
  | configuration cause => "Configuration error: " ++ cause.message
  | validation cause => "Validation error: " ++ cause.message
  | execution cause => "Execution error: " ++ cause.message
  | query cause => "Query error: " ++ cause.message
  | pool cause => "Pool error: " ++ cause.message

/-- Whether the description of the query is at fault. -/
def isConfiguration : Fault → Bool
  | configuration _ => true
  | _ => false

/-- Whether an input of the caller is at fault. -/
def isValidation : Fault → Bool
  | validation _ => true
  | _ => false

/-- Whether an answer of the database is at fault. -/
def isExecution : Fault → Bool
  | execution _ => true
  | _ => false

end Fault

end SqlAssembly
