import SqlAssembly.GraphQL.Document
import SqlAssembly.GraphQL.Token

/-!
# Reading documents

The grammar of GraphQL documents by recursive descent with one token of lookahead. Every function
reads one part of a document from the front of a list of tokens. It gives the tokens left, which are
fewer, or the part of the document in which the grammar is broken first.
-/

namespace SqlAssembly.GraphQL

/-- The tokens left after something has been read from the front of `l`. -/
abbrev Left (l : List Token) := { r : List Token // r.length < l.length }

/-- The tokens left after something that may be absent has been read from the front of `l`. -/
abbrev Rest (l : List Token) := { r : List Token // r.length ≤ l.length }

/-- The tokens after the first one. -/
def Left.tail {t : Token} {l : List Token} : Left (t :: l) :=
  ⟨l, Nat.lt_succ_self _⟩

/-- All tokens. -/
def Rest.all {l : List Token} : Rest l :=
  ⟨l, Nat.le_refl _⟩

namespace Reader

/-- Reads one given token. -/
def expect (t : Token) (part : Part) : (l : List Token) → Except Part (Left l)
  | [] => .error part
  | u :: _ => if u = t then .ok .tail else .error part

/-- What follows a mark, if the tokens start with it. -/
def afterMark? (c : Char) : (l : List Token) → Option (Left l)
  | .mark d :: _ => if d = c then some .tail else none
  | _ => none

/-- Reads a name. -/
def name (part : Part) : (l : List Token) → Except Part (String × Left l)
  | .name s :: _ => .ok (s, .tail)
  | _ => .error part

mutual

/-- Reads a value. A constant one refers to no variable. -/
def value (constant : Bool) : (l : List Token) → Except Part (Left l)
  | .name _ :: _ => .ok .tail
  | .number :: _ => .ok .tail
  | .string :: _ => .ok .tail
  | .var _ :: _ => if constant then .error .variableDefinition else .ok .tail
  | .mark '[' :: l => do
    let ⟨r, h⟩ ← items constant l
    return ⟨r, Nat.lt_succ_of_lt h⟩
  | .mark '\x7b' :: l => do
    let ⟨r, h⟩ ← members constant l
    return ⟨r, Nat.lt_succ_of_lt h⟩
  | _ => .error .value
termination_by l => (l.length, 0)

/-- Reads values up to the end of their list. -/
def items (constant : Bool) : (l : List Token) → Except Part (Left l)
  | .mark ']' :: _ => .ok .tail
  | l => do
    let ⟨r, h⟩ ← value constant l
    let ⟨s, k⟩ ← items constant r
    return ⟨s, Nat.lt_trans k h⟩
termination_by l => (l.length, 1)

/-- Reads fields up to the end of their object. -/
def members (constant : Bool) : (l : List Token) → Except Part (Left l)
  | .mark '\x7d' :: _ => .ok .tail
  | l => do
    let ⟨_, r, h⟩ ← name .objectField l
    let ⟨s, k⟩ ← expect (.mark ':') .objectField r
    let ⟨t, i⟩ ← value constant s
    let ⟨u, j⟩ ← members constant t
    return ⟨u, by omega⟩
termination_by l => (l.length, 1)

end

/-- Reads arguments up to the end of their list. -/
def argumentsEnd (l : List Token) : Except Part (Left l) :=
  match l with
  | .mark ')' :: _ => .ok .tail
  | l => do
    let ⟨_, r, h⟩ ← name .argument l
    let ⟨s, k⟩ ← expect (.mark ':') .argument r
    let ⟨t, i⟩ ← value false s
    let ⟨u, j⟩ ← argumentsEnd t
    return ⟨u, by omega⟩
termination_by l.length

/-- Reads arguments, if there are any. -/
def arguments : (l : List Token) → Except Part (Rest l)
  | .mark '(' :: l => do
    let ⟨r, h⟩ ← argumentsEnd l
    return ⟨r, by simp only [List.length_cons]; omega⟩
  | _ => .ok .all

/-- Reads directives. -/
def directives (l : List Token) : Except Part (Rest l) :=
  match l with
  | .directive _ :: l => do
    let ⟨r, h⟩ ← arguments l
    let ⟨s, k⟩ ← directives r
    return ⟨s, by simp only [List.length_cons]; omega⟩
  | _ => .ok .all
termination_by l.length

/-- Reads the mark of a type that excludes null, if it is there. -/
def required : (l : List Token) → Rest l
  | .mark '!' :: l => ⟨l, Nat.le_succ _⟩
  | _ => .all

/-- Reads a type. -/
def type (l : List Token) : Except Part (Left l) :=
  match l with
  | .mark '[' :: l => do
    let ⟨r, h⟩ ← type l
    let ⟨s, k⟩ ← expect (.mark ']') .listType r
    let ⟨t, i⟩ := required s
    return ⟨t, by simp only [List.length_cons]; omega⟩
  | .name _ :: l =>
    let ⟨r, h⟩ := required l
    .ok ⟨r, Nat.lt_succ_of_le h⟩
  | _ => .error .type
termination_by l.length

/-- Reads the default value of a variable, if there is one. -/
def defaultValue : (l : List Token) → Except Part (Rest l)
  | .mark '=' :: l => do
    let ⟨r, h⟩ ← value true l
    return ⟨r, by simp only [List.length_cons]; omega⟩
  | _ => .ok .all

/-- Reads the definition of a variable. -/
def variableDefinition : (l : List Token) → Except Part (Left l)
  | .var _ :: l => do
    let ⟨r, h⟩ ← expect (.mark ':') .variableDefinition l
    let ⟨s, k⟩ ← type r
    let ⟨t, i⟩ ← defaultValue s
    let ⟨u, j⟩ ← directives t
    return ⟨u, by simp only [List.length_cons]; omega⟩
  | _ => .error .var

/-- Reads at least one definition of a variable, up to the end of their list. -/
def variableDefinitionsEnd (l : List Token) : Except Part (Left l) := do
  let ⟨r, h⟩ ← variableDefinition l
  match afterMark? ')' r with
  | some ⟨s, k⟩ => return ⟨s, Nat.lt_trans k h⟩
  | none =>
    let ⟨s, k⟩ ← variableDefinitionsEnd r
    return ⟨s, Nat.lt_trans k h⟩
termination_by l.length

/-- Reads the definitions of variables, if there are any. -/
def variableDefinitions : (l : List Token) → Except Part (Rest l)
  | .mark '(' :: l => do
    let ⟨r, h⟩ ← variableDefinitionsEnd l
    return ⟨r, by simp only [List.length_cons]; omega⟩
  | _ => .ok .all

/-- Reads the type that a fragment is for, if it is told. -/
def typeCondition : (l : List Token) → Except Part (Rest l)
  | .name "on" :: l => do
    let ⟨_, r, h⟩ ← name .typeName l
    return ⟨r, by simp only [List.length_cons]; omega⟩
  | _ => .ok .all

/-- Reads the name of a field whose alias or name is `first`. -/
def fieldName (first : String) : (l : List Token) → Except Part (String × Rest l)
  | .mark ':' :: l => do
    let ⟨s, r, h⟩ ← name .field l
    return (s, ⟨r, by simp only [List.length_cons]; omega⟩)
  | _ => .ok (first, .all)

/-- Whether a fragment that is written in place goes on with these tokens. -/
def startsInline : List Token → Bool
  | .directive _ :: _ => true
  | .mark c :: _ => c == '\x7b'
  | .name s :: _ => s == "on"
  | _ => false

mutual

/-- Reads one selection and those behind it, up to the closing brace. -/
def selections : (l : List Token) → Except Part (SelectionSet × Left l)
  | .name first :: l => do
    let ⟨field, r, h⟩ ← fieldName first l
    let ⟨s, k⟩ ← arguments r
    let ⟨t, i⟩ ← directives s
    let ⟨children, u, j⟩ ← children t
    let ⟨rest, v, m⟩ ← more u
    return (.field field children rest, ⟨v, by simp only [List.length_cons]; omega⟩)
  | .ellipsis :: l =>
    if startsInline l then do
      let ⟨body, r, h⟩ ← inlineFragment l
      let ⟨rest, t, k⟩ ← more r
      return (.inline body rest, ⟨t, by simp only [List.length_cons]; omega⟩)
    else do
      let ⟨title, r, h⟩ ← name .selection l
      let ⟨s, k⟩ ← directives r
      let ⟨rest, t, i⟩ ← more s
      return (.spread title rest, ⟨t, by simp only [List.length_cons]; omega⟩)
  | _ => .error .selection
termination_by l => (l.length, 0)

/-- Reads what remains of a selection set behind a selection. -/
def more : (l : List Token) → Except Part (SelectionSet × Left l)
  | .mark '\x7d' :: _ => .ok (.empty, .tail)
  | l => selections l
termination_by l => (l.length, 1)

/-- Reads the selection set under a field, if there is one. -/
def children : (l : List Token) → Except Part (SelectionSet × Rest l)
  | .mark '\x7b' :: l => do
    let ⟨set, r, h⟩ ← selections l
    return (set, ⟨r, by simp only [List.length_cons]; omega⟩)
  | _ => .ok (.empty, .all)
termination_by l => (l.length, 1)

/-- Reads what follows the points of a fragment that is written in place. -/
def inlineFragment (l : List Token) : Except Part (SelectionSet × Left l) := do
  let ⟨r, h⟩ ← typeCondition l
  let ⟨s, k⟩ ← directives r
  match afterMark? '\x7b' s with
  | some ⟨t, i⟩ =>
    have : t.length < l.length := Nat.lt_of_lt_of_le (Nat.lt_of_lt_of_le i k) h
    let ⟨body, u, j⟩ ← selections t
    return (body, ⟨u, Nat.lt_trans j this⟩)
  | none => .error .inlineFragment
termination_by (l.length, 1)

end

/-- Reads the selection set that the part has to have. -/
def selectionSet (part : Part) (l : List Token) : Except Part (SelectionSet × Left l) := do
  let ⟨r, h⟩ ← expect (.mark '\x7b') part l
  let ⟨set, s, k⟩ ← selections r
  return (set, ⟨s, Nat.lt_trans k h⟩)

/-- Reads the name of an operation, if it has one. -/
def operationName : (l : List Token) → Rest l
  | .name _ :: l => ⟨l, Nat.le_succ _⟩
  | _ => .all

/-- Reads what follows the word that starts an operation. -/
def operation (l : List Token) : Except Part (Definition × Left l) := do
  let ⟨r, h⟩ := operationName l
  let ⟨s, k⟩ ← variableDefinitions r
  let ⟨t, i⟩ ← directives s
  let ⟨set, u, j⟩ ← selectionSet .operation t
  return (.operation set, ⟨u, by omega⟩)

/-- Reads what follows the word that starts a fragment. -/
def fragment (l : List Token) : Except Part (Definition × Left l) := do
  let ⟨title, r, h⟩ ← name .typeName l
  let ⟨s, k⟩ ← expect (.name "on") .fragment r
  let ⟨_, t, i⟩ ← name .typeName s
  let ⟨u, j⟩ ← directives t
  let ⟨set, v, m⟩ ← selectionSet .fragment u
  return (.fragment title set, ⟨v, by omega⟩)

/-- The words that start an operation. -/
def operationWords : List String := ["query", "mutation", "subscription"]

/-- Reads a definition. -/
def definition : (l : List Token) → Except Part (Definition × Left l)
  | .mark '\x7b' :: l => do
    let ⟨set, r, h⟩ ← selections l
    return (.operation set, ⟨r, Nat.lt_succ_of_lt h⟩)
  | .name word :: l =>
    if operationWords.contains word then do
      let ⟨d, r, h⟩ ← operation l
      return (d, ⟨r, Nat.lt_succ_of_lt h⟩)
    else if word = "fragment" then do
      let ⟨d, r, h⟩ ← fragment l
      return (d, ⟨r, Nat.lt_succ_of_lt h⟩)
    else .error .document
  | _ => .error .document

/-- Reads definitions to the end. -/
def definitions (l : List Token) : Except Part (List Definition) :=
  match l with
  | [] => .ok []
  | t :: l => do
    let ⟨d, r, h⟩ ← definition (t :: l)
    have : r.length ≤ l.length := Nat.le_of_lt_succ h
    return d :: (← definitions r)
termination_by l.length
decreasing_by exact Nat.lt_succ_of_le this

end Reader

/-- The document of a text, or the part in which the text breaks the grammar. -/
def Document.ofText (text : String) : Except Part Document := do
  return ⟨← Reader.definitions (tokens text.toList)⟩

end SqlAssembly.GraphQL
