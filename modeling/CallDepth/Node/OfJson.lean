/-
# Syntax trees from JSON

`Node.ofJson` reads any JSON value as a node. An object becomes the node of its `type` tag; a field
that is missing or of the wrong kind reads as empty. The children of a node are the objects found in
its members, in member order, with lists flattened; members that hold a tag or a source position
(`type`, `loc`, `range`) have none.

`Node.ofRoot` reads a whole document and refuses a root that is no source unit, contract or library.
-/
import CallDepth.Json.Basic
import CallDepth.Node.Basic

namespace CallDepth

/-- What a `type` tag stands for. -/
inductive NodeKind where
  | contract
  | library
  | function
  | struct
  | event
  | call
  | callOptions
  | identifier
  | member
  | elementaryType
  | elementaryTypeExpr
  | typeNameExpr
  | thisRef
  | other
deriving DecidableEq, Repr

def NodeKind.ofTag (tag : String) : NodeKind :=
  if tag = "ContractDefinition" then .contract
  else if tag = "LibraryDefinition" then .library
  else if tag = "FunctionDefinition" then .function
  else if tag = "StructDefinition" then .struct
  else if tag = "EventDefinition" then .event
  else if tag = "FunctionCall" then .call
  else if tag = "FunctionCallOptions" then .callOptions
  else if tag = "Identifier" then .identifier
  else if tag = "MemberAccess" then .member
  else if tag = "ElementaryTypeName" then .elementaryType
  else if tag = "ElementaryTypeNameExpression" then .elementaryTypeExpr
  else if tag = "TypeNameExpression" then .typeNameExpr
  else if tag = "This" then .thisRef
  else .other

namespace Node

/-- A member that is a string; the empty string otherwise. -/
def textField (members : List (String × Json)) (key : String) : String :=
  ((members.lookup key).bind Json.text?).getD ""

/-- A member that is a string with at least one character. -/
def nameField? (members : List (String × Json)) (key : String) : Option String :=
  ((members.lookup key).bind Json.text?).filter (· ≠ "")

def listLength? (members : List (String × Json)) (key : String) : Option Nat :=
  match members.lookup key with
  | some (.list items) => some items.length
  | _ => none

/-- The number of parameters: the length of the list `parameters`, or of that list one object
further down. -/
def parameterCount (members : List (String × Json)) : Nat :=
  match members.lookup "parameters" with
  | some (.list items) => items.length
  | some (.object wrapped) => (listLength? wrapped "parameters").getD 0
  | _ => 0

/-- The name a base specifier gives: the name or path of its `baseName`, else its own. -/
def baseName? : Json → Option String
  | .object spec =>
      let inner := match spec.lookup "baseName" with
        | some (.object base) => (nameField? base "name").or (nameField? base "namePath")
        | _ => none
      inner.or ((nameField? spec "name").or (nameField? spec "namePath"))
  | _ => none

/-- The bases a contract names, each once, in order of first occurrence. -/
def baseNames (members : List (String × Json)) : List String :=
  match members.lookup "baseContracts" with
  | some (.list specs) => (specs.filterMap baseName?).eraseDups
  | _ => []

/-- The members that never hold children. -/
def isPlain (key : String) : Bool :=
  key = "type" || key = "loc" || key = "range"

/-- The nodes of all members that hold children, but for the members in `skip`. -/
def nodesExcept (skip : List String) (found : List (String × List Node)) : List Node :=
  (found.filter fun (key, _) => !isPlain key && !skip.contains key).flatMap (·.2)

/-- The node of one member: an object is its node, and a list is a node without a tag. -/
def nodeField? (members : List (String × Json)) (found : List (String × List Node))
    (key : String) : Option Node :=
  match members.lookup key with
  | some (.object _) => ((found.lookup key).getD []).head?
  | some (.list _) => some (.other "" ((found.lookup key).getD []))
  | _ => none

/-- The node of an object, given the nodes found in each of its members. -/
def assemble (members : List (String × Json)) (found : List (String × List Node)) : Node :=
  let tag := textField members "type"
  let name := textField members "name"
  let field := nodeField? members found
  match NodeKind.ofTag tag with
  | .contract =>
      .contract name (textField members "kind") (baseNames members) (nodesExcept [] found)
  | .library => .contract name libraryKind (baseNames members) (nodesExcept [] found)
  | .function =>
      .function name (parameterCount members) (textField members "visibility")
        (textField members "stateMutability") (field "body") (nodesExcept ["body"] found)
  | .struct => .struct name (nodesExcept [] found)
  | .event => .event name (nodesExcept [] found)
  | .call =>
      .call false (field "expression") (listLength? members "arguments")
        (nodesExcept ["expression"] found)
  | .callOptions =>
      .call true (field "expression") (listLength? members "arguments")
        (nodesExcept ["expression"] found)
  | .identifier => .identifier name
  | .member => .member (field "expression") (textField members "memberName")
  | .elementaryType => .elementaryType name
  | .elementaryTypeExpr => .elementaryTypeExpr (field "typeName")
  | .typeNameExpr => .typeNameExpr (nodesExcept [] found)
  | .thisRef => .thisRef
  | .other => .other tag (nodesExcept [] found)

mutual

/-- The nodes a value holds: one for an object, those of all items for a list. -/
def nodesOf : Json → List Node
  | .object members => [assemble members (nodesOfMembers members)]
  | .list items => nodesOfItems items
  | _ => []

def nodesOfItems : List Json → List Node
  | [] => []
  | item :: rest => nodesOf item ++ nodesOfItems rest

def nodesOfMembers : List (String × Json) → List (String × List Node)
  | [] => []
  | (key, value) :: rest => (key, nodesOf value) :: nodesOfMembers rest

end

/-- The node of a JSON value. A list is a node without a tag, and so is a scalar. -/
def ofJson : Json → Node
  | .object members => assemble members (nodesOfMembers members)
  | .list items => .other "" (nodesOfItems items)
  | _ => .other "" []

/-- Why a document is no source unit. -/
inductive RootError where
  | notObject
  | missingTag
  | unexpectedTag (tag : String)
deriving DecidableEq, Repr

def RootError.message : RootError → String
  | .notObject => "AST root is not a JSON object"
  | .missingTag => "AST root has no `type` tag"
  | .unexpectedTag tag => "unexpected AST root node `" ++ tag ++ "`"

def rootTags : List String :=
  ["SourceUnit", "ContractDefinition", "LibraryDefinition"]

/-- The syntax tree of a whole document. -/
def ofRoot : Json → Except RootError Node
  | .object members =>
      match (members.lookup "type").bind Json.text? with
      | none => .error .missingTag
      | some tag =>
          if rootTags.contains tag then .ok (ofJson (.object members))
          else .error (.unexpectedTag tag)
  | _ => .error .notObject

end Node

end CallDepth
