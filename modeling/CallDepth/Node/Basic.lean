/-
# Syntax trees

A Solidity source unit as far as the analysis looks into it. Constructs that declare something or
take part in a call have a constructor of their own; all others are kept as `Node.other`, so that a
traversal still reaches the calls inside them.

* `Node.children` lists the direct children: a function gives its body first, a call its callee.
* `Node.label` is the short text by which traces and logs name an expression.
-/

namespace CallDepth

/-- A node of the syntax tree of a source unit. -/
inductive Node where
  /-- A contract, interface, abstract contract or library. -/
  | contract (name kind : String) (bases : List String) (members : List Node)
  /-- A function with its body and the remaining parts: parameters, modifiers, returns. Constructors
  and fallback functions have the empty name. -/
  | function (name : String) (arity : Nat) (visibility mutability : String) (body : Option Node)
      (parts : List Node)
  | struct (name : String) (members : List Node)
  | event (name : String) (members : List Node)
  /-- A call, or a call's options before its arguments. -/
  | call (withOptions : Bool) (callee : Option Node) (argumentCount : Option Nat)
      (operands : List Node)
  | identifier (name : String)
  /-- A member of an expression, such as `token.transfer`. -/
  | member (base : Option Node) (name : String)
  | elementaryType (name : String)
  /-- An elementary type in the place of an expression. -/
  | elementaryTypeExpr (typeName : Option Node)
  /-- A type name in the place of an expression. -/
  | typeNameExpr (parts : List Node)
  /-- The keyword `this`. -/
  | thisRef
  /-- Any other construct, under its tag. -/
  | other (tag : String) (parts : List Node)
deriving Inhabited, Repr

structure CallSite where
  /-- The call is only the options of a call, as in `f` with a value attached. -/
  withOptions : Bool
  callee : Option Node
  /-- How many arguments are listed; `none` when the call has no argument list. -/
  argumentCount : Option Nat
  operands : List Node
deriving Inhabited, Repr

namespace Node

def children : Node → List Node
  | contract _ _ _ members => members
  | function _ _ _ _ body parts => body.toList ++ parts
  | struct _ members => members
  | event _ members => members
  | call _ callee _ operands => callee.toList ++ operands
  | identifier _ => []
  | member base _ => base.toList
  | elementaryType _ => []
  | elementaryTypeExpr typeName => typeName.toList
  | typeNameExpr parts => parts
  | thisRef => []
  | other _ parts => parts

def callSite? : Node → Option CallSite
  | call withOptions callee argumentCount operands =>
      some { withOptions, callee, argumentCount, operands }
  | _ => none

def identifier? : Node → Option String
  | identifier name => some name
  | _ => none

/-- The keyword `this`, as a node of its own or as an identifier. -/
def isThis : Node → Bool
  | thisRef => true
  | identifier name => name = "this"
  | _ => false

def libraryKind : String := "library"

/-- The tag of a node in a document. -/
def tag : Node → String
  | contract _ kind _ _ => if kind = libraryKind then "LibraryDefinition" else "ContractDefinition"
  | function .. => "FunctionDefinition"
  | struct .. => "StructDefinition"
  | event .. => "EventDefinition"
  | call withOptions _ _ _ => if withOptions then "FunctionCallOptions" else "FunctionCall"
  | identifier _ => "Identifier"
  | member .. => "MemberAccess"
  | elementaryType _ => "ElementaryTypeName"
  | elementaryTypeExpr _ => "ElementaryTypeNameExpression"
  | typeNameExpr _ => "TypeNameExpression"
  | thisRef => "This"
  | other tag _ => tag

/-- The label of an elementary type in the place of an expression. -/
def elementaryLabel : Option Node → String
  | some (elementaryType name) => if name = "" then "<etype>" else name
  | _ => "<etype>"

mutual

/-- The short text by which traces and logs name an expression. -/
def label : Node → String
  | identifier name => name
  | elementaryType name => name
  | member base name => labelOf base ++ "." ++ name
  | elementaryTypeExpr typeName => elementaryLabel typeName
  | call true callee _ _ => labelOf callee ++ "\x7b...\x7d(...)"
  | call false callee _ _ => labelOf callee ++ "(...)"
  | other tag _ => if tag = "TupleExpression" then "(...)" else tag
  | node => node.tag

def labelOf : Option Node → String
  | none => "?"
  | some node => node.label

end

end Node

namespace CallSite

def label (site : CallSite) : String :=
  Node.labelOf site.callee

end CallSite

end CallDepth
