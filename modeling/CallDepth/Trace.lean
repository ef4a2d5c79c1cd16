/-
# Traces

A trace explains a depth. Each call on the deepest path is a `Link`: its weight, the depths of its
three parts and the part that won; the trace of the winner follows. A trace ends where nothing below
costs anything, or at a call back into a function that is still being measured.

* `Parts.dominant`: of equal parts the callee wins, then the callee expression, then the arguments.
* `Trace.render` writes one link a line, each further one indented by two more spaces.
-/
import CallDepth.Json.Basic

namespace CallDepth

/-- The part of a call whose depth counts. -/
inductive Branch where
  | args
  | expr
  | callee
deriving DecidableEq, Repr, Inhabited

def Branch.name : Branch → String
  | args => "args"
  | expr => "expr"
  | callee => "callee"

/-- The depths of the three parts of a call: its arguments, its callee expression and the function
it leads to. -/
structure Parts where
  arg : Nat
  expr : Nat
  callee : Nat
deriving DecidableEq, Repr, Inhabited

namespace Parts

def max (parts : Parts) : Nat :=
  Nat.max (Nat.max parts.arg parts.expr) parts.callee

/-- The branch of the deepest part; ties go to the callee, then to the callee expression. -/
def dominant (parts : Parts) : Branch :=
  if parts.arg ≤ parts.callee && parts.expr ≤ parts.callee then .callee
  else if parts.arg ≤ parts.expr then .expr
  else .args

def get (parts : Parts) : Branch → Nat
  | .args => parts.arg
  | .expr => parts.expr
  | .callee => parts.callee

end Parts

/-- One call of a trace. -/
structure Link where
  /-- The label of the callee. -/
  label : String
  weight : Nat
  parts : Parts
  via : Branch
  /-- A mark for a call that leads to a function of the unit. -/
  callee : Option String
deriving DecidableEq, Repr, Inhabited

/-- The mark of a call that leads to a function of the unit. -/
def userDefined : String := "(user-defined)"

/-- The deepest path, outermost call first. -/
inductive Trace where
  /-- No call. -/
  | empty
  /-- A call, and the trace of its dominant part. -/
  | call (link : Link) (below : Trace)
  /-- A call back into a function that is being measured. -/
  | recursion (function owner : String)
deriving DecidableEq, Repr, Inhabited

namespace Trace

def isEmpty : Trace → Bool
  | empty => true
  | _ => false

def length : Trace → Nat
  | empty => 0
  | call _ below => below.length + 1
  | recursion .. => 1

def rest : Trace → Trace
  | call _ below => below
  | _ => empty

end Trace

def Link.line (link : Link) : String :=
  "• " ++ link.label ++ "  [w=" ++ toString link.weight ++ "]  parts(arg=" ++
    toString link.parts.arg ++ ", expr=" ++ toString link.parts.expr ++ ", callee=" ++
    toString link.parts.callee ++ ") via:" ++ link.via.name ++
    (match link.callee with
      | none => ""
      | some mark => " -> " ++ mark)

namespace Trace

/-- Two spaces a level. -/
def indentation (level : Nat) : String :=
  String.ofList (List.replicate (2 * level) ' ')

/-- The lines of a trace from a level on. -/
def lines (level : Nat) : Trace → List String
  | empty => []
  | call link below => (indentation level ++ link.line) :: below.lines (level + 1)
  | recursion function _ => [indentation level ++ "↪ recursion(" ++ function ++ ")"]

def render (trace : Trace) : String :=
  "\n".intercalate (trace.lines 0)

end Trace

def Parts.toJson (parts : Parts) : Json :=
  .object [("arg", .ofNat parts.arg), ("expr", .ofNat parts.expr), ("callee", .ofNat parts.callee)]

/-- The trace as JSON; a trace without a call is null. -/
def Trace.toJson : Trace → Json
  | .empty => .null
  | .call link below =>
      .object [
        ("kind", .text "call"),
        ("expr", .text link.label),
        ("weight", .ofNat link.weight),
        ("parts", link.parts.toJson),
        ("via", .text link.via.name),
        ("callee", match link.callee with
          | none => .null
          | some mark => .text mark),
        ("child", below.toJson)]
  | .recursion function owner =>
      .object [("kind", .text "recursion"), ("function", .text function), ("owner", .text owner)]

end CallDepth
