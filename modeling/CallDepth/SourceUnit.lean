/-
# Resolution of calls

A `SourceUnit` is the symbol table of a tree with the inheritance closure of its scopes. From inside
a scope, `SourceUnit.resolve` maps a call to the function of the unit it most plausibly leads to:

* `eligible` lists the definitions that the callee can name. A plain name reaches the scope and its
  bases, a member of a library reaches that library, and a member of `this` the scope itself, or
  every definition of the name when the scope has none. Any other callee is external.
* `pickOne` takes one of them: arguments that fit come first, then a definition of the scope itself,
  then the first in the order of the unit.

It is a choice by counting, not by types.
-/
import CallDepth.Symbols
import CallDepth.Weight

namespace CallDepth

structure SourceUnit where
  symbols : SymbolTable
  closure : Closure
  /-- The ids that names are looked up by are those of the definitions. -/
  consistent : symbols.Consistent

namespace SourceUnit

def ofSymbols (symbols : SymbolTable) (consistent : symbols.Consistent) : SourceUnit where
  symbols := symbols
  closure := Closure.compute symbols.graph symbols.scopes
  consistent := consistent

def ofTree (root : Node) : SourceUnit :=
  ofSymbols (SymbolTable.ofTree root) (SymbolTable.consistent_ofTree root)

/-- The definition of an id lies in a scope of a list. -/
def isOwnedWithin (unit : SourceUnit) (scopes : List String) (id : FunctionId) : Bool :=
  (unit.symbols.function? id).any fun definition => scopes.contains definition.owner

/-- The definitions a plain name reaches from a scope. Without a scope, or for a scope without a
reachable set, all definitions of the name. -/
def visible (unit : SourceUnit) (name scope : String) : List FunctionId :=
  let all := unit.symbols.named name
  if scope = "" then all
  else match unit.closure.get? scope with
    | none => all
    | some reach => if reach.isEmpty then all else all.filter (unit.isOwnedWithin reach)

def ownedBy (unit : SourceUnit) (name owner : String) : List FunctionId :=
  (unit.symbols.named name).filter (unit.symbols.isOwnedBy owner)

/-- The definitions a member of `this` reaches from a scope. -/
def ofThis (unit : SourceUnit) (name scope : String) : List FunctionId :=
  let own := unit.ownedBy name scope
  if own.isEmpty then unit.symbols.named name else own

/-- The definitions a callee can name from a scope. -/
def eligible (unit : SourceUnit) (callee : Option Node) (scope : String) : List FunctionId :=
  match callee with
  | some (.identifier name) => unit.visible name scope
  | some (.member (some base) name) =>
      match base.identifier?.filter unit.symbols.isLibrary with
      | some library => unit.ownedBy name library
      | none => if base.isThis then unit.ofThis name scope else []
  | _ => []

/-- The first candidate of the scope itself, else the first one. -/
def ownFirst (unit : SourceUnit) (scope : String) (candidates : List FunctionId) :
    List FunctionId :=
  match candidates.find? (unit.symbols.isOwnedBy scope) with
  | some id => [id]
  | none => candidates.take 1

/-- Narrow several candidates down to one. Those that take the number of arguments come first; when
there are none, all candidates stay. -/
def pickOne (unit : SourceUnit) (argumentCount : Option Nat) (scope : String)
    (candidates : List FunctionId) : List FunctionId :=
  if candidates.length ≤ 1 then candidates
  else match argumentCount with
    | none => unit.ownFirst scope candidates
    | some count =>
        let exact := candidates.filter (unit.symbols.hasArity count)
        if exact.length = 1 then exact
        else unit.ownFirst scope (if 1 < exact.length then exact else candidates)

/-- The functions of the unit that a call from a scope leads to. -/
def resolve (unit : SourceUnit) (site : CallSite) (scope : String) : List FunctionId :=
  unit.pickOne site.argumentCount scope (unit.eligible site.callee scope)

/-- The callee is the name of a struct or an event. -/
def constructsOrEmits (unit : SourceUnit) (site : CallSite) : Bool :=
  (site.callee.bind Node.identifier?).any unit.symbols.isStructOrEvent

/-- The weight of a call, given whether it leads to a function of the unit. -/
def weight (unit : SourceUnit) (site : CallSite) (isResolved : Bool) : Nat :=
  if site.isTypeConversion then 0
  else if unit.constructsOrEmits site then 0
  else if isResolved then resolvedWeight
  else (site.callee.bind Node.builtinWeight?).getD defaultWeight

end SourceUnit

end CallDepth
