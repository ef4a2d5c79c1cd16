/-
# Measuring a body

The depth of a node is the weighted depth of the calls below it. A call is worth its own weight plus
the deepest of its operands, its callee expression and the function it leads to; any other node is
worth its deepest child. The first of equally deep siblings counts, with its trace.

`Analyzer.walk` measures a node. The depths of the functions that calls lead to are asked for one by
one, in evaluation order, through `ask`. The walk works in any monad, so the one that asks decides
what an unknown depth means: stopping the walk, measuring the callee first, or assuming a value.

In evaluation order, the operands of a call come first, then its callee expression, then the
function it leads to, then the call itself.
-/
import CallDepth.SourceUnit
import CallDepth.Trace

namespace CallDepth

/-- How deep a node goes, and along which path. -/
structure Outcome where
  depth : Nat
  /-- The deepest path; only kept when traces are asked for. -/
  trace : Trace
deriving DecidableEq, Repr, Inhabited

namespace Outcome

/-- The outcome of a node without calls below it. -/
def floor : Outcome :=
  ⟨0, .empty⟩

/-- The deeper of two outcomes, the first when they are equally deep. -/
def deeper (first second : Outcome) : Outcome :=
  if first.depth < second.depth then second else first

def deepest : List Outcome → Outcome
  | [] => floor
  | first :: rest => rest.foldl deeper first

end Outcome

/-- What to keep while measuring. -/
structure Options where
  /-- Keep the deepest paths. -/
  trace : Bool := false
  /-- Narrate every call. -/
  verbose : Bool := false
  /-- Narrate only functions of this name. -/
  target : Option String := none
deriving DecidableEq, Repr, Inhabited

def Options.narrates (options : Options) (function : String) : Bool :=
  options.verbose && options.target.all (· = function)

structure CallEvent where
  function : String
  label : String
  weight : Nat
  parts : Parts
  total : Nat
  via : Branch
deriving DecidableEq, Repr, Inhabited

/-- A measured node: its outcome and the narration of the calls in it, in evaluation order. -/
structure Walk where
  outcome : Outcome
  events : List CallEvent
deriving DecidableEq, Repr, Inhabited

/-- The measure of siblings: the deepest outcome and the narrations of all. -/
def Walk.deepest (walks : List Walk) : Walk where
  outcome := Outcome.deepest (walks.map (·.outcome))
  events := walks.flatMap (·.events)

/-- A source unit and what to keep while measuring it. -/
structure Analyzer where
  unit : SourceUnit
  options : Options

namespace Analyzer

/-- The measure of a call in a function, from the measures of its parts. The third part is there
only if the call leads to a function of the unit. -/
def measureCall (analyzer : Analyzer) (caller : Definition) (site : CallSite) (args expr : Walk)
    (callee : Option Outcome) : Walk :=
  let reached := callee.getD .floor
  let weight := analyzer.unit.weight site callee.isSome
  let parts : Parts := ⟨args.outcome.depth, expr.outcome.depth, reached.depth⟩
  let via := parts.dominant
  let total := weight + parts.max
  let below := match via with
    | .callee => reached.trace
    | .expr => expr.outcome.trace
    | .args => args.outcome.trace
  let link : Link :=
    { label := site.label, weight, parts, via, callee := callee.map fun _ => userDefined }
  let event : CallEvent :=
    { function := caller.name, label := site.label, weight, parts, total, via }
  { outcome := ⟨total, if analyzer.options.trace then .call link below else .empty⟩
    events := args.events ++ expr.events ++
      if analyzer.options.narrates caller.name then [event] else [] }

variable {m : Type → Type} [Monad m]

/-- Ask for the outcomes of functions, one after another, and keep the first of the deepest. -/
def askAll (ask : FunctionId → m Outcome) (best : Option Outcome) :
    List FunctionId → m (Option Outcome)
  | [] => pure best
  | id :: rest => do
      let outcome ← ask id
      askAll ask (some (best.elim outcome (·.deeper outcome))) rest

/-- Ask for the outcome of what a call leads to, if it leads to functions of the unit. -/
def askCallee (analyzer : Analyzer) (caller : Definition) (ask : FunctionId → m Outcome)
    (site : CallSite) : m (Option Outcome) :=
  askAll ask none (analyzer.unit.resolve site caller.owner)

mutual

/-- Measure a node in the body of a function. -/
def walk (analyzer : Analyzer) (caller : Definition) (ask : FunctionId → m Outcome) :
    Node → m Walk
  | .call withOptions callee argumentCount operands => do
      let args ← walkAll analyzer caller ask operands
      let expr ← walkOption analyzer caller ask callee
      let site : CallSite := { withOptions, callee, argumentCount, operands }
      let reached ← askCallee analyzer caller ask site
      pure (analyzer.measureCall caller site (.deepest args) (.deepest expr) reached)
  | .contract _ _ _ members => do
      let walks ← walkAll analyzer caller ask members
      pure (.deepest walks)
  | .function _ _ _ _ body parts => do
      let first ← walkOption analyzer caller ask body
      let rest ← walkAll analyzer caller ask parts
      pure (.deepest (first ++ rest))
  | .struct _ members => do
      let walks ← walkAll analyzer caller ask members
      pure (.deepest walks)
  | .event _ members => do
      let walks ← walkAll analyzer caller ask members
      pure (.deepest walks)
  | .member base _ => do
      let walks ← walkOption analyzer caller ask base
      pure (.deepest walks)
  | .elementaryTypeExpr typeName => do
      let walks ← walkOption analyzer caller ask typeName
      pure (.deepest walks)
  | .typeNameExpr parts => do
      let walks ← walkAll analyzer caller ask parts
      pure (.deepest walks)
  | .other _ parts => do
      let walks ← walkAll analyzer caller ask parts
      pure (.deepest walks)
  | .identifier _ => pure (.deepest [])
  | .elementaryType _ => pure (.deepest [])
  | .thisRef => pure (.deepest [])

def walkOption (analyzer : Analyzer) (caller : Definition) (ask : FunctionId → m Outcome) :
    Option Node → m (List Walk)
  | none => pure []
  | some node => do
      let measured ← walk analyzer caller ask node
      pure [measured]

def walkAll (analyzer : Analyzer) (caller : Definition) (ask : FunctionId → m Outcome) :
    List Node → m (List Walk)
  | [] => pure []
  | node :: rest => do
      let measured ← walk analyzer caller ask node
      let others ← walkAll analyzer caller ask rest
      pure (measured :: others)

end

/-- Measure the body of a function; a function without one has no calls. -/
def walkBody (analyzer : Analyzer) (caller : Definition) (ask : FunctionId → m Outcome) : m Walk :=
  match caller.body with
  | none => pure (.deepest [])
  | some body => walk analyzer caller ask body

end Analyzer

end CallDepth
