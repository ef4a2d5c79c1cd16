/-
# Analysis of one unit

`analyze` measures every function of a syntax tree, in the order of the tree, with one engine, so
that later functions profit from earlier ones. Besides the rows it gives the log: how many symbols
were collected, then the narration of the calls.
-/
import CallDepth.Depth.Engine
import CallDepth.Node.OfJson

namespace CallDepth

/-- How urgent a log event is. -/
inductive Level where
  | debug
  | info
  | warn
deriving DecidableEq, Repr

def Level.name : Level → String
  | debug => "debug"
  | info => "info"
  | warn => "warn"

inductive Event where
  /-- The symbols of a unit were collected. -/
  | collected (functions contracts libraries : Nat)
  /-- A call was measured. -/
  | call (event : CallEvent)
  /-- A document was left out. -/
  | skipped (file reason : String)
  /-- All documents were analyzed. -/
  | finished (units functions failures : Nat)
deriving DecidableEq, Repr

namespace Event

def level : Event → Level
  | collected .. => .debug
  | call _ => .debug
  | skipped .. => .warn
  | finished .. => .info

def message : Event → String
  | collected .. => "collected symbols"
  | call _ => "[CALL]"
  | skipped .. => "Skipping unit"
  | finished .. => "analysis finished"

end Event

/-- The log level that is shown unless another one is asked for. -/
def defaultLevel (verbose : Bool) : Level :=
  if verbose then .debug else .info

structure FunctionDepth where
  contract : String
  function : String
  visibility : String
  mutability : String
  depth : Nat
  trace : Trace
deriving DecidableEq, Repr, Inhabited

def Definition.measured (definition : Definition) (outcome : Outcome) : FunctionDepth where
  contract := definition.owner
  function := definition.name
  visibility := definition.visibility
  mutability := definition.mutability
  depth := outcome.depth
  trace := outcome.trace

namespace Analyzer

/-- Measure functions in order, each by its id. -/
def measureEach (analyzer : Analyzer) (engine : Engine) :
    List FunctionEntry → List FunctionDepth × Engine
  | [] => ([], engine)
  | entry :: rest =>
      let (outcome, engine) := analyzer.depth engine entry.id
      let (rows, engine) := analyzer.measureEach engine rest
      (entry.definition.measured outcome :: rows, engine)

def measureAll (analyzer : Analyzer) : List FunctionDepth × Engine :=
  analyzer.measureEach {} analyzer.unit.symbols.entries

end Analyzer

/-- The rows and the log of one unit. -/
structure Analysis where
  rows : List FunctionDepth
  events : List Event
deriving Repr, Inhabited

def SymbolTable.collectedEvent (symbols : SymbolTable) : Event :=
  .collected symbols.functions.length symbols.graph.size symbols.libraries.length

/-- Measure every function of a tree. -/
def analyze (options : Options) (root : Node) : Analysis :=
  let analyzer : Analyzer := { unit := SourceUnit.ofTree root, options }
  let (rows, engine) := analyzer.measureAll
  { rows, events := analyzer.unit.symbols.collectedEvent :: engine.log.map .call }

end CallDepth
