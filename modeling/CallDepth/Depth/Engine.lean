/-
# The depth engine

The engine measures function definitions and remembers each result. It works off an explicit stack:
the definition on top is measured, and when its body leads to a definition whose depth is unknown,
the walk is given up, that definition is pushed, and the body is walked again later. A call back
into a definition on the stack counts as depth 1, so a cycle in the call graph is cut where it
closes.

* `Analyzer.answer` is what a walk is told of a callee: the remembered outcome, the value of a
  recursive call, or that the callee has to be measured first.
* `Analyzer.step` is one turn of the loop; the narration of a body is logged in the turn that
  completes it, so walks that were given up leave no trace in the log.
* Each definition is pushed at most once and completed at most once, which bounds the number of
  turns by twice the number of definitions.
-/
import CallDepth.Depth.Walk

namespace CallDepth

/-- What the engine remembers between measurements. -/
structure Engine where
  /-- The outcomes of completed definitions, the latest first. -/
  memo : List (FunctionId × Outcome) := []
  /-- The definitions that were begun and are not completed. -/
  active : List FunctionId := []
  /-- The narration of completed definitions, in order of completion. -/
  log : List CallEvent := []
deriving DecidableEq, Repr, Inhabited

namespace Engine

/-- The outcome of a definition, if it is completed. -/
def outcome? (engine : Engine) (id : FunctionId) : Option Outcome :=
  engine.memo.lookup id

def completed (engine : Engine) : Nat :=
  engine.memo.length

def start (engine : Engine) (id : FunctionId) : Engine :=
  { engine with active := id :: engine.active }

def complete (engine : Engine) (id : FunctionId) (walk : Walk) : Engine where
  memo := (id, walk.outcome) :: engine.memo
  active := engine.active.filter (· ≠ id)
  log := engine.log ++ walk.events

end Engine

/-- The engine in its loop. -/
structure Machine where
  engine : Engine
  /-- The definitions that are still to be completed, the current one on top. -/
  stack : List FunctionId
  /-- The outcome of the definition that was completed last. -/
  last : Outcome
deriving DecidableEq, Repr, Inhabited

namespace Analyzer

/-- The outcome of a call back into a definition that is being measured. -/
def recursive (analyzer : Analyzer) (id : FunctionId) : Outcome where
  depth := 1
  trace :=
    if analyzer.options.trace then
      match analyzer.unit.symbols.function? id with
      | none => .recursion "" ""
      | some definition => .recursion definition.name definition.owner
    else .empty

/-- What a walk is told of a callee; an error names the definition to measure first. -/
def answer (analyzer : Analyzer) (engine : Engine) (id : FunctionId) :
    Except FunctionId Outcome :=
  match engine.outcome? id with
  | some outcome => .ok outcome
  | none => if id ∈ engine.active then .ok (analyzer.recursive id) else .error id

/-- Measure the body of a definition, as far as the engine knows its callees. -/
def evaluate (analyzer : Analyzer) (engine : Engine) (id : FunctionId) : Except FunctionId Walk :=
  match analyzer.unit.symbols.function? id with
  | none => .ok (.deepest [])
  | some definition => analyzer.walkBody definition (analyzer.answer engine)

/-- One turn: complete the definition on top, or push the one it waits for. -/
def step (analyzer : Analyzer) (machine : Machine) : Machine :=
  match machine.stack with
  | [] => machine
  | id :: rest =>
      match analyzer.evaluate machine.engine id with
      | .ok walk => ⟨machine.engine.complete id walk, rest, walk.outcome⟩
      | .error next => ⟨machine.engine.start next, next :: id :: rest, machine.last⟩

/-- Take turns until the stack is empty, for at most a number of turns. -/
def run (analyzer : Analyzer) : Nat → Machine → Machine
  | 0, machine => machine
  | turns + 1, machine =>
      if machine.stack.isEmpty then machine else analyzer.run turns (analyzer.step machine)

/-- Turns that suffice to empty the stack: one to push and one to complete each definition. -/
def turnBound (analyzer : Analyzer) : Nat :=
  2 * analyzer.unit.symbols.functions.length + 1

/-- Measure a definition: its outcome, and what the engine remembers then. -/
def depth (analyzer : Analyzer) (engine : Engine) (id : FunctionId) : Outcome × Engine :=
  match engine.outcome? id with
  | some outcome => (outcome, engine)
  | none =>
      let final := analyzer.run analyzer.turnBound ⟨engine.start id, [id], .floor⟩
      (final.last, final.engine)

end Analyzer

end CallDepth
