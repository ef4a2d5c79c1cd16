/-
# Scopes and inheritance

A scope is a contract by name. `ScopeGraph` records the direct bases of each scope under its last
declaration; `ScopeGraph.reachableFrom` closes them: the scope itself and all bases, direct or not,
whether or not they are declared. Bases may repeat, name the scope itself or form cycles.

The closure is found with a stack. A name is seen when it is pushed, so that it is pushed once, and
its bases are read when it is taken off (`ScopeGraph.turn`).

`Closure` keeps the closed sets of a list of scopes, so that each is computed once.
-/
import CallDepth.Assoc

namespace CallDepth

/-- The direct bases of each declared scope, in order of first declaration. -/
structure ScopeGraph where
  entries : List (String × List String) := []
deriving DecidableEq, Repr, Inhabited

/-- A search for bases: the names seen, and those among them whose bases were not read yet. -/
structure Search where
  seen : List String
  stack : List String
deriving DecidableEq, Repr, Inhabited

/-- Push a name, unless it was seen before. -/
def Search.visit (search : Search) (name : String) : Search :=
  if name ∈ search.seen then search else ⟨name :: search.seen, name :: search.stack⟩

namespace ScopeGraph

/-- Declare a scope; a later declaration replaces the bases of an earlier one. -/
def add (graph : ScopeGraph) (scope : String) (bases : List String) : ScopeGraph :=
  ⟨Assoc.put graph.entries scope bases⟩

/-- The direct bases of a scope; none when it is not declared. -/
def bases (graph : ScopeGraph) (scope : String) : List String :=
  (graph.entries.lookup scope).getD []

def contains (graph : ScopeGraph) (scope : String) : Bool :=
  (graph.entries.lookup scope).isSome

def scopes (graph : ScopeGraph) : List String :=
  Assoc.keys graph.entries

def size (graph : ScopeGraph) : Nat :=
  graph.entries.length

theorem bases_add (graph : ScopeGraph) (scope : String) (bases : List String) (s : String) :
    (graph.add scope bases).bases s = if s = scope then bases else graph.bases s := by
  by_cases h : s = scope <;> simp [add, ScopeGraph.bases, Assoc.lookup_put, h]

/-- One turn of a search: the name on top leaves the stack, and its bases are visited in order. -/
def turn (graph : ScopeGraph) (search : Search) : Search :=
  match search.stack with
  | [] => search
  | name :: rest => (graph.bases name).foldl Search.visit ⟨search.seen, rest⟩

/-- Take turns until the stack is empty, for at most a number of turns. -/
def search (graph : ScopeGraph) : Nat → Search → Search
  | 0, state => state
  | turns + 1, state =>
      if state.stack.isEmpty then state else graph.search turns (graph.turn state)

/-- Turns that suffice to empty the stack: one for the start and one for each recorded base. -/
def turnBound (graph : ScopeGraph) : Nat :=
  1 + (graph.entries.flatMap (·.2)).length

/-- The scope and all its bases, direct or not. -/
def reachableFrom (graph : ScopeGraph) (scope : String) : List String :=
  (graph.search graph.turnBound ⟨[scope], [scope]⟩).seen

end ScopeGraph

/-- The reachable scopes of some scopes. -/
structure Closure where
  entries : List (String × List String) := []
deriving DecidableEq, Repr, Inhabited

namespace Closure

def get? (closure : Closure) (scope : String) : Option (List String) :=
  closure.entries.lookup scope

/-- Compute the reachable scopes of a scope, unless this was done before. -/
def extend (graph : ScopeGraph) (closure : Closure) (scope : String) : Closure :=
  if (closure.get? scope).isSome then closure
  else ⟨Assoc.put closure.entries scope (graph.reachableFrom scope)⟩

def compute (graph : ScopeGraph) (scopes : List String) : Closure :=
  scopes.foldl (extend graph) {}

end Closure

end CallDepth
