/-
# Symbols of a source unit

`Node.declarations` lists what a tree declares, in pre-order: functions with their owner, contracts
with their bases, libraries, structs and events. Declarations without a name are left out; a
contract without a name is transparent, so what it holds belongs to the contract around it.

`SymbolTable.declare` adds one declaration to a table. A function is identified by its place among
all functions (`FunctionId`), so two definitions of one name and owner stay apart. The table keeps
the ids of each name beside the functions, and the two stay in step (`consistent_ofTree`).
-/
import CallDepth.Node.Basic
import CallDepth.Scope

namespace CallDepth

/-- A function definition and the contract or library that declares it. -/
structure Definition where
  name : String
  /-- The nearest enclosing contract or library with a name; empty for a free function. -/
  owner : String
  arity : Nat
  visibility : String
  mutability : String
  body : Option Node
deriving Inhabited, Repr

/-- Something a source unit declares under a name. -/
inductive Declaration where
  | function (definition : Definition)
  | contract (name : String) (bases : List String)
  | library (name : String)
  | struct (name : String)
  | event (name : String)
deriving Inhabited, Repr

namespace Node

/-- The declaration of a contract, which gives its members their owner. -/
def contractDeclaration (name kind : String) (bases : List String) : List Declaration :=
  if name = "" then [] else if kind = libraryKind then [.library name] else [.contract name bases]

/-- The owner of what a contract declares. -/
def ownerWithin (name owner : String) : String :=
  if name = "" then owner else name

mutual

/-- What a tree declares inside an owner, in pre-order. -/
def declarations (owner : String) : Node → List Declaration
  | contract name kind bases members =>
      contractDeclaration name kind bases ++ declarationsOfAll (ownerWithin name owner) members
  | function name arity visibility mutability body parts =>
      (if name = "" then []
        else [.function { name, owner, arity, visibility, mutability, body }]) ++
      declarationsOf owner body ++ declarationsOfAll owner parts
  | struct name members =>
      (if name = "" then [] else [.struct name]) ++ declarationsOfAll owner members
  | event name members =>
      (if name = "" then [] else [.event name]) ++ declarationsOfAll owner members
  | call _ callee _ operands => declarationsOf owner callee ++ declarationsOfAll owner operands
  | member base _ => declarationsOf owner base
  | elementaryTypeExpr typeName => declarationsOf owner typeName
  | typeNameExpr parts => declarationsOfAll owner parts
  | other _ parts => declarationsOfAll owner parts
  | identifier _ => []
  | elementaryType _ => []
  | thisRef => []

def declarationsOf (owner : String) : Option Node → List Declaration
  | none => []
  | some node => node.declarations owner

def declarationsOfAll (owner : String) : List Node → List Declaration
  | [] => []
  | node :: rest => node.declarations owner ++ declarationsOfAll owner rest

end

end Node

/-- The place of a function among all functions of a unit. -/
abbrev FunctionId := Nat

/-- A function as it stands in the table, with the id it was given. -/
structure FunctionEntry where
  id : FunctionId
  definition : Definition
deriving Inhabited, Repr

/-- What a source unit declares. -/
structure SymbolTable where
  /-- All functions with a name, in pre-order. -/
  entries : List FunctionEntry := []
  /-- The ids of each name, in the order in which they were given. -/
  byName : List (String × List FunctionId) := []
  graph : ScopeGraph := {}
  libraries : List String := []
  structs : List String := []
  events : List String := []
deriving Inhabited, Repr

namespace SymbolTable

def functions (symbols : SymbolTable) : List Definition :=
  symbols.entries.map (·.definition)

def function? (symbols : SymbolTable) (id : FunctionId) : Option Definition :=
  symbols.functions[id]?

/-- The ids that the index has for a name. -/
def named (symbols : SymbolTable) (name : String) : List FunctionId :=
  (symbols.byName.lookup name).getD []

/-- Append a function under the next id, and that id to those of its name. -/
def addFunction (symbols : SymbolTable) (definition : Definition) : SymbolTable :=
  let id := symbols.entries.length
  { symbols with
    entries := symbols.entries ++ [⟨id, definition⟩]
    byName := Assoc.put symbols.byName definition.name (symbols.named definition.name ++ [id]) }

def insertName (names : List String) (name : String) : List String :=
  if name ∈ names then names else names ++ [name]

def declare (symbols : SymbolTable) : Declaration → SymbolTable
  | .function definition => symbols.addFunction definition
  | .contract name bases => { symbols with graph := symbols.graph.add name bases }
  | .library name => { symbols with libraries := insertName symbols.libraries name }
  | .struct name => { symbols with structs := insertName symbols.structs name }
  | .event name => { symbols with events := insertName symbols.events name }

def ofDeclarations (declarations : List Declaration) : SymbolTable :=
  declarations.foldl declare {}

def ofTree (root : Node) : SymbolTable :=
  ofDeclarations (root.declarations "")

def isOwnedBy (symbols : SymbolTable) (owner : String) (id : FunctionId) : Bool :=
  (symbols.function? id).any (·.owner = owner)

def hasArity (symbols : SymbolTable) (count : Nat) (id : FunctionId) : Bool :=
  (symbols.function? id).any (·.arity = count)

def isLibrary (symbols : SymbolTable) (name : String) : Bool :=
  symbols.libraries.contains name

/-- Struct constructors and event emissions are written as calls. -/
def isStructOrEvent (symbols : SymbolTable) (name : String) : Bool :=
  symbols.structs.contains name || symbols.events.contains name

/-- Every scope that can own a function: contracts, then libraries. -/
def scopes (symbols : SymbolTable) : List String :=
  symbols.graph.scopes ++ symbols.libraries

/-! ## Ids and the index of names -/

/-- The ids and the index agree with the list of functions. -/
structure Consistent (symbols : SymbolTable) : Prop where
  /-- The id of a function is its place. -/
  numbered : symbols.entries.map (·.id) = List.range symbols.entries.length
  /-- The index has the ids of the functions of a name, in their order. -/
  indexed : ∀ name, symbols.named name =
    (symbols.entries.filter (·.definition.name = name)).map (·.id)

/-- A new function is indexed under its name, and under no other. -/
theorem named_addFunction (symbols : SymbolTable) (definition : Definition) (name : String) :
    (symbols.addFunction definition).named name =
      if name = definition.name then symbols.named name ++ [symbols.entries.length]
      else symbols.named name := by
  by_cases same : name = definition.name <;> simp [named, addFunction, Assoc.lookup_put, same]

/-- A function that is added gets its place as its id, in both the table and the index. -/
theorem Consistent.addFunction {symbols : SymbolTable} (consistent : symbols.Consistent)
    (definition : Definition) : (symbols.addFunction definition).Consistent where
  numbered := by
    simp [SymbolTable.addFunction, consistent.numbered, List.range_succ]
  indexed name := by
    rw [named_addFunction, consistent.indexed]
    by_cases same : name = definition.name
    · simp [SymbolTable.addFunction, same]
    · have other : ¬ definition.name = name := fun h => same h.symm
      simp [SymbolTable.addFunction, same, other]

/-- Every declaration keeps ids and index in step. -/
theorem Consistent.declare {symbols : SymbolTable} (consistent : symbols.Consistent)
    (declaration : Declaration) : (symbols.declare declaration).Consistent := by
  cases declaration with
  | function definition => exact consistent.addFunction definition
  | contract name bases => exact ⟨consistent.numbered, consistent.indexed⟩
  | library name => exact ⟨consistent.numbered, consistent.indexed⟩
  | struct name => exact ⟨consistent.numbered, consistent.indexed⟩
  | event name => exact ⟨consistent.numbered, consistent.indexed⟩

/-- However many declarations are added, the ids and the index stay in step with the functions. -/
theorem Consistent.foldl_declare {symbols : SymbolTable} (consistent : symbols.Consistent)
    (declarations : List Declaration) :
    (declarations.foldl SymbolTable.declare symbols).Consistent := by
  induction declarations generalizing symbols with
  | nil => exact consistent
  | cons declaration rest ih => exact ih (consistent.declare declaration)

/-- Ids and index of a collected table are in step. -/
theorem consistent_ofDeclarations (declarations : List Declaration) :
    (ofDeclarations declarations).Consistent :=
  Consistent.foldl_declare ⟨rfl, fun _ => rfl⟩ declarations

theorem consistent_ofTree (root : Node) : (ofTree root).Consistent :=
  consistent_ofDeclarations (root.declarations "")

end SymbolTable

end CallDepth
