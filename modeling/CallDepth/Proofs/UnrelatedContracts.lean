/-
# Unrelated contracts do not disturb each other

A contract is appended to a source unit in which nothing inherits from it. Its functions enlarge the
lists of definitions by name that every call looks into, and they may share names and arities with
functions that are there. Still all earlier rows stay as they are.

* `SymbolTable.Unrelated` says that a table knows nothing of a contract. Then inheritance among the
  known scopes is unchanged (`Unrelated.inherits_iff`), the reachable sets filter out the new
  definitions, and so calls lead where they led before (`Unrelated.resolve?_eq`).
* `Analyzer.Extends` relates two analyzers of which the larger one has more definitions, while calls
  in the earlier ones lead to the same definitions in both. They take the same turns
  (`Extends.step_eq`, `Extends.run_eq`), so they measure the earlier definitions alike, recursion
  included (`Extends.depth_eq`).
-/
import CallDepth.Proofs.Coverage
import CallDepth.Proofs.NameLookup
import Mathlib.Data.List.Sort

namespace CallDepth

/-! ## Analyzers with more definitions -/

namespace Analyzer

section Turns

variable {analyzer : Analyzer}

/-- A turn pushes only definitions of the unit. -/
theorem step_inside {machine : Machine}
    (inside : ∀ id ∈ machine.stack, id < analyzer.unit.symbols.functions.length) :
    ∀ id ∈ (analyzer.step machine).stack, id < analyzer.unit.symbols.functions.length := by
  obtain ⟨engine, stack, last⟩ := machine
  cases stack with
  | nil => rwa [step_of_idle rfl]
  | cons top rest =>
      rcases analyzer.step_cases engine top rest last with
        ⟨next, called, -, -, stepped⟩ | ⟨-, stepped⟩
      · rw [stepped]
        exact List.forall_mem_cons.2 ⟨called.lt_length, inside⟩
      · rw [stepped]
        exact fun id member => inside id (List.mem_cons_of_mem top member)

/-- Once the stack is empty, further turns change nothing. -/
theorem run_add_of_idle {turns : Nat} {machine : Machine}
    (idle : (analyzer.run turns machine).stack = []) (more : Nat) :
    analyzer.run (more + turns) machine = analyzer.run turns machine := by
  rw [run_eq_iterate, Function.iterate_add_apply, ← run_eq_iterate turns]
  exact Function.iterate_fixed (step_of_idle idle) more

end Turns

/-- The larger analyzer has the definitions of the smaller one, then more, and calls in the bodies
of the former lead to the same definitions in both. -/
structure Extends (larger smaller : Analyzer) : Prop where
  options : larger.options = smaller.options
  functions : ∃ more, larger.unit.symbols.functions = smaller.unit.symbols.functions ++ more
  weight : larger.unit.weight = smaller.unit.weight
  resolve : ∀ definition ∈ smaller.unit.symbols.functions, ∀ site ∈ definition.calls,
    larger.unit.resolve? site definition.owner = smaller.unit.resolve? site definition.owner

namespace Extends

variable {larger smaller : Analyzer} (extension : larger.Extends smaller)
include extension

theorem function?_eq {id : FunctionId} (inside : id < smaller.unit.symbols.functions.length) :
    larger.unit.symbols.function? id = smaller.unit.symbols.function? id := by
  obtain ⟨more, functions⟩ := extension.functions
  rw [SymbolTable.function?, functions, List.getElem?_append_left inside]
  rfl

theorem exists_function? {id : FunctionId} (inside : id < smaller.unit.symbols.functions.length) :
    ∃ definition ∈ smaller.unit.symbols.functions,
      smaller.unit.symbols.function? id = some definition ∧
        larger.unit.symbols.function? id = some definition := by
  have found := List.getElem?_eq_getElem inside
  exact ⟨_, List.getElem_mem inside, found, (extension.function?_eq inside).trans found⟩

theorem measureCall_eq : larger.measureCall = smaller.measureCall := by
  funext caller site args expr callee
  simp only [measureCall, extension.weight, extension.options]

/-- Two analyzers measure a node alike if its calls lead to the same definitions. -/
theorem measure_eq (caller : Definition) (outcomes : FunctionId → Outcome) (node : Node)
    (same : ∀ site ∈ node.calls,
      larger.unit.resolve? site caller.owner = smaller.unit.resolve? site caller.owner) :
    larger.measure caller outcomes node = smaller.measure caller outcomes node := by
  induction node using Node.children_induction with
  | site site operands callee =>
      rw [Node.calls_site] at same
      have args := List.map_congr_left fun child member => operands child member fun call inside =>
        same call (by simpa using .inl ⟨child, member, inside⟩)
      have expr := List.map_congr_left fun child member => callee child member fun call inside =>
        same call (by simpa using .inr (.inl ⟨child, by simpa using member, inside⟩))
      rw [measure_site, measure_site, args, expr, extension.measureCall_eq, same site (by simp)]
  | plain node plain children =>
      rw [Node.calls_of_plain plain] at same
      rw [measure_of_plain _ _ _ plain, measure_of_plain _ _ _ plain]
      refine congrArg Walk.deepest (List.map_congr_left fun child member => ?_)
      exact children child member fun call inside =>
        same call (List.mem_flatMap.2 ⟨child, member, inside⟩)

theorem measureBody_eq {definition : Definition}
    (member : definition ∈ smaller.unit.symbols.functions) (outcomes : FunctionId → Outcome) :
    larger.measureBody definition outcomes = smaller.measureBody definition outcomes := by
  have same := extension.resolve definition member
  unfold Definition.calls at same
  unfold measureBody walkBody
  cases body : definition.body with
  | none => rfl
  | some node =>
      rw [body] at same
      exact extension.measure_eq definition outcomes node same

/-- The functions of the smaller unit call the same functions in the larger one. -/
theorem callees_eq {id : FunctionId} (inside : id < smaller.unit.symbols.functions.length) :
    larger.unit.callees id = smaller.unit.callees id := by
  obtain ⟨definition, member, found, same⟩ := extension.exists_function? inside
  simp only [SourceUnit.callees, found, same, SourceUnit.targets]
  exact List.filterMap_congr (extension.resolve definition member)

theorem presumed_eq {id : FunctionId} (inside : id < smaller.unit.symbols.functions.length)
    (memo : List (FunctionId × Outcome)) :
    larger.presumed memo id = smaller.presumed memo id := by
  have recursive : larger.recursive id = smaller.recursive id := by
    simp only [recursive, extension.options, extension.function?_eq inside]
  rw [presumed, presumed, recursive]

theorem conclude_eq {id : FunctionId} (inside : id < smaller.unit.symbols.functions.length)
    (memo : List (FunctionId × Outcome)) :
    larger.conclude memo id = smaller.conclude memo id := by
  obtain ⟨definition, member, found, same⟩ := extension.exists_function? inside
  rw [conclude_of_found same, conclude_of_found found, extension.measureBody_eq member]
  refine measureBody_congr fun callee target => extension.presumed_eq ?_ memo
  exact ((SourceUnit.mem_targets_iff_calls found).1 target).lt_length

/-- A turn for a definition that both have is the same for both. -/
theorem step_eq {machine : Machine}
    (inside : ∀ id ∈ machine.stack, id < smaller.unit.symbols.functions.length) :
    larger.step machine = smaller.step machine := by
  obtain ⟨engine, stack, last⟩ := machine
  cases stack with
  | nil => rw [step_of_idle rfl, step_of_idle rfl]
  | cons id rest =>
      have here := inside id List.mem_cons_self
      have callees := extension.callees_eq here
      cases waiting : (smaller.unit.callees id).find? engine.isUnknown with
      | some next =>
          rw [step_of_waiting rest last waiting, step_of_waiting rest last (callees ▸ waiting)]
      | none =>
          rw [step_of_ready rest last waiting, step_of_ready rest last (callees ▸ waiting),
            extension.conclude_eq here]

/-- Turns for functions of the smaller unit are the same in the larger one. -/
theorem run_eq (turns : Nat) {machine : Machine}
    (inside : ∀ id ∈ machine.stack, id < smaller.unit.symbols.functions.length) :
    larger.run turns machine = smaller.run turns machine := by
  induction turns generalizing machine with
  | zero => rfl
  | succ turns ih =>
      rw [run, run, extension.step_eq inside]
      split
      · rfl
      · exact ih (step_inside inside)

/-- Both analyzers measure the definitions of the smaller one alike. -/
theorem depth_eq (engine : Engine) {id : FunctionId}
    (inside : id < smaller.unit.symbols.functions.length) :
    larger.depth engine id = smaller.depth engine id := by
  have bounds : ∃ extra, larger.turnBound = extra + smaller.turnBound := by
    obtain ⟨more, functions⟩ := extension.functions
    refine ⟨2 * more.length, ?_⟩
    rw [turnBound, turnBound, functions, List.length_append]
    omega
  obtain ⟨extra, bound⟩ := bounds
  have launched : ∀ other ∈ (launch engine id).stack,
      other < smaller.unit.symbols.functions.length := List.forall_mem_singleton.2 inside
  have finished : larger.finish engine id = smaller.finish engine id := by
    rw [finish, finish, bound, extension.run_eq _ launched,
      run_add_of_idle (smaller.run_launch_stack engine id)]
  by_cases completed : engine.Completed id
  · obtain ⟨outcome, found⟩ := completed
    rw [depth_of_completed found, depth_of_completed found]
  · rw [depth_of_open completed, depth_of_open completed, finished]

theorem measureFrom_eq (engine : Engine) (id : Nat) (definitions : List Definition)
    (inside : id + definitions.length ≤ smaller.unit.symbols.functions.length) :
    larger.measureFrom engine id definitions = smaller.measureFrom engine id definitions := by
  induction definitions generalizing engine id with
  | nil => rfl
  | cons definition rest ih =>
      rw [List.length_cons] at inside
      have first := extension.depth_eq engine (show id < _ by omega)
      have others := ih (smaller.depth engine id).2 (id + 1) (by omega)
      simp only [measureFrom, first, others]

end Extends

variable (analyzer : Analyzer)

theorem measureFrom_append (engine : Engine) (id : FunctionId) (first second : List Definition) :
    (analyzer.measureFrom engine id (first ++ second)).1 =
      (analyzer.measureFrom engine id first).1 ++
        (analyzer.measureFrom (analyzer.measureFrom engine id first).2 (id + first.length)
          second).1 := by
  induction first generalizing engine id with
  | nil => rfl
  | cons definition rest ih =>
      simp only [List.cons_append, measureFrom, ih, List.length_cons]
      rw [Nat.add_right_comm, Nat.add_assoc]

/-- The rows of the larger analyzer are those of the smaller one, then one for each further
definition. -/
theorem Extends.exists_rows {larger smaller : Analyzer} (extension : larger.Extends smaller)
    {more : List Definition}
    (functions : larger.unit.symbols.functions = smaller.unit.symbols.functions ++ more) :
    ∃ outcomes : List Outcome, outcomes.length = more.length ∧
      larger.measureAll.1 =
        smaller.measureAll.1 ++ List.zipWith Definition.measured more outcomes := by
  have earlier := extension.measureFrom_eq {} 0 smaller.unit.symbols.functions (by simp)
  obtain ⟨outcomes, length, rows⟩ := larger.exists_measureFrom_rows
    (smaller.measureFrom {} 0 smaller.unit.symbols.functions).2
    (0 + smaller.unit.symbols.functions.length) more
  refine ⟨outcomes, length, ?_⟩
  rw [measureAll_eq_measureFrom, measureAll_eq_measureFrom, functions, measureFrom_append, earlier,
    rows]

end Analyzer

/-! ## Tables with one contract more -/

namespace SymbolTable

/-- The table with a further contract, which declares functions only. -/
def withContract (symbols : SymbolTable) (name : String) (bases : List String)
    (definitions : List Definition) : SymbolTable :=
  (.contract name bases :: definitions.map .function).foldl declare symbols

section Parts

variable (symbols : SymbolTable) (name : String) (bases : List String)
  (definitions : List Definition)

/-- The functions of the contract follow those of the table; nothing else but the graph grows. -/
theorem withContract_parts :
    (symbols.withContract name bases definitions).functions = symbols.functions ++ definitions ∧
    (symbols.withContract name bases definitions).graph = symbols.graph.add name bases ∧
    (symbols.withContract name bases definitions).libraries = symbols.libraries ∧
    (symbols.withContract name bases definitions).structs = symbols.structs ∧
    (symbols.withContract name bases definitions).events = symbols.events := by
  rw [withContract, List.foldl_cons]
  induction definitions using List.reverseRecOn with
  | nil => simp [declare, functions]
  | append_singleton definitions definition ih =>
      obtain ⟨functions, graph, libraries, structs, events⟩ := ih
      rw [List.map_append, List.foldl_append]
      refine ⟨?_, graph, libraries, structs, events⟩
      rw [← List.append_assoc, ← functions]
      simp [declare, addFunction, SymbolTable.functions]

theorem functions_withContract :
    (symbols.withContract name bases definitions).functions = symbols.functions ++ definitions :=
  (symbols.withContract_parts name bases definitions).1

theorem graph_withContract :
    (symbols.withContract name bases definitions).graph = symbols.graph.add name bases :=
  (symbols.withContract_parts name bases definitions).2.1

theorem libraries_withContract :
    (symbols.withContract name bases definitions).libraries = symbols.libraries :=
  (symbols.withContract_parts name bases definitions).2.2.1

theorem isLibrary_withContract :
    (symbols.withContract name bases definitions).isLibrary = symbols.isLibrary := by
  funext other
  rw [isLibrary, isLibrary, libraries_withContract]

theorem isStructOrEvent_withContract :
    (symbols.withContract name bases definitions).isStructOrEvent = symbols.isStructOrEvent := by
  obtain ⟨-, -, -, structs, events⟩ := symbols.withContract_parts name bases definitions
  funext other
  rw [isStructOrEvent, isStructOrEvent, structs, events]

end Parts

section Earlier

variable {symbols : SymbolTable} {name : String} {definitions : List Definition}
  (bases : List String)

theorem Consistent.withContract (consistent : symbols.Consistent) (name : String)
    (bases : List String) (definitions : List Definition) :
    (symbols.withContract name bases definitions).Consistent :=
  consistent.foldl_declare _

theorem function?_withContract {id : FunctionId} (inside : id < symbols.functions.length) :
    (symbols.withContract name bases definitions).function? id = symbols.function? id := by
  rw [function?, functions_withContract]
  exact List.getElem?_append_left inside

theorem Consistent.named_lt (consistent : symbols.Consistent) {other : String} {id : FunctionId}
    (member : id ∈ symbols.named other) : id < symbols.functions.length := by
  obtain ⟨definition, found, -⟩ := (consistent.mem_named_iff other id).1 member
  exact (List.getElem?_eq_some_iff.1 found).1

variable (consistent : symbols.Consistent)

/-- Among earlier definitions the same one is chosen as before. -/
theorem choose?_eq (argumentCount : Option Nat) (scope : String) {candidates : List FunctionId}
    (earlier : ∀ id ∈ candidates, id < symbols.functions.length) :
    (SourceUnit.ofSymbols _ (consistent.withContract name bases definitions)).choose?
        argumentCount scope
        candidates =
      (SourceUnit.ofSymbols _ consistent).choose? argumentCount scope candidates := by
  have fitting : (SourceUnit.ofSymbols _ (consistent.withContract name bases definitions)).fitting
        argumentCount candidates =
      (SourceUnit.ofSymbols _ consistent).fitting argumentCount candidates := by
    cases argumentCount with
    | none => rfl
    | some count =>
        have same : candidates.filter
              ((symbols.withContract name bases definitions).hasArity count) =
            candidates.filter (symbols.hasArity count) :=
          List.filter_congr fun id member => by
            rw [hasArity, hasArity, function?_withContract bases (earlier id member)]
        exact congrArg (fun fit : List FunctionId => if fit.isEmpty then candidates else fit) same
  have own : ∀ id ∈ (SourceUnit.ofSymbols _ consistent).fitting argumentCount candidates,
      (symbols.withContract name bases definitions).isOwnedBy scope id =
        symbols.isOwnedBy scope id := by
    intro id member
    have lower := earlier id (SourceUnit.mem_of_mem_fitting _ member)
    rw [isOwnedBy, isOwnedBy, function?_withContract bases lower]
  simp only [SourceUnit.choose?, fitting, ← List.head?_filter]
  exact congrArg (Option.or · _) (congrArg List.head? (List.filter_congr own))

end Earlier

/-- A table knows nothing of a contract: its name is no scope and no base there, and the functions
of the contract are its own. -/
structure Unrelated (symbols : SymbolTable) (name : String) (definitions : List Definition) :
    Prop where
  fresh : name ∉ symbols.scopes
  unused : ∀ scope, name ∉ symbols.graph.bases scope
  owned : ∀ definition ∈ definitions, definition.owner = name

namespace Unrelated

variable {symbols : SymbolTable} {name : String} {definitions : List Definition}
  (unrelated : symbols.Unrelated name definitions) (bases : List String)
include unrelated

theorem ne_of_inherits {scope base : String} (known : scope ∈ symbols.scopes)
    (inherits : symbols.graph.Inherits scope base) : base ≠ name := by
  cases inherits with
  | refl => exact fun same => unrelated.fresh (same ▸ known)
  | tail _ direct => exact fun same => unrelated.unused _ (same ▸ direct)

/-- Known scopes inherit from the same scopes as before. -/
theorem inherits_iff {scope : String} (known : scope ∈ symbols.scopes) (base : String) :
    (symbols.withContract name bases definitions).graph.Inherits scope base ↔
      symbols.graph.Inherits scope base := by
  have direct : ∀ {middle next : String}, middle ≠ name →
      ((symbols.withContract name bases definitions).graph.HasBase middle next ↔
        symbols.graph.HasBase middle next) := by
    intro middle next away
    simp only [ScopeGraph.HasBase, graph_withContract, ScopeGraph.bases_add, away, if_false]
  constructor
  · intro inherits
    induction inherits with
    | refl => exact .refl
    | tail _ last ih => exact ih.tail ((direct (unrelated.ne_of_inherits known ih)).1 last)
  · intro inherits
    induction inherits with
    | refl => exact .refl
    | tail before last ih => exact ih.tail ((direct (unrelated.ne_of_inherits known before)).2 last)

variable (consistent : symbols.Consistent)
include consistent

/-- A condition that the new definitions do not meet selects the same definitions of a name. -/
theorem filter_named {condition earlier : FunctionId → Bool}
    (same : ∀ id < symbols.functions.length, condition id = earlier id)
    (missed : ∀ id definition, (symbols.withContract name bases definitions).function? id =
      some definition → definition.owner = name → condition id = false) (other : String) :
    ((symbols.withContract name bases definitions).named other).filter condition =
      (symbols.named other).filter earlier := by
  have later := consistent.withContract name bases definitions
  -- Both lists ascend, so it is enough that they have the same members.
  refine ((later.named_ascending other).filter _).eq_of_mem_iff
    ((consistent.named_ascending other).filter _) fun id => ?_
  rw [List.mem_filter, List.mem_filter, later.mem_named_iff, consistent.mem_named_iff]
  by_cases inside : id < symbols.functions.length
  · rw [function?_withContract bases inside, same id inside]
  · have unknown : symbols.function? id = none := List.getElem?_eq_none (Nat.le_of_not_lt inside)
    simp only [unknown, reduceCtorEq, false_and, exists_false, iff_false, not_and]
    rintro ⟨definition, found, -⟩ holds
    have added : definition ∈ definitions := by
      rw [function?, functions_withContract, List.getElem?_append_right (Nat.le_of_not_lt inside)]
        at found
      exact List.mem_of_getElem? found
    rw [missed id definition found (unrelated.owned definition added)] at holds
    cases holds

theorem isOwnedWithin_eq {scope : String} (known : scope ∈ symbols.scopes) {id : FunctionId}
    (inside : id < symbols.functions.length) :
    (SourceUnit.ofSymbols _ (consistent.withContract name bases definitions)).isOwnedWithin
        ((symbols.withContract name bases definitions).graph.reachableFrom scope) id =
      (SourceUnit.ofSymbols _ consistent).isOwnedWithin (symbols.graph.reachableFrom scope) id := by
  rw [Bool.eq_iff_iff, SourceUnit.isOwnedWithin_iff, SourceUnit.isOwnedWithin_iff]
  simp only [SourceUnit.ofSymbols, function?_withContract bases inside,
    ScopeGraph.mem_reachableFrom_iff, unrelated.inherits_iff bases known]

/-- From inside a known scope, a plain name reaches the same definitions as before. -/
theorem visible_eq {scope : String} (inside : scope ≠ "") (known : scope ∈ symbols.scopes)
    (other : String) :
    (SourceUnit.ofSymbols _ (consistent.withContract name bases definitions)).visible other scope =
      (SourceUnit.ofSymbols _ consistent).visible other scope := by
  have stillKnown : scope ∈ (symbols.withContract name bases definitions).scopes := by
    rw [scopes, graph_withContract, libraries_withContract]
    rcases List.mem_append.1 known with contract | library
    · exact List.mem_append_left _ ((ScopeGraph.mem_scopes_add _ _ _ _).2 (.inl contract))
    · exact List.mem_append_right _ library
  rw [SourceUnit.visible_of_declared _ inside stillKnown,
    SourceUnit.visible_of_declared _ inside known]
  refine unrelated.filter_named bases consistent
    (fun id lower => unrelated.isOwnedWithin_eq bases consistent known lower)
    (fun id definition found owned => ?_) other
  rw [Bool.eq_false_iff, ne_eq, SourceUnit.isOwnedWithin_iff]
  rintro ⟨target, same, member⟩
  obtain rfl := Option.some.inj (found.symm.trans same)
  rw [ScopeGraph.mem_reachableFrom_iff, unrelated.inherits_iff bases known] at member
  exact unrelated.ne_of_inherits known member owned

/-- Another owner has the same definitions of a name as before. -/
theorem ownedBy_eq {owner : String} (away : owner ≠ name) (other : String) :
    (SourceUnit.ofSymbols _ (consistent.withContract name bases definitions)).ownedBy other owner =
      (SourceUnit.ofSymbols _ consistent).ownedBy other owner := by
  refine unrelated.filter_named bases consistent (fun id lower => ?_)
    (fun id definition found owned => ?_) other
  · simp only [isOwnedBy, SourceUnit.ofSymbols, function?_withContract bases lower]
  · simp only [isOwnedBy, SourceUnit.ofSymbols, found, Option.any_some, owned]
    exact decide_eq_false (Ne.symm away)

end Unrelated

end SymbolTable

def CallSite.isOnThis (site : CallSite) : Bool :=
  match site.callee with
  | some (.member (some base) _) => base.isThis
  | _ => false

namespace SymbolTable.Unrelated

variable {symbols : SymbolTable} {name : String} {definitions : List Definition}
  (unrelated : symbols.Unrelated name definitions) (bases : List String)
  (consistent : symbols.Consistent)
include unrelated

/-- Calls from known scopes can name the same functions with a further contract. -/
theorem eligible_eq {scope : String} (inside : scope ≠ "") (known : scope ∈ symbols.scopes)
    {site : CallSite} (away : site.isOnThis = false) :
    (SourceUnit.ofSymbols _ (consistent.withContract name bases definitions)).eligible
        site.callee scope =
      (SourceUnit.ofSymbols _ consistent).eligible site.callee scope := by
  cases callee : site.callee with
  | none => rfl
  | some node =>
      cases node with
      | identifier other => exact unrelated.visible_eq bases consistent inside known other
      | member base other =>
          cases base with
          | none => rfl
          | some base =>
              have external : base.isThis = false := by
                simpa [CallSite.isOnThis, callee] using away
              -- Both tables have the same libraries.
              have libraries := symbols.isLibrary_withContract name bases definitions
              cases found : base.identifier?.filter symbols.isLibrary with
              | none =>
                  have later := found
                  rw [← libraries] at later
                  exact (SourceUnit.eligible_of_external _ later external other scope).trans
                    (SourceUnit.eligible_of_external _ found external other scope).symm
              | some library =>
                  have declared : library ∈ symbols.libraries := by
                    simpa [isLibrary] using (Option.filter_eq_some_iff.1 found).2
                  have foreign : library ≠ name := fun same =>
                    unrelated.fresh (same ▸ List.mem_append_right _ declared)
                  have later := found
                  rw [← libraries] at later
                  exact (SourceUnit.eligible_of_library _ later other scope).trans
                    ((unrelated.ownedBy_eq bases consistent foreign other).trans
                      (SourceUnit.eligible_of_library _ found other scope).symm)
      | _ => rfl

/-- A call from a known scope leads where it led before, unless it is made on `this`. -/
theorem resolve?_eq {scope : String} (inside : scope ≠ "") (known : scope ∈ symbols.scopes)
    {site : CallSite} (away : site.isOnThis = false) :
    (SourceUnit.ofSymbols _ (consistent.withContract name bases definitions)).resolve? site scope =
      (SourceUnit.ofSymbols _ consistent).resolve? site scope := by
  rw [SourceUnit.resolve?_eq_choose?, SourceUnit.resolve?_eq_choose?,
    unrelated.eligible_eq bases consistent inside known away]
  refine choose?_eq bases consistent site.argumentCount scope fun id member => ?_
  obtain ⟨other, named⟩ := SourceUnit.named_of_mem_eligible _ member
  exact consistent.named_lt named

/-- An analyzer of the table with the contract extends one of the table without it. -/
theorem analyzer_extends (options : Options)
    (inside : ∀ definition ∈ symbols.functions,
      definition.owner ≠ "" ∧ definition.owner ∈ symbols.scopes)
    (away : ∀ definition ∈ symbols.functions, ∀ site ∈ definition.calls, site.isOnThis = false) :
    (Analyzer.mk (.ofSymbols _ (consistent.withContract name bases definitions)) options).Extends
      (Analyzer.mk (.ofSymbols _ consistent) options) where
  options := rfl
  functions := ⟨definitions, symbols.functions_withContract name bases definitions⟩
  weight := by
    funext site isResolved
    simp only [SourceUnit.weight, SourceUnit.constructsOrEmits, SourceUnit.ofSymbols,
      isStructOrEvent_withContract]
    rfl
  resolve := fun definition member site call =>
    unrelated.resolve?_eq bases consistent (inside definition member).1 (inside definition member).2
      (away definition member site call)

end SymbolTable.Unrelated

theorem SourceUnit.ofSymbols_congr {symbols other : SymbolTable} (same : symbols = other)
    (consistent : symbols.Consistent) (otherConsistent : other.Consistent) :
    ofSymbols symbols consistent = ofSymbols other otherConsistent := by
  subst same
  rfl

/-! ## Trees with one contract more -/

def FunctionsOnly (declarations : List Declaration) : Prop :=
  ∀ declaration ∈ declarations, declaration.definition?.isSome

instance (declarations : List Declaration) : Decidable (FunctionsOnly declarations) :=
  inferInstanceAs (Decidable (∀ declaration ∈ declarations, declaration.definition?.isSome))

theorem FunctionsOnly.eq_map {declarations : List Declaration}
    (plain : FunctionsOnly declarations) :
    declarations = (declarations.filterMap Declaration.definition?).map .function := by
  induction declarations with
  | nil => rfl
  | cons declaration rest ih =>
      obtain ⟨function, later⟩ := List.forall_mem_cons.1 plain
      cases declaration with
      | function definition => exact congrArg (.function definition :: ·) (ih later)
      | _ => cases function

theorem SymbolTable.ofDeclarations_append_contract (declarations : List Declaration) (name : String)
    (bases : List String) {inner : List Declaration} (plain : FunctionsOnly inner) :
    ofDeclarations (declarations ++ .contract name bases :: inner) =
      (ofDeclarations declarations).withContract name bases
        (inner.filterMap Declaration.definition?) := by
  rw [ofDeclarations, List.foldl_append, withContract, ← plain.eq_map]
  rfl

theorem Node.declarations_other (owner tag : String) (parts : List Node) :
    (other tag parts).declarations owner = parts.flatMap (declarations owner) := by
  rw [declarations, declarationsOfAll_eq]

section Trees

variable {name kind : String} (tag : String) (parts : List Node) {members : List Node}
  (bases : List String) (named : name ≠ "") (isContract : kind ≠ Node.libraryKind)
include named isContract

theorem Node.declarations_contract (owner : String) :
    (contract name kind bases members).declarations owner =
      .contract name bases :: declarationsOfAll name members := by
  simp [declarations, contractDeclaration, ownerWithin, named, isContract]

theorem SymbolTable.ofTree_contract_functions :
    (ofTree (.contract name kind bases members)).functions =
      (Node.declarationsOfAll name members).filterMap Declaration.definition? := by
  rw [ofTree, Node.declarations_contract bases named isContract, functions_ofDeclarations]
  rfl

/-- A tree with one contract more has the table with that contract. -/
theorem SymbolTable.ofTree_append_contract
    (plain : FunctionsOnly (Node.declarationsOfAll name members)) :
    ofTree (.other tag (parts ++ [.contract name kind bases members])) =
      (ofTree (.other tag parts)).withContract name bases
        (ofTree (.contract name kind bases members)).functions := by
  have declarations :
      (Node.other tag (parts ++ [.contract name kind bases members])).declarations "" =
      (Node.other tag parts).declarations "" ++
        .contract name bases :: Node.declarationsOfAll name members := by
    rw [Node.declarations_other, Node.declarations_other, List.flatMap_append,
      List.flatMap_singleton, Node.declarations_contract bases named isContract]
  rw [ofTree, declarations, ofDeclarations_append_contract _ _ _ plain,
    ofTree_contract_functions bases named isContract]
  rfl

end Trees

/-- Functions of a contract that declares functions only belong to it. -/
theorem Node.owner_of_functionsOnly {name : String} {members : List Node}
    (plain : FunctionsOnly (declarationsOfAll name members)) {definition : Definition}
    (member : .function definition ∈ declarationsOfAll name members) : definition.owner = name := by
  have inside := declarationsOfAll_eq name members
  rw [inside, List.mem_flatMap] at member
  obtain ⟨node, listed, declared⟩ := member
  refine (owner_declared declared).resolve_right ?_
  rintro ⟨declaration, below, scope⟩
  have function := plain declaration (inside ▸ List.mem_flatMap.2 ⟨node, listed, below⟩)
  cases declaration with
  | function other => cases scope
  | _ => cases function

/-- Unrelated contracts do not disturb each other. Take a root in which every function belongs to a
scope and makes no call on `this`, and append a contract that declares functions only, whose name is
no scope and no base in the root. For all options the rows of the analysis are those of the root,
traces included, followed by one row for each function of the contract, whatever names and arities
these have. -/
theorem analyze_append_contract (options : Options) (tag : String) (parts : List Node)
    (name kind : String) (bases : List String) (members : List Node)
    (inside : ∀ definition ∈ (SymbolTable.ofTree (.other tag parts)).functions,
      definition.owner ≠ "")
    (away : ∀ definition ∈ (SymbolTable.ofTree (.other tag parts)).functions,
      ∀ site ∈ definition.calls, site.isOnThis = false)
    (named : name ≠ "") (isContract : kind ≠ Node.libraryKind)
    (fresh : name ∉ (SymbolTable.ofTree (.other tag parts)).scopes)
    (unused : ∀ declaration ∈ (Node.other tag parts).declarations "", name ∉ declaration.bases)
    (plain : FunctionsOnly (Node.declarationsOfAll name members)) :
    let addition := Node.contract name kind bases members
    let own := (SymbolTable.ofTree addition).functions
    (∀ definition ∈ own, definition.owner = name) ∧
      ∃ outcomes : List Outcome, outcomes.length = own.length ∧
        (analyze options (.other tag (parts ++ [addition]))).rows =
          (analyze options (.other tag parts)).rows ++
            List.zipWith Definition.measured own outcomes := by
  intro addition own
  have owned : ∀ definition ∈ own, definition.owner = name := by
    intro definition member
    rw [show own = _ from SymbolTable.ofTree_contract_functions bases named isContract] at member
    rw [← SymbolTable.functions_ofDeclarations] at member
    exact Node.owner_of_functionsOnly plain ((SymbolTable.mem_functions_iff _).1 member)
  have unrelated : (SymbolTable.ofTree (.other tag parts)).Unrelated name own := by
    refine ⟨fresh, fun scope member => ?_, owned⟩
    rw [SymbolTable.ofTree, SymbolTable.bases_ofDeclarations] at member
    obtain ⟨declaration, declared, base⟩ := declared_of_mem_lastBases member
    exact unused declaration declared base
  have table := SymbolTable.ofTree_append_contract tag parts bases named isContract plain
  have extension := unrelated.analyzer_extends bases
    (SymbolTable.consistent_ofTree _) options
    (fun definition member => ⟨inside definition member,
      SymbolTable.owner_mem_scopes member (inside definition member)⟩) away
  refine ⟨owned, ?_⟩
  obtain ⟨outcomes, length, rows⟩ := extension.exists_rows (SymbolTable.functions_withContract ..)
  refine ⟨outcomes, length, ?_⟩
  have unit : SourceUnit.ofTree (.other tag (parts ++ [addition])) =
      .ofSymbols _ ((SymbolTable.consistent_ofTree _).withContract name bases own) :=
    SourceUnit.ofSymbols_congr table _ _
  rw [← unit] at rows
  exact rows

/-- A body that calls functions by their names, one after another. -/
def bodyCalling (names : List String) : Node :=
  .other "Block" (names.map fun name => .call false (some (.identifier name)) (some 0) [])

/-- Two contracts: in the first, two functions call each other, and the second inherits them. -/
def relayParts : List Node :=
  let function (name callee : String) : Node :=
    .function name 0 "public" "" (some (bodyCalling [callee])) []
  [.contract "Relay" "contract" [] [function "ping" "pong", function "pong" "ping"],
    .contract "Tower" "contract" ["Relay"] [function "send" "ping"]]

/-- Functions of the same names and arities, which call nothing and each other. -/
def echoMembers : List Node :=
  [.function "ping" 0 "public" "" none [],
    .function "pong" 0 "public" "" (some (bodyCalling ["ping", "send"])) []]

/-- An echo that inherits from the tower and redefines its functions leaves both alone. -/
theorem relay_append_echo :
    "Echo" ∉ (SymbolTable.ofTree (.other "SourceUnit" relayParts)).scopes ∧
    FunctionsOnly (Node.declarationsOfAll "Echo" echoMembers) ∧
    ∃ outcomes : List Outcome, outcomes.length = 2 ∧
      (analyze { trace := true } (.other "SourceUnit"
          (relayParts ++ [.contract "Echo" "contract" ["Tower"] echoMembers]))).rows =
        (analyze { trace := true } (.other "SourceUnit" relayParts)).rows ++
          List.zipWith Definition.measured (SymbolTable.ofTree
            (.contract "Echo" "contract" ["Tower"] echoMembers)).functions outcomes := by
  have fresh : "Echo" ∉ (SymbolTable.ofTree (.other "SourceUnit" relayParts)).scopes := by
    decide +kernel
  have plain : FunctionsOnly (Node.declarationsOfAll "Echo" echoMembers) := by decide +kernel
  obtain ⟨-, outcomes, length, rows⟩ := analyze_append_contract { trace := true } "SourceUnit"
    relayParts "Echo" "contract" ["Tower"] echoMembers (by decide +kernel) (by decide +kernel)
    (by decide) (by decide) fresh (by decide +kernel) plain
  exact ⟨fresh, plain, outcomes, length, rows⟩

end CallDepth
