/-
# Narration is complete and without repetition

A walk that is given up has narrated nothing: the log grows only in the turn that completes a
definition, and then by one event for each call of its body. So the log can be read off the memo
(`History.log_eq_narration`), and it does not tell how often walks were given up.

* `SourceUnit.callEvent` is the event of a call, from the depths that functions count with.
* `measure_events`: the events of a walk are those of the calls of the node, in evaluation order.
* `Analyzer.narration` puts the events of completed definitions one after another, in the order of
  completion. The memo holds the latest definition first.
-/
import CallDepth.Proofs.BodyDepth
import CallDepth.Proofs.Coverage

namespace CallDepth

namespace SourceUnit

variable (unit : SourceUnit)

/-- The depths of the parts of a call when every function counts with a given depth. -/
def callParts (owner : String) (depths : FunctionId → Nat) (site : CallSite) : Parts where
  arg := largest (site.operands.map (unit.nodeDepth owner depths))
  expr := largest (site.callee.toList.map (unit.nodeDepth owner depths))
  callee := (unit.resolve? site owner).elim 0 depths

/-- The event of a call in a body when every function counts with a given depth. -/
def callEvent (definition : Definition) (depths : FunctionId → Nat) (site : CallSite) : CallEvent :=
  let weight := unit.weight site (unit.resolve? site definition.owner).isSome
  let parts := unit.callParts definition.owner depths site
  { function := definition.name
    label := site.label
    weight, parts
    total := weight + parts.max
    via := parts.dominant }

end SourceUnit

namespace Analyzer

/-- The events of calls in a body: none, unless the function is narrated. -/
def narrate (analyzer : Analyzer) (definition : Definition) (depths : FunctionId → Nat)
    (sites : List CallSite) : List CallEvent :=
  if analyzer.options.narrates definition.name then
    sites.map (analyzer.unit.callEvent definition depths)
  else []

section Walks

variable (analyzer : Analyzer) (caller : Definition) (outcomes : FunctionId → Outcome)

theorem narrate_append (depths : FunctionId → Nat) (sites more : List CallSite) :
    analyzer.narrate caller depths (sites ++ more) =
      analyzer.narrate caller depths sites ++ analyzer.narrate caller depths more := by
  unfold narrate
  split <;> simp

theorem deepest_measure_events {nodes : List Node}
    (each : ∀ node ∈ nodes, (analyzer.measure caller outcomes node).events =
      analyzer.narrate caller (fun id => (outcomes id).depth) node.calls) :
    (Walk.deepest (nodes.map (analyzer.measure caller outcomes))).events =
      analyzer.narrate caller (fun id => (outcomes id).depth) (nodes.flatMap Node.calls) := by
  simp only [Walk.deepest, List.flatMap_map]
  induction nodes with
  | nil => simp [narrate]
  | cons node rest ih =>
      have tail := ih fun other member => each other (List.mem_cons_of_mem _ member)
      rw [List.flatMap_cons, List.flatMap_cons, narrate_append, tail,
        each node List.mem_cons_self]

theorem callParts_eq (site : CallSite) :
    analyzer.unit.callParts caller.owner (fun id => (outcomes id).depth) site =
      ⟨(Walk.deepest (site.operands.map (analyzer.measure caller outcomes))).outcome.depth,
        (Walk.deepest (site.callee.toList.map (analyzer.measure caller outcomes))).outcome.depth,
        (((analyzer.unit.resolve? site caller.owner).map outcomes).getD .floor).depth⟩ := by
  simp only [SourceUnit.callParts, deepest_measure_depth, measure_depth]
  cases analyzer.unit.resolve? site caller.owner <;> rfl

theorem measure_site_events (site : CallSite) :
    (analyzer.measure caller outcomes site.node).events =
      (Walk.deepest (site.operands.map (analyzer.measure caller outcomes))).events ++
        (Walk.deepest (site.callee.toList.map (analyzer.measure caller outcomes))).events ++
        analyzer.narrate caller (fun id => (outcomes id).depth) [site] := by
  simp only [measure_site, measureCall, narrate, SourceUnit.callEvent, callParts_eq,
    Option.isSome_map, List.map_cons, List.map_nil]

/-- The events of a walk are those of the calls of the node, in evaluation order. -/
theorem measure_events (node : Node) :
    (analyzer.measure caller outcomes node).events =
      analyzer.narrate caller (fun id => (outcomes id).depth) node.calls := by
  induction node using Node.children_induction with
  | site site operands callee =>
      rw [measure_site_events, deepest_measure_events _ _ _ operands,
        deepest_measure_events _ _ _ callee, Node.calls_site, narrate_append, narrate_append]
  | plain node plain children =>
      rw [measure_of_plain _ _ _ plain, deepest_measure_events _ _ _ children,
        Node.calls_of_plain plain]

end Walks

/-! ## The log of a run -/

/-- The narration of a definition on top of a memo. -/
def narrationOf (analyzer : Analyzer) (memo : List (FunctionId × Outcome)) (id : FunctionId) :
    List CallEvent :=
  match analyzer.unit.symbols.function? id with
  | none => []
  | some definition =>
      analyzer.narrate definition (fun callee => (analyzer.presumed memo callee).depth)
        definition.calls

/-- The narrations of completed definitions one after another, each on top of the memo it was
completed on. -/
def narration (analyzer : Analyzer) : List (FunctionId × Outcome) → List CallEvent
  | [] => []
  | (id, _) :: earlier => analyzer.narration earlier ++ analyzer.narrationOf earlier id

variable {analyzer : Analyzer}

/-- A concluded definition is narrated once. -/
theorem conclude_events (memo : List (FunctionId × Outcome)) (id : FunctionId) :
    (analyzer.conclude memo id).events = analyzer.narrationOf memo id := by
  unfold conclude narrationOf
  cases analyzer.unit.symbols.function? id with
  | none => rfl
  | some definition =>
      simp only [measureBody, walkBody, Definition.calls]
      cases definition.body with
      | none => simp [narrate, Walk.deepest]
      | some body => exact analyzer.measure_events definition _ body

/-- The log can be read off the memo. -/
theorem History.log_eq_narration {memo : List (FunctionId × Outcome)} {log : List CallEvent}
    (history : analyzer.History memo log) : log = analyzer.narration memo := by
  induction history with
  | start => rfl
  | complete earlier fresh back ih => rw [narration, ← conclude_events, ← ih]

theorem History.keys_nodup {memo : List (FunctionId × Outcome)} {log : List CallEvent}
    (history : analyzer.History memo log) : (Assoc.keys memo).Nodup := by
  induction history with
  | start => exact List.nodup_nil
  | complete earlier fresh back ih =>
      exact List.nodup_cons.2 ⟨Assoc.not_mem_keys_of_lookup fresh, ih⟩

/-- A turn leaves memo and log as they are, or it completes a definition and narrates it. -/
theorem step_narrates (machine : Machine) :
    ((analyzer.step machine).engine.memo = machine.engine.memo ∧
      (analyzer.step machine).engine.log = machine.engine.log) ∨
    ∃ id outcome, (analyzer.step machine).engine.memo = (id, outcome) :: machine.engine.memo ∧
      (analyzer.step machine).engine.log =
        machine.engine.log ++ analyzer.narrationOf machine.engine.memo id := by
  obtain ⟨engine, stack, last⟩ := machine
  cases stack with
  | nil => exact .inl ⟨rfl, rfl⟩
  | cons id rest =>
      rcases analyzer.step_cases engine id rest last with ⟨next, -, -, -, stepped⟩ | ⟨-, stepped⟩
      · rw [stepped]
        exact .inl ⟨rfl, rfl⟩
      · rw [stepped]
        refine .inr ⟨id, _, rfl, ?_⟩
        rw [← conclude_events]
        rfl

/-! ## The number of events -/

/-- The calls of a definition that are narrated: all of its body or none. -/
def narratedCalls (options : Options) (definition : Definition) : List CallSite :=
  if options.narrates definition.name then definition.calls else []

theorem length_narrationOf (memo : List (FunctionId × Outcome)) (id : FunctionId) :
    (analyzer.narrationOf memo id).length =
      ((analyzer.unit.symbols.function? id).toList.flatMap
        (narratedCalls analyzer.options)).length := by
  unfold narrationOf
  cases analyzer.unit.symbols.function? id with
  | none => rfl
  | some definition =>
      simp only [narrate, Option.toList_some, List.flatMap_singleton, narratedCalls]
      split <;> simp

theorem length_narration (memo : List (FunctionId × Outcome)) :
    (analyzer.narration memo).length =
      ((Assoc.keys memo).flatMap fun id =>
        (analyzer.unit.symbols.function? id).toList.flatMap
          (narratedCalls analyzer.options)).length := by
  induction memo with
  | nil => rfl
  | cons entry earlier ih =>
      obtain ⟨id, outcome⟩ := entry
      have keys : Assoc.keys ((id, outcome) :: earlier) = id :: Assoc.keys earlier := rfl
      rw [narration, keys, List.flatMap_cons, List.length_append, List.length_append, ih,
        length_narrationOf]
      omega

theorem flatMap_range_getElem? {α β : Type} (items : List α) (f : α → List β) :
    ((List.range items.length).flatMap fun place => items[place]?.toList.flatMap f) =
      items.flatMap f := by
  induction items with
  | nil => rfl
  | cons item rest ih =>
      rw [List.length_cons, List.range_succ_eq_map, List.flatMap_cons, List.flatMap_map,
        List.flatMap_cons, ← ih]
      simp

/-- An analysis completes every definition once, in some order. -/
theorem measureAll_keys_perm (analyzer : Analyzer) :
    (Assoc.keys analyzer.measureAll.2.memo).Perm
      (List.range analyzer.unit.symbols.functions.length) := by
  have settled := analyzer.after_settled (List.range analyzer.unit.symbols.functions.length)
  rw [← measureAll_engine] at settled
  refine (List.perm_ext_iff_of_nodup settled.history.keys_nodup List.nodup_range).2 fun id => ?_
  rw [Assoc.mem_keys_iff, List.mem_range]
  exact completed_measureAll_iff analyzer id

/-- An analysis narrates each call of the narrated functions. -/
theorem length_measureAll_log (analyzer : Analyzer) :
    analyzer.measureAll.2.log.length =
      (analyzer.unit.symbols.functions.flatMap (narratedCalls analyzer.options)).length := by
  have settled := analyzer.after_settled (List.range analyzer.unit.symbols.functions.length)
  rw [← measureAll_engine] at settled
  rw [settled.history.log_eq_narration, length_narration,
    ((measureAll_keys_perm analyzer).flatMap_right _).length_eq]
  exact congrArg List.length (flatMap_range_getElem? _ _)

theorem flatMap_narratedCalls {options : Options} (verbose : options.verbose = true)
    (definitions : List Definition) :
    definitions.flatMap (narratedCalls options) =
      (definitions.filter fun definition =>
        options.target.all (· = definition.name)).flatMap Definition.calls := by
  induction definitions with
  | nil => rfl
  | cons definition rest ih =>
      rw [List.flatMap_cons, ih, narratedCalls, Options.narrates, verbose, Bool.true_and,
        List.filter_cons]
      split
      · rw [List.flatMap_cons]
      · rfl

theorem countP_analyze_events {root : Node} (same : analyzer.unit = SourceUnit.ofTree root) :
    (analyze analyzer.options root).events.countP (·.message = "[CALL]") =
      analyzer.measureAll.2.log.length := by
  rw [analyze, ← same]
  simp [List.countP_map, Function.comp_def, Event.message, SymbolTable.collectedEvent]

/-- Narration is complete and without repetition. When calls are narrated, the log after any
measurements is the narration of the completed definitions in the order of completion, each of
them once: a turn changes neither memo nor log, or it completes a definition and narrates it. The
narration of a definition is empty when a target of another name is set. Otherwise it has one event
for each call of the body, in evaluation order. So an analysis tells of every call of the narrated
definitions once, however often walks were given up. -/
theorem narration_exact (analyzer : Analyzer) (verbose : analyzer.options.verbose = true) :
    (∀ ids, (analyzer.after ids).log = analyzer.narration (analyzer.after ids).memo ∧
      (Assoc.keys (analyzer.after ids).memo).Nodup) ∧
    (∀ machine, ((analyzer.step machine).engine.memo = machine.engine.memo ∧
        (analyzer.step machine).engine.log = machine.engine.log) ∨
      ∃ id outcome, (analyzer.step machine).engine.memo = (id, outcome) :: machine.engine.memo ∧
        (analyzer.step machine).engine.log =
          machine.engine.log ++ analyzer.narrationOf machine.engine.memo id) ∧
    (∀ memo id definition, analyzer.unit.symbols.function? id = some definition →
      (∀ target, analyzer.options.target = some target → target ≠ definition.name →
        analyzer.narrationOf memo id = []) ∧
      ((∀ target, analyzer.options.target = some target → target = definition.name) →
        analyzer.narrationOf memo id = definition.calls.map (analyzer.unit.callEvent definition
          fun callee => (analyzer.presumed memo callee).depth))) ∧
    ∀ root, analyzer.unit = SourceUnit.ofTree root →
      (analyze analyzer.options root).events.countP (·.message = "[CALL]") =
        ((analyzer.unit.symbols.functions.filter fun definition =>
          analyzer.options.target.all (· = definition.name)).flatMap Definition.calls).length := by
  refine ⟨fun ids => ?_, step_narrates, fun memo id definition found => ⟨?_, ?_⟩,
    fun root same => ?_⟩
  · have history := (analyzer.after_settled ids).history
    exact ⟨history.log_eq_narration, history.keys_nodup⟩
  · intro target set apart
    simp [narrationOf, found, narrate, Options.narrates, set, apart]
  · intro named
    have narrated : analyzer.options.narrates definition.name = true := by
      cases set : analyzer.options.target with
      | none => simp [Options.narrates, verbose, set]
      | some target => simp [Options.narrates, verbose, set, named target set]
    simp [narrationOf, found, narrate, narrated]
  · rw [countP_analyze_events same, length_measureAll_log, flatMap_narratedCalls verbose]

/-- Three functions: the first waits for the other two in turn, and the second leads back to it. -/
def ledgerTree : Node :=
  .contract "Ledger" "contract" [] [
    .function "post" 0 "public" ""
      (some (.other "Block" [
        .call false (some (.identifier "check")) (some 0) [],
        .call false (some (.identifier "record")) (some 1) [
          .call false (some (.identifier "sha256")) (some 1) [.identifier "entry"]]])) [],
    .function "check" 0 "public" "" (some (.call false (some (.identifier "post")) (some 0) [])) [],
    .function "record" 1 "public" "" none []]

def ledger : Analyzer where
  unit := .ofTree ledgerTree
  options := { verbose := true }

/-- The body of `post` is walked three times and narrated once, after that of `check`. -/
theorem ledger_narration_exact :
    ledger.options.verbose = true ∧ ledger.evaluations {} 0 = 5 ∧
      (ledger.after [0]).log = ledger.narration (ledger.after [0]).memo ∧
      (ledger.after [0]).log.map (fun event => (event.function, event.label, event.total)) =
        [("check", "post", 2), ("post", "check", 3), ("post", "sha256", 1), ("post", "record", 2)] ∧
      (analyze ledger.options ledgerTree).events.countP (·.message = "[CALL]") =
        ((ledger.unit.symbols.functions.filter fun definition =>
          ledger.options.target.all (· = definition.name)).flatMap Definition.calls).length ∧
      (analyze ledger.options ledgerTree).events.countP (·.message = "[CALL]") = 4 := by
  obtain ⟨logs, -, -, count⟩ := narration_exact ledger rfl
  exact ⟨rfl, by decide +kernel, (logs [0]).1, by decide +kernel, count ledgerTree rfl,
    by decide +kernel⟩

end Analyzer

end CallDepth
