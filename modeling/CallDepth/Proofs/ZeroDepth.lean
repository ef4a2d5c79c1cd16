/-
# Depth zero

A function has depth 0 exactly when it costs nothing: it reaches no cycle of calls, and every call
in its body and in the bodies it reaches weighs 0 (`depth_eq_zero_iff`). A free call can lead to a
function of the unit, one that has the name of a struct, an event or an elementary type, so zero has
to be followed through callees.

* Depth 0 is handed on to callees: a recursive call would have counted as 1, so each callee was
  completed before with depth 0 (`Settled.callee_depth_eq_zero`), and a definition on a cycle never
  has depth 0.
* In the order of completion, a function that costs nothing gets depth 0, since its callees cost
  nothing either and none of them leads back (`History.depth_eq_zero`).
-/
import CallDepth.Proofs.HeaviestPath

namespace CallDepth

open Relation

theorem largest_eq_zero_iff {numbers : List Nat} :
    largest numbers = 0 ↔ ∀ number ∈ numbers, number = 0 := by
  simp only [← Nat.le_zero, largest_le_iff]

namespace SourceUnit

/-- A function reaches no cycle, and all calls in its body and in those it reaches weigh nothing. -/
structure CostsNothing (unit : SourceUnit) (id : FunctionId) : Prop where
  acyclic : ∀ other, unit.Reaches id other → ¬ unit.OnCycle other
  free : ∀ other definition site, unit.Reaches id other →
    unit.symbols.function? other = some definition → site ∈ definition.calls →
    unit.weight site (unit.resolve? site definition.owner).isSome = 0

variable {unit : SourceUnit} {depths : FunctionId → Nat}

theorem CostsNothing.callee {id callee : FunctionId} (nothing : unit.CostsNothing id)
    (calls : unit.Calls id callee) : unit.CostsNothing callee where
  acyclic := fun other reaches => nothing.acyclic other (.head calls reaches)
  free := fun other definition site reaches =>
    nothing.free other definition site (.head calls reaches)

theorem costsNothing_of_calls_eq_nil {id : FunctionId} {definition : Definition}
    (defined : unit.symbols.function? id = some definition) (silent : definition.calls = []) :
    unit.CostsNothing id := by
  have stuck : ∀ callee, ¬ unit.Calls id callee := by
    rintro callee ⟨caller, site, found, inside, -⟩
    obtain rfl : definition = caller := Option.some.inj (defined.symm.trans found)
    rw [silent] at inside
    exact absurd inside List.not_mem_nil
  have alone : ∀ other, unit.Reaches id other → other = id := by
    intro other reaches
    rcases ReflTransGen.cases_head reaches with same | ⟨callee, calls, -⟩
    · exact same.symm
    · exact absurd calls (stuck callee)
  refine ⟨fun other reaches cycle => ?_, fun other caller site reaches found inside => ?_⟩
  · rw [alone other reaches] at cycle
    obtain ⟨callee, calls, -⟩ := TransGen.head'_iff.1 cycle
    exact stuck callee calls
  · rw [alone other reaches, defined, Option.some.injEq] at found
    rw [← found, silent] at inside
    exact absurd inside List.not_mem_nil

/-- A call that weighs nothing and leads to nothing that counts. -/
def Idle (unit : SourceUnit) (owner : String) (depths : FunctionId → Nat) (site : CallSite) :
    Prop :=
  unit.weight site (unit.resolve? site owner).isSome = 0 ∧
    (unit.resolve? site owner).elim 0 depths = 0

theorem largest_nodeDepth_eq_zero_iff {owner : String} {nodes : List Node}
    (each : ∀ node ∈ nodes, unit.nodeDepth owner depths node = 0 ↔
      ∀ site ∈ node.calls, unit.Idle owner depths site) :
    largest (nodes.map (unit.nodeDepth owner depths)) = 0 ↔
      ∀ site ∈ nodes.flatMap Node.calls, unit.Idle owner depths site := by
  rw [largest_eq_zero_iff, List.forall_mem_map, List.forall_mem_flatMap]
  exact forall₂_congr each

/-- A node has depth 0 exactly when all its calls are idle. -/
theorem nodeDepth_eq_zero_iff {owner : String} (node : Node) :
    unit.nodeDepth owner depths node = 0 ↔
      ∀ site ∈ node.calls, unit.Idle owner depths site := by
  induction node using Node.children_induction with
  | site site operands callee =>
      rw [nodeDepth_site, Node.calls_site, List.forall_mem_append, List.forall_mem_append,
        ← largest_nodeDepth_eq_zero_iff operands, ← largest_nodeDepth_eq_zero_iff callee,
        List.forall_mem_singleton, Idle]
      omega
  | plain node plain children =>
      rw [nodeDepth_of_plain plain, Node.calls_of_plain plain]
      exact largest_nodeDepth_eq_zero_iff children

theorem bodyDepth_eq_zero_iff {definition : Definition} :
    unit.bodyDepth definition depths = 0 ↔
      ∀ site ∈ definition.calls, unit.Idle definition.owner depths site := by
  unfold bodyDepth Definition.calls
  cases definition.body with
  | none => simp
  | some body => exact nodeDepth_eq_zero_iff body

end SourceUnit

namespace Analyzer

variable {analyzer : Analyzer} {id : FunctionId} {outcome : Outcome}

theorem Settled.callee_depth_eq_zero {engine : Engine} (settled : analyzer.Settled engine)
    (found : engine.outcome? id = some outcome) (zero : outcome.depth = 0) {callee : FunctionId}
    (calls : analyzer.unit.Calls id callee) :
    ∃ result, engine.outcome? callee = some result ∧ result.depth = 0 := by
  obtain ⟨older, -, -, -, measured, -, kept⟩ := settled.history.origin found
  have bound := presumed_depth_le calls older
  rw [← measured, zero] at bound
  cases known : older.lookup callee with
  | some result =>
      rw [presumed_of_found known] at bound
      exact ⟨result, kept callee result known, Nat.le_zero.1 bound⟩
  | none =>
      rw [presumed_of_missing known] at bound
      exact absurd bound (Nat.not_succ_le_zero 0)

theorem Settled.reached_depth_eq_zero {engine : Engine} (settled : analyzer.Settled engine)
    (found : engine.outcome? id = some outcome) (zero : outcome.depth = 0) {other : FunctionId}
    (reaches : analyzer.unit.Reaches id other) :
    ∃ result, engine.outcome? other = some result ∧ result.depth = 0 := by
  induction reaches with
  | refl => exact ⟨outcome, found, zero⟩
  | tail _ calls ih =>
      obtain ⟨result, known, resultZero⟩ := ih
      exact settled.callee_depth_eq_zero known resultZero calls

/-- A function of depth 0 costs nothing. -/
theorem Settled.costsNothing {engine : Engine} (settled : analyzer.Settled engine)
    (found : engine.outcome? id = some outcome) (zero : outcome.depth = 0) :
    analyzer.unit.CostsNothing id where
  acyclic := by
    intro other reaches cycle
    obtain ⟨result, known, resultZero⟩ := settled.reached_depth_eq_zero found zero reaches
    have positive := settled.depth_pos known cycle
    omega
  free := by
    intro other definition site reaches defined inside
    obtain ⟨result, known, resultZero⟩ := settled.reached_depth_eq_zero found zero reaches
    obtain ⟨older, -, -, -, measured, -, -⟩ := settled.history.origin known
    rw [measured, conclude_depth defined, SourceUnit.bodyDepth_eq_zero_iff] at resultZero
    exact (resultZero site inside).1

/-- A function that costs nothing has depth 0. -/
theorem History.depth_eq_zero {memo : List (FunctionId × Outcome)} {log : List CallEvent}
    (history : analyzer.History memo log) (found : memo.lookup id = some outcome)
    (nothing : analyzer.unit.CostsNothing id) : outcome.depth = 0 := by
  refine history.remembered_induction
    (motive := fun id outcome => analyzer.unit.CostsNothing id → outcome.depth = 0)
    ?_ found nothing
  intro older id _ earlier back nothing
  cases defined : analyzer.unit.symbols.function? id with
  | none =>
      rw [conclude, defined]
      rfl
  | some definition =>
      rw [conclude_depth defined, SourceUnit.bodyDepth_eq_zero_iff]
      intro site inside
      refine ⟨nothing.free id definition site .refl defined inside, ?_⟩
      cases resolved : analyzer.unit.resolve? site definition.owner with
      | none => rfl
      | some callee =>
          have calls : analyzer.unit.Calls id callee :=
            ⟨definition, site, defined, inside, resolved⟩
          rw [Option.elim_some]
          cases known : older.lookup callee with
          | some result =>
              rw [presumed_of_found known]
              exact earlier callee result known (nothing.callee calls)
          | none =>
              -- An open callee would close a cycle.
              have common := calls.onCommonCycle (back callee calls known)
              exact absurd common.onCycle.1 (nothing.acyclic id .refl)

theorem Settled.depth_eq_zero_iff_costsNothing {engine : Engine} (settled : analyzer.Settled engine)
    (found : engine.outcome? id = some outcome) :
    outcome.depth = 0 ↔ analyzer.unit.CostsNothing id :=
  ⟨settled.costsNothing found, settled.history.depth_eq_zero found⟩

/-- A remembered depth, and the next answer of the engine, is 0 exactly for a function that costs
nothing. A function without calls is one, and the order of the measurements does not matter. -/
theorem depth_eq_zero_iff (analyzer : Analyzer) (id : FunctionId) :
    (∀ ids outcome, (analyzer.after ids).outcome? id = some outcome →
      (outcome.depth = 0 ↔ analyzer.unit.CostsNothing id)) ∧
    (∀ ids, (analyzer.depth (analyzer.after ids) id).1.depth = 0 ↔
      analyzer.unit.CostsNothing id) ∧
    (∀ definition, analyzer.unit.symbols.function? id = some definition → definition.calls = [] →
      ∀ ids, (analyzer.depth (analyzer.after ids) id).1.depth = 0) ∧
    ∀ first second outcome other, (analyzer.after first).outcome? id = some outcome →
      (analyzer.after second).outcome? id = some other → (outcome.depth = 0 ↔ other.depth = 0) := by
  have remembered : ∀ ids outcome, (analyzer.after ids).outcome? id = some outcome →
      (outcome.depth = 0 ↔ analyzer.unit.CostsNothing id) :=
    fun ids _ found => (after_settled ids).depth_eq_zero_iff_costsNothing found
  have answered : ∀ ids, (analyzer.depth (analyzer.after ids) id).1.depth = 0 ↔
      analyzer.unit.CostsNothing id := by
    intro ids
    obtain ⟨settled, -, found⟩ := (after_settled ids).depth id
    exact settled.depth_eq_zero_iff_costsNothing found
  refine ⟨remembered, answered, fun definition defined silent ids => ?_,
    fun first second outcome other found again => ?_⟩
  · exact (answered ids).2 (SourceUnit.costsNothing_of_calls_eq_nil defined silent)
  · rw [remembered first outcome found, remembered second other again]

/-- Functions named like a struct and an event: `place` calls `Order` with a converted number, and
`Placed` calls itself. All calls are free. -/
def book : Analyzer where
  unit := .ofTree <| .contract "Book" "contract" [] [
    .struct "Order" [],
    .event "Placed" [],
    .function "place" 1 "public" ""
      (some (.call false (some (.identifier "Order")) (some 1) [
        .call false (some (.elementaryType "uint256")) (some 1) [.identifier "n"]])) [],
    .function "Order" 1 "public" "" none [],
    .function "Placed" 0 "public" ""
      (some (.call false (some (.identifier "Placed")) (some 0) [])) []]
  options := {}

/-- `place` calls a function for nothing. `Placed` only makes free calls too, and counts for its
cycle. -/
theorem book_depth_eq_zero_iff :
    book.unit.Calls 0 1 ∧ book.unit.CostsNothing 0 ∧ book.unit.CostsNothing 1 ∧
      ((book.depth (book.after [1]) 0).1.depth = 0 ↔ book.unit.CostsNothing 0) ∧
      (∀ site ∈ book.unit.callsOf 2, book.unit.visitWeight ⟨2, site⟩ = 0) ∧
      (book.depth (book.after [0]) 2).1.depth = 1 ∧ ¬ book.unit.CostsNothing 2 := by
  have place : ∃ outcome, (book.after [0]).outcome? 0 = some outcome ∧ outcome.depth = 0 := by
    refine ⟨(book.depth {} 0).1, ?_, ?_⟩ <;> decide +kernel
  obtain ⟨outcome, found, zero⟩ := place
  have order : ∃ definition, book.unit.symbols.function? 1 = some definition ∧
      definition.calls = [] :=
    ⟨_, rfl, by decide +kernel⟩
  obtain ⟨definition, defined, silent⟩ := order
  have orderZero := (depth_eq_zero_iff book 1).2.2.1 definition defined silent []
  have placedDepth : (book.depth (book.after [0]) 2).1.depth = 1 := by decide +kernel
  refine ⟨by decide +kernel, ((depth_eq_zero_iff book 0).1 [0] outcome found).1 zero,
    ((depth_eq_zero_iff book 1).2.1 []).1 orderZero, (depth_eq_zero_iff book 0).2.1 [1],
    by decide +kernel, placedDepth, fun nothing => ?_⟩
  have zero := ((depth_eq_zero_iff book 2).2.1 [0]).2 nothing
  omega

end Analyzer

end CallDepth
