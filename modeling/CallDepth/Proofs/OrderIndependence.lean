/-
# Independence of the order of measurements

What the engine finds for a function on a cycle can depend on which function of the cycle was
entered first. Away from cycles through several functions it cannot: there the outcomes are the one
solution of the equations that `Solves` states. Each function has the measure of its own body, in
which a call of the function itself is recursive and every other callee counts with its own outcome.

Both halves rest on `conclude_eq_of_agrees`: when a definition is completed, a callee that is not
completed leads back to it, so it is the definition itself. Hence what is remembered agrees with
every solution, by induction on the order of completion (`History.eq_of_solves`), and is one
(`Settled.solves`). The rest of the unit does not matter, whatever was measured in it before.
-/
import CallDepth.Proofs.Run
import Mathlib.Logic.Function.Basic

namespace CallDepth

open Relation

/-- A function lies on a cycle through another one. -/
def SourceUnit.OnMutualCycle (unit : SourceUnit) (id : FunctionId) : Prop :=
  ∃ other, other ≠ id ∧ unit.OnCommonCycle id other

def Engine.remembered (engine : Engine) (id : FunctionId) : Outcome :=
  (engine.outcome? id).getD .floor

theorem Engine.remembered_of_found {engine : Engine} {id : FunctionId} {outcome : Outcome}
    (found : engine.outcome? id = some outcome) : engine.remembered id = outcome := by
  rw [remembered, found, Option.getD_some]

namespace Analyzer

variable {analyzer : Analyzer}

/-- The outcomes of the callees of a function, with its calls of itself recursive. -/
def selfRecursive (analyzer : Analyzer) (outcomes : FunctionId → Outcome) (id : FunctionId) :
    FunctionId → Outcome :=
  Function.update outcomes id (analyzer.recursive id)

/-- Outcomes solve the equations of all functions that a function reaches: each of them has the
measure of its body. -/
def Solves (analyzer : Analyzer) (root : FunctionId) (outcomes : FunctionId → Outcome) : Prop :=
  ∀ id definition, analyzer.unit.Reaches root id →
    analyzer.unit.symbols.function? id = some definition →
    outcomes id = (analyzer.measureBody definition (analyzer.selfRecursive outcomes id)).outcome

/-- The measure of a definition that is on no cycle through another one: what was presumed of an
open callee was presumed of the definition itself. -/
theorem conclude_eq_of_agrees {memo : List (FunctionId × Outcome)} {id : FunctionId}
    {definition : Definition} {outcomes : FunctionId → Outcome}
    (defined : analyzer.unit.symbols.function? id = some definition)
    (fresh : memo.lookup id = none)
    (back : ∀ callee, analyzer.unit.Calls id callee → memo.lookup callee = none →
      analyzer.unit.Reaches callee id)
    (alone : ¬ analyzer.unit.OnMutualCycle id)
    (agrees : ∀ callee outcome, analyzer.unit.Calls id callee →
      memo.lookup callee = some outcome → outcome = outcomes callee) :
    analyzer.conclude memo id =
      analyzer.measureBody definition (analyzer.selfRecursive outcomes id) := by
  rw [conclude_of_found defined]
  refine measureBody_congr fun callee target => ?_
  have calls := (SourceUnit.mem_targets_iff_calls defined).1 target
  by_cases self : callee = id
  · rw [self, presumed_of_missing fresh, selfRecursive, Function.update_self]
  · rw [selfRecursive, Function.update_of_ne self]
    cases known : memo.lookup callee with
    | none =>
        -- Another open callee would close a cycle through both.
        exact absurd ⟨callee, self, calls.onCommonCycle (back callee calls known)⟩ alone
    | some outcome =>
        rw [presumed_of_found known]
        exact agrees callee outcome calls known

/-- Solutions are unique: remembered outcomes are those of any solution. -/
theorem History.eq_of_solves {memo : List (FunctionId × Outcome)} {log : List CallEvent}
    (history : analyzer.History memo log) {root : FunctionId} {outcomes : FunctionId → Outcome}
    (inside : root < analyzer.unit.symbols.functions.length)
    (alone : ∀ id, analyzer.unit.Reaches root id → ¬ analyzer.unit.OnMutualCycle id)
    (solves : analyzer.Solves root outcomes) {id : FunctionId} {outcome : Outcome}
    (found : memo.lookup id = some outcome) (reaches : analyzer.unit.Reaches root id) :
    outcome = outcomes id := by
  -- The order of completion carries the induction: it ends even where functions call themselves.
  refine history.remembered_induction
    (motive := fun id outcome => analyzer.unit.Reaches root id → outcome = outcomes id)
    ?_ found reaches
  intro older id fresh earlier back reaches
  have defined := List.getElem?_eq_getElem (reaches.lt_length inside)
  have agrees : ∀ callee outcome, analyzer.unit.Calls id callee →
      older.lookup callee = some outcome → outcome = outcomes callee :=
    fun callee outcome calls known => earlier callee outcome known (reaches.tail calls)
  rw [conclude_eq_of_agrees defined fresh back (alone id reaches) agrees]
  exact (solves id _ reaches defined).symm

/-- Away from mutual recursion the remembered outcomes are a solution. -/
theorem Settled.solves {engine : Engine} (settled : analyzer.Settled engine) {root : FunctionId}
    (completed : engine.Completed root)
    (alone : ∀ id, analyzer.unit.Reaches root id → ¬ analyzer.unit.OnMutualCycle id) :
    analyzer.Solves root engine.remembered := by
  intro id definition reaches defined
  obtain ⟨outcome, found⟩ := settled.completed_of_reaches completed reaches
  obtain ⟨older, -, -, fresh, measured, back, kept⟩ := settled.history.origin found
  have agrees : ∀ callee outcome, analyzer.unit.Calls id callee →
      older.lookup callee = some outcome → outcome = engine.remembered callee :=
    fun callee outcome _ known => (Engine.remembered_of_found (kept callee outcome known)).symm
  rw [Engine.remembered_of_found found, measured,
    conclude_eq_of_agrees defined fresh back (alone id reaches) agrees]

/-- The outcome of a function that reaches no cycle through several functions is the same after any
measurements. It is that of the one solution of the equations of all functions it reaches, and so
are their outcomes. -/
theorem depth_order_independent (analyzer : Analyzer) (id : FunctionId)
    (inside : id < analyzer.unit.symbols.functions.length)
    (alone : ∀ other, analyzer.unit.Reaches id other → ¬ analyzer.unit.OnMutualCycle other) :
    (∀ first second, (analyzer.depth (analyzer.after first) id).1 =
      (analyzer.depth (analyzer.after second) id).1) ∧
    ∃ outcomes, analyzer.Solves id outcomes ∧
      (∀ others, analyzer.Solves id others →
        ∀ other, analyzer.unit.Reaches id other → others other = outcomes other) ∧
      ∀ ids other, analyzer.unit.Reaches id other →
        (analyzer.depth (analyzer.after ids) other).1 = outcomes other := by
  have measured : ∀ outcomes, analyzer.Solves id outcomes →
      ∀ ids other, analyzer.unit.Reaches id other →
        (analyzer.depth (analyzer.after ids) other).1 = outcomes other := by
    intro outcomes solves ids other reaches
    obtain ⟨settled, -, found⟩ := (after_settled ids).depth other
    exact settled.history.eq_of_solves inside alone solves found reaches
  have completed : (analyzer.after [id]).Completed id := ⟨_, ((after_settled []).depth id).2.2⟩
  have solves := (after_settled [id]).solves completed alone
  refine ⟨fun first second => ?_, _, solves, fun others solution other reaches => ?_,
    measured _ solves⟩
  · rw [measured _ solves first id .refl, measured _ solves second id .refl]
  · rw [← measured others solution [] other reaches, measured _ solves [] other reaches]

/-- The condition on cycles is needed: `even` is deeper when it is measured first. -/
example : (parity.depth (parity.after []) 0).1.depth = 3 ∧
    (parity.depth (parity.after [1]) 0).1.depth = 2 := by
  decide +kernel

/-- Two functions that call each other, and a third that one of them calls and that calls itself. -/
def relay : Analyzer where
  unit := .ofTree <| .contract "Relay" "contract" [] [
    .function "ping" 0 "public" "" (some (.call false (some (.identifier "pong")) (some 0) [])) [],
    .function "pong" 0 "public" ""
      (some (.other "Block" [
        .call false (some (.identifier "ping")) (some 0) [],
        .call false (some (.identifier "drain")) (some 1) [.identifier "n"]])) [],
    .function "drain" 1 "public" ""
      (some (.other "Block" [
        .call false (some (.identifier "burn")) (some 0) [],
        .call false (some (.identifier "drain")) (some 1) [.identifier "n"]])) [],
    .function "burn" 0 "public" "" none []]
  options := { trace := true }

theorem relay_drain_alone (other : FunctionId) (reaches : relay.unit.Reaches 2 other) :
    ¬ relay.unit.OnMutualCycle other := by
  rintro ⟨second, apart, there, back⟩
  have burnStops : relay.unit.callees 3 = [] := by decide +kernel
  have stuck : ∀ id, ¬ TransGen relay.unit.Calls 3 id := by
    intro id path
    obtain ⟨next, calls, -⟩ := TransGen.head'_iff.1 path
    have member := SourceUnit.mem_callees_iff.2 calls
    rw [burnStops] at member
    cases member
  have closed : ∀ caller ∈ [2, 3], ∀ callee ∈ relay.unit.callees caller, callee ∈ [2, 3] := by
    decide +kernel
  have first := reaches.mem_of_closed closed (by decide)
  have last := SourceUnit.Reaches.mem_of_closed there.to_reflTransGen closed first
  simp only [List.mem_cons, List.not_mem_nil, or_false] at first last
  rcases first with rfl | rfl
  · rcases last with rfl | rfl
    · exact apart rfl
    · exact stuck 2 back
  · exact stuck second there

/-- `drain` is measured alone, or after `ping`, with `ping` and `pong` on the stack. -/
theorem relay_order_independent :
    2 < relay.unit.symbols.functions.length ∧ relay.unit.OnMutualCycle 0 ∧ relay.unit.OnCycle 2 ∧
      (relay.depth (relay.after []) 2).1 = (relay.depth (relay.after [0]) 2).1 ∧
      (relay.depth (relay.after []) 2).1.depth = 2 ∧
      ∃ outcomes, relay.Solves 2 outcomes ∧
        (relay.depth (relay.after [0]) 2).1 = outcomes 2 := by
  have inside : 2 < relay.unit.symbols.functions.length := by decide +kernel
  have together : relay.unit.OnMutualCycle 0 :=
    ⟨1, by decide, .single (by decide +kernel), .single (by decide +kernel)⟩
  obtain ⟨same, outcomes, solves, -, measured⟩ :=
    depth_order_independent relay 2 inside relay_drain_alone
  exact ⟨inside, together, .single (by decide +kernel), same [] [0], by decide +kernel, outcomes,
    solves, measured [0] 2 .refl⟩

end Analyzer

end CallDepth
