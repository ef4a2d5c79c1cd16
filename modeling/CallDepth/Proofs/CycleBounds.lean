/-
# Bounds on cycles of the call graph

A call back into a definition that is being measured counts as depth 1, so a remembered depth on a
cycle depends on which definition was entered first. It stays within bounds all the same.

* A definition on a cycle has at least depth 1. With depth 0 all its callees would have been
  completed before it with depth 0, and so on around the cycle
  (`History.depth_pos_of_onCycle`).
* A remembered depth is at most the depth of the body under the remembered depths of the callees,
  and at least that with callees on a common cycle counted as 1 (`depth_within_cycle_bounds`).
-/
import CallDepth.Proofs.BodyDepth
import CallDepth.Proofs.Run

namespace CallDepth

open Relation

/-- The remembered depth of a definition; 0 when it is not completed. -/
def Engine.depthOf (engine : Engine) (id : FunctionId) : Nat :=
  ((engine.outcome? id).getD .floor).depth

theorem Engine.depthOf_of_found {engine : Engine} {id : FunctionId} {outcome : Outcome}
    (found : engine.outcome? id = some outcome) : engine.depthOf id = outcome.depth := by
  rw [depthOf, found, Option.getD_some]

namespace Analyzer

variable {analyzer : Analyzer}

theorem conclude_depth {id : FunctionId} {definition : Definition}
    (defined : analyzer.unit.symbols.function? id = some definition)
    (memo : List (FunctionId × Outcome)) :
    (analyzer.conclude memo id).outcome.depth =
      analyzer.unit.bodyDepth definition fun callee => (analyzer.presumed memo callee).depth := by
  rw [conclude_of_found defined, measureBody_depth]

/-- A definition is at least as deep as what its measure presumes of a callee. -/
theorem presumed_depth_le {id callee : FunctionId} (calls : analyzer.unit.Calls id callee)
    (memo : List (FunctionId × Outcome)) :
    (analyzer.presumed memo callee).depth ≤ (analyzer.conclude memo id).outcome.depth := by
  obtain ⟨definition, site, defined, inside, resolved⟩ := calls
  rw [conclude_depth defined]
  exact SourceUnit.le_bodyDepth (fun callee => (analyzer.presumed memo callee).depth)
    (SourceUnit.mem_targets_iff.2 ⟨site, inside, resolved⟩)

/-- A definition on a cycle has a positive depth. -/
theorem History.depth_pos_of_onCycle {memo : List (FunctionId × Outcome)} {log : List CallEvent}
    (history : analyzer.History memo log) {id : FunctionId} {outcome : Outcome}
    (found : memo.lookup id = some outcome) (cycle : analyzer.unit.OnCycle id) :
    1 ≤ outcome.depth := by
  -- The next definition on the cycle was completed earlier, or it counted as 1.
  refine history.remembered_induction
    (motive := fun id outcome => analyzer.unit.OnCycle id → 1 ≤ outcome.depth) ?_ found cycle
  intro older id _ earlier _ cycle
  obtain ⟨next, calls, around⟩ := TransGen.head'_iff.1 cycle
  have bound := presumed_depth_le calls older
  cases known : older.lookup next with
  | none =>
      rw [presumed_of_missing known] at bound
      exact bound
  | some result =>
      rw [presumed_of_found known] at bound
      exact (earlier next result known (.tail' around calls)).trans bound

/-! ## The two bounds -/

open Classical in
/-- What a callee counts with at least: 1 on a common cycle with its caller, its remembered depth
otherwise. -/
noncomputable def cutDepth (analyzer : Analyzer) (engine : Engine) (caller callee : FunctionId) :
    Nat :=
  if analyzer.unit.OnCommonCycle caller callee then 1 else engine.depthOf callee

section Bounds

variable {engine : Engine} {id : FunctionId} {definition : Definition} {outcome : Outcome}

/-- A function on a cycle counts at least 1. -/
theorem Settled.depth_pos (settled : analyzer.Settled engine)
    (found : engine.outcome? id = some outcome) (cycle : analyzer.unit.OnCycle id) :
    1 ≤ outcome.depth :=
  settled.history.depth_pos_of_onCycle found cycle

/-- What a measure presumed of a callee lies between the two counts: a presumed 1 stands for a
callee on a common cycle, which has at least depth 1 in the end. -/
theorem Settled.presumed_bounds (settled : analyzer.Settled engine)
    (completed : engine.Completed id) {older : List (FunctionId × Outcome)}
    (back : ∀ callee, analyzer.unit.Calls id callee → older.lookup callee = none →
      analyzer.unit.Reaches callee id)
    (kept : ∀ other result, older.lookup other = some result →
      engine.outcome? other = some result)
    {callee : FunctionId} (calls : analyzer.unit.Calls id callee) :
    analyzer.cutDepth engine id callee ≤ (analyzer.presumed older callee).depth ∧
      (analyzer.presumed older callee).depth ≤ engine.depthOf callee := by
  cases known : older.lookup callee with
  | some result =>
      have final := kept callee result known
      rw [presumed_of_found known, Engine.depthOf_of_found final]
      refine ⟨?_, le_rfl⟩
      unfold cutDepth
      split
      · rename_i common
        exact settled.depth_pos final common.onCycle.2
      · rw [Engine.depthOf_of_found final]
  | none =>
      have common := calls.onCommonCycle (back callee calls known)
      obtain ⟨result, final⟩ := settled.closed id callee completed calls
      rw [presumed_of_missing known, Engine.depthOf_of_found final, cutDepth, if_pos common]
      exact ⟨le_rfl, settled.depth_pos final common.onCycle.2⟩

theorem Settled.bodyDepth_bounds (settled : analyzer.Settled engine)
    (defined : analyzer.unit.symbols.function? id = some definition)
    (found : engine.outcome? id = some outcome) :
    analyzer.unit.bodyDepth definition (analyzer.cutDepth engine id) ≤ outcome.depth ∧
      outcome.depth ≤ analyzer.unit.bodyDepth definition engine.depthOf := by
  obtain ⟨older, -, -, -, measured, back, kept⟩ := settled.history.origin found
  have bounds : ∀ callee ∈ analyzer.unit.targets definition.owner definition.calls,
      analyzer.cutDepth engine id callee ≤ (analyzer.presumed older callee).depth ∧
        (analyzer.presumed older callee).depth ≤ engine.depthOf callee :=
    fun callee target => settled.presumed_bounds ⟨outcome, found⟩ back kept
      ((SourceUnit.mem_targets_iff_calls defined).1 target)
  rw [measured, conclude_depth defined]
  exact ⟨SourceUnit.bodyDepth_mono fun callee target => (bounds callee target).1,
    SourceUnit.bodyDepth_mono fun callee target => (bounds callee target).2⟩

/-- Away from cycles both bounds are the same. -/
theorem cutDepth_of_not_onCycle (away : ¬ analyzer.unit.OnCycle id) (callee : FunctionId) :
    analyzer.cutDepth engine id callee = engine.depthOf callee :=
  if_neg fun common => away common.onCycle.1

end Bounds

/-- The body of the definition on top has a call that counts as a recursive one: its callee was
begun and is not completed. -/
structure CountsRecursive (analyzer : Analyzer) (machine : Machine) (callee : FunctionId) :
    Prop where
  called : ∃ top rest, machine.stack = top :: rest ∧ analyzer.unit.Calls top callee
  open_ : ¬ machine.engine.Completed callee
  active : callee ∈ machine.engine.active

/-- Only a function on a cycle is ever counted as recursive. -/
theorem Sound.onCycle_of_countsRecursive {machine : Machine} (sound : analyzer.Sound machine)
    {callee : FunctionId} (recursive : analyzer.CountsRecursive machine callee) :
    analyzer.unit.OnCycle callee := by
  obtain ⟨top, rest, stack, calls⟩ := recursive.called
  have path := sound.path
  have active := recursive.active
  rw [sound.active, stack] at active
  rw [stack] at path
  exact .tail' (reaches_top path active) calls

/-- Cycles are measured from below, within exact bounds. After any measurements, every callee of a
completed definition is completed, and the depth of the definition lies between that of its body
with callees on a common cycle counted as 1 and that of its body with all callees counted in full.
On a cycle it is at least 1, away from cycles it is the depth of the body. Whenever a call counted
as a recursive one, its callee has at least that depth in the end. -/
theorem depth_within_cycle_bounds (analyzer : Analyzer) (ids : List FunctionId) :
    (∀ id definition outcome, analyzer.unit.symbols.function? id = some definition →
      (analyzer.after ids).outcome? id = some outcome →
      (∀ callee, analyzer.unit.Calls id callee → (analyzer.after ids).Completed callee) ∧
      analyzer.unit.bodyDepth definition (analyzer.cutDepth (analyzer.after ids) id) ≤
        outcome.depth ∧
      outcome.depth ≤ analyzer.unit.bodyDepth definition (analyzer.after ids).depthOf ∧
      (analyzer.unit.OnCycle id → 1 ≤ outcome.depth) ∧
      (¬ analyzer.unit.OnCycle id →
        outcome.depth = analyzer.unit.bodyDepth definition (analyzer.after ids).depthOf)) ∧
    (∀ earlier id later turns callee, ids = earlier ++ id :: later →
      ¬ (analyzer.after earlier).Completed id →
      analyzer.CountsRecursive
        (analyzer.run turns (launch (analyzer.after earlier) id)) callee →
      ∃ outcome, (analyzer.after ids).outcome? callee = some outcome ∧
        (analyzer.recursive callee).depth ≤ outcome.depth) := by
  have settled := analyzer.after_settled ids
  constructor
  · intro id definition outcome defined found
    obtain ⟨lower, upper⟩ := settled.bodyDepth_bounds defined found
    refine ⟨fun callee calls => settled.closed id callee ⟨outcome, found⟩ calls, lower, upper,
      settled.depth_pos found, fun away => le_antisymm upper ?_⟩
    rwa [funext (cutDepth_of_not_onCycle away)] at lower
  · rintro earlier id later turns callee rfl open_ recursive
    have sound := run_sound turns ((after_settled earlier).launch open_)
    have reached : analyzer.unit.Reaches id callee := by
      refine run_reached turns ?_ callee (sound.active ▸ recursive.active)
      exact List.forall_mem_singleton.2 .refl
    obtain ⟨outcome, found⟩ := settled.completed_of_reaches (after_completed id) reached
    exact ⟨outcome, found, settled.depth_pos found (sound.onCycle_of_countsRecursive recursive)⟩

/-- `odd` is completed first, with the call of `even` counted as 1. -/
theorem parity_within_cycle_bounds :
    ∃ definition outcome, parity.unit.symbols.function? 1 = some definition ∧
      (parity.after [0]).outcome? 1 = some outcome ∧ parity.unit.OnCycle 1 ∧
      parity.unit.bodyDepth definition (parity.cutDepth (parity.after [0]) 1) ≤ outcome.depth ∧
      outcome.depth ≤ parity.unit.bodyDepth definition (parity.after [0]).depthOf ∧
      1 ≤ outcome.depth ∧
      parity.CountsRecursive (parity.run 1 (launch (parity.after []) 0)) 0 ∧
      ∃ even, (parity.after [0]).outcome? 0 = some even ∧
        (parity.recursive 0).depth ≤ even.depth := by
  have bounds := depth_within_cycle_bounds parity [0]
  have cycle : parity.unit.OnCycle 1 :=
    .head (by decide +kernel : parity.unit.Calls 1 0) (.single (by decide +kernel))
  have recursive : parity.CountsRecursive (parity.run 1 (launch (parity.after []) 0)) 0 :=
    ⟨⟨1, [0], by decide +kernel, by decide +kernel⟩,
      Engine.not_completed_iff.2 (by decide +kernel), by decide +kernel⟩
  obtain ⟨definition, defined⟩ : ∃ definition, parity.unit.symbols.function? 1 = some definition :=
    Option.isSome_iff_exists.1 (by decide +kernel)
  obtain ⟨outcome, found⟩ : ∃ outcome, (parity.after [0]).outcome? 1 = some outcome :=
    Option.isSome_iff_exists.1 (by decide +kernel)
  obtain ⟨-, lower, upper, positive, -⟩ := bounds.1 1 definition outcome defined found
  have even := bounds.2 [] 0 [] 1 0 rfl (Engine.not_completed_iff.2 rfl) recursive
  exact ⟨definition, outcome, defined, found, cycle, lower, upper, positive cycle, recursive, even⟩

end Analyzer

end CallDepth
