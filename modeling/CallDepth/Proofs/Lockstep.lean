/-
# Analyzers in step

Two analyzers run in step when functions call the same functions in both, in the same order, and
outcomes that agree give measures that agree (`Analyzer.InStep`). Then every turn pushes the same
definition or completes the same one (`InStep.step_agrees`, `InStep.run_agrees`): their stacks are
equal, and their memos hold the same definitions in the same order, with outcomes that agree.

Outcomes agree when they are equally deep, and have one trace if a condition holds
(`Outcome.Agrees`).
-/
import CallDepth.Proofs.Coverage
import Mathlib.Data.List.Forall2

namespace CallDepth

namespace Outcome

/-- Equally deep outcomes, with one trace where a condition holds. -/
structure Agrees (condition : Prop) (first second : Outcome) : Prop where
  depth : first.depth = second.depth
  trace : condition → first.trace = second.trace

variable {condition : Prop}

theorem Agrees.refl (outcome : Outcome) : outcome.Agrees condition outcome :=
  ⟨rfl, fun _ => rfl⟩

theorem Agrees.eq {first second : Outcome} (agrees : first.Agrees condition second)
    (holds : condition) : first = second := by
  cases first
  cases second
  exact mk.injEq .. ▸ ⟨agrees.depth, agrees.trace holds⟩

theorem Agrees.deeper {first second third fourth : Outcome}
    (left : first.Agrees condition second) (right : third.Agrees condition fourth) :
    (first.deeper third).Agrees condition (second.deeper fourth) := by
  unfold Outcome.deeper
  rw [left.depth, right.depth]
  split
  · exact right
  · exact left

/-- The same one of two lists of agreeing outcomes is chosen. -/
theorem agrees_deepest {outcomes others : List Outcome}
    (each : List.Forall₂ (Agrees condition) outcomes others) :
    (deepest outcomes).Agrees condition (deepest others) := by
  cases each with
  | nil => exact .refl floor
  | cons first rest => exact List.rel_foldl (fun _ _ left _ _ right => left.deeper right) first rest

theorem agrees_getD {outcome other : Option Outcome}
    (agree : Option.Rel (Agrees condition) outcome other) :
    (outcome.getD floor).Agrees condition (other.getD floor) ∧ outcome.isSome = other.isSome := by
  cases agree with
  | none => exact ⟨.refl floor, rfl⟩
  | some agrees => exact ⟨agrees, rfl⟩

end Outcome

/-! ## Engines in step -/

/-- Two memos hold the same definitions in the same order, with outcomes that agree. -/
def MemosAgree (condition : Prop) : (memo others : List (FunctionId × Outcome)) → Prop :=
  List.Forall₂ fun entry other => entry.1 = other.1 ∧ entry.2.Agrees condition other.2

theorem MemosAgree.lookup {condition : Prop} {memo others : List (FunctionId × Outcome)}
    (agree : MemosAgree condition memo others) (id : FunctionId) :
    Option.Rel (Outcome.Agrees condition) (memo.lookup id) (others.lookup id) := by
  induction agree with
  | nil => exact .none
  | @cons entry other rest otherRest head _ ih =>
      obtain ⟨key, outcome⟩ := entry
      obtain ⟨otherKey, otherOutcome⟩ := other
      obtain ⟨same, agrees⟩ := head
      simp only at same agrees
      subst same
      rw [Assoc.lookup_cons, Assoc.lookup_cons]
      split
      · exact .some agrees
      · exact ih

/-- Two engines differ at most in traces and narration. -/
structure Engine.Agrees (condition : Prop) (first second : Engine) : Prop where
  memo : MemosAgree condition first.memo second.memo
  active : first.active = second.active

namespace Engine.Agrees

variable {condition : Prop} {first second : Engine}

theorem outcome? (agree : first.Agrees condition second) (id : FunctionId) :
    Option.Rel (Outcome.Agrees condition) (first.outcome? id) (second.outcome? id) :=
  agree.memo.lookup id

theorem completed (agree : first.Agrees condition second) : first.completed = second.completed :=
  List.Forall₂.length_eq agree.memo

theorem isUnknown (agree : first.Agrees condition second) : first.isUnknown = second.isUnknown := by
  funext id
  have known := agree.outcome? id
  unfold Engine.isUnknown
  rw [agree.active]
  cases known : first.outcome? id <;> cases other : second.outcome? id <;> simp_all

theorem start (agree : first.Agrees condition second) (id : FunctionId) :
    (first.start id).Agrees condition (second.start id) :=
  ⟨agree.memo, congrArg (id :: ·) agree.active⟩

theorem complete (agree : first.Agrees condition second) (id : FunctionId) {walk other : Walk}
    (outcomes : walk.outcome.Agrees condition other.outcome) :
    (first.complete id walk).Agrees condition (second.complete id other) := by
  refine ⟨.cons ⟨rfl, outcomes⟩ agree.memo, ?_⟩
  simp only [Engine.complete, agree.active]

end Engine.Agrees

/-- Two machines differ at most in traces and narration. -/
structure Machine.Agrees (condition : Prop) (first second : Machine) : Prop where
  engine : first.engine.Agrees condition second.engine
  stack : first.stack = second.stack
  last : first.last.Agrees condition second.last

namespace Analyzer

/-- Functions call the same functions under both analyzers, in the same order, and their measures
agree if the remembered outcomes do. -/
structure InStep (condition : Prop) (first second : Analyzer) : Prop where
  length : first.unit.symbols.functions.length = second.unit.symbols.functions.length
  callees : ∀ id, first.unit.callees id = second.unit.callees id
  conclude : ∀ {memo others : List (FunctionId × Outcome)}, MemosAgree condition memo others →
    ∀ id, (first.conclude memo id).outcome.Agrees condition (second.conclude others id).outcome

namespace InStep

variable {condition : Prop} {first second : Analyzer} (inStep : first.InStep condition second)
include inStep

/-- A turn keeps two machines in step: they wait for the same definition or complete the same
one. -/
theorem step_agrees {machine other : Machine} (agree : machine.Agrees condition other) :
    (first.step machine).Agrees condition (second.step other) := by
  obtain ⟨engine, stack, last⟩ := machine
  obtain ⟨otherEngine, otherStack, otherLast⟩ := other
  obtain ⟨engines, same, outcomes⟩ := agree
  simp only at engines same
  subst same
  cases stack with
  | nil => exact ⟨engines, rfl, outcomes⟩
  | cons id rest =>
      have sameSearch : (first.unit.callees id).find? engine.isUnknown =
          (second.unit.callees id).find? otherEngine.isUnknown := by
        rw [inStep.callees, engines.isUnknown]
      cases waiting : (second.unit.callees id).find? otherEngine.isUnknown with
      | some next =>
          rw [step_of_waiting rest _ waiting, step_of_waiting rest _ (sameSearch.trans waiting)]
          exact ⟨engines.start next, rfl, outcomes⟩
      | none =>
          rw [step_of_ready rest _ waiting, step_of_ready rest _ (sameSearch.trans waiting)]
          have concluded := inStep.conclude engines.memo id
          exact ⟨engines.complete id concluded, rfl, concluded⟩

/-- Engines in step stay in step through any number of turns. -/
theorem run_agrees (turns : Nat) {machine other : Machine}
    (agree : machine.Agrees condition other) :
    (first.run turns machine).Agrees condition (second.run turns other) := by
  induction turns generalizing machine other with
  | zero => exact agree
  | succ turns ih =>
      rw [run, run, agree.stack]
      split
      · exact agree
      · exact ih (inStep.step_agrees agree)

theorem depth_agrees {engine other : Engine} (agree : engine.Agrees condition other)
    (id : FunctionId) :
    (first.depth engine id).1.Agrees condition (second.depth other id).1 ∧
      (first.depth engine id).2.Agrees condition (second.depth other id).2 := by
  have known := agree.outcome? id
  have bounds : first.turnBound = second.turnBound := by rw [turnBound, turnBound, inStep.length]
  have launched : (launch engine id).Agrees condition (launch other id) :=
    ⟨agree.start id, rfl, rfl, fun _ => rfl⟩
  have ran := inStep.run_agrees second.turnBound launched
  unfold depth
  rw [bounds]
  generalize engine.outcome? id = found at known ⊢
  generalize other.outcome? id = otherFound at known ⊢
  cases known with
  | some agrees => exact ⟨agrees, agree⟩
  | none => exact ⟨ran.last, ran.engine⟩

/-- Engines in step remember the same after the same measurements. -/
theorem after_agrees (ids : List FunctionId) :
    (first.after ids).Agrees condition (second.after ids) := by
  induction ids using List.reverseRecOn with
  | nil =>
      -- Both are the empty engine. Compared as folds, they would be unfolded down to their steps.
      have empty : ∀ analyzer : Analyzer, analyzer.after [] = {} := fun _ => rfl
      rw [empty first, empty second]
      exact ⟨.nil, rfl⟩
  | append_singleton ids id ih =>
      rw [after_concat, after_concat]
      exact (inStep.depth_agrees ih id).2

/-- The measurements of an analysis agree one by one. -/
theorem row_agrees (id : FunctionId) :
    (first.depth (first.after (List.range id)) id).1.Agrees condition
      (second.depth (second.after (List.range id)) id).1 :=
  (inStep.depth_agrees (inStep.after_agrees (List.range id)) id).1

end InStep

end Analyzer

end CallDepth
