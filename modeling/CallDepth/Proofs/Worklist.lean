/-
# The loop of a measurement

The engine takes turns until its stack is empty. This module says what holds at the head of every
turn (`LoopHead`) and how many turns there are.

A turn evaluates one body, so `evaluations` counts turns. A turn that gives a walk up makes the
stack longer by one; a turn that completes a definition makes it shorter by one and the memo longer
by one. So `balance`, the length of the stack with twice the number of newly completed definitions,
grows by one in each turn (`balance_step`). It starts at 1 and ends, with an empty stack, at an even
number: for `m` newly completed definitions there are `2 * m - 1` turns (`depth_loop_exact`).
-/
import CallDepth.Proofs.Run
import Mathlib.Data.Finset.Dedup
import Mathlib.Logic.Function.Iterate

namespace CallDepth

namespace Engine

/-- The definitions that one engine has completed and an earlier one has not. -/
def newlyCompleted (later earlier : Engine) : Finset FunctionId :=
  (Assoc.keys later.memo).toFinset.filter (¬ earlier.Completed ·)

theorem mem_newlyCompleted_iff {later earlier : Engine} {id : FunctionId} :
    id ∈ later.newlyCompleted earlier ↔ later.Completed id ∧ ¬ earlier.Completed id := by
  rw [newlyCompleted, Finset.mem_filter, List.mem_toFinset, Assoc.mem_keys_iff]
  rfl

theorem newlyCompleted_self (engine : Engine) : engine.newlyCompleted engine = ∅ := by
  refine Finset.eq_empty_of_forall_notMem fun id member => ?_
  obtain ⟨completed, open_⟩ := mem_newlyCompleted_iff.1 member
  exact open_ completed

@[simp] theorem newlyCompleted_start (engine earlier : Engine) (id : FunctionId) :
    (engine.start id).newlyCompleted earlier = engine.newlyCompleted earlier := rfl

theorem newlyCompleted_complete {engine earlier : Engine} {id : FunctionId}
    (open_ : ¬ earlier.Completed id) (walk : Walk) :
    (engine.complete id walk).newlyCompleted earlier =
      insert id (engine.newlyCompleted earlier) := by
  ext other
  rw [Finset.mem_insert, mem_newlyCompleted_iff, mem_newlyCompleted_iff, completed_complete_iff]
  by_cases same : other = id
  · simp [same, open_]
  · simp [same]

end Engine

namespace Analyzer

variable {analyzer : Analyzer}

/-! ## What holds at the head of the loop -/

/-- What holds whenever the loop looks at its stack. -/
structure LoopHead (analyzer : Analyzer) (machine : Machine) : Prop where
  nodup : machine.stack.Nodup
  active : ∀ id, id ∈ machine.engine.active ↔ id ∈ machine.stack
  fresh : ∀ id ∈ machine.stack, ¬ machine.engine.Completed id
  inside : ∀ id ∈ machine.stack, id < analyzer.unit.symbols.functions.length
  /-- Every definition on the stack has a call that leads to the one above. -/
  path : machine.stack.IsChain fun callee caller => analyzer.unit.Calls caller callee
  /-- A walk that is given up names a definition of the unit that was not begun. -/
  pending : ∀ top rest next, machine.stack = top :: rest →
    analyzer.evaluate machine.engine top = .error next →
    next < analyzer.unit.symbols.functions.length ∧ ¬ machine.engine.Completed next ∧
      next ∉ machine.stack

theorem waiting_of_evaluate {engine : Engine} {id next : FunctionId}
    (stopped : analyzer.evaluate engine id = .error next) :
    (analyzer.unit.callees id).find? engine.isUnknown = some next := by
  rw [evaluate_eq] at stopped
  cases waiting : (analyzer.unit.callees id).find? engine.isUnknown with
  | none =>
      rw [waiting] at stopped
      cases stopped
  | some first =>
      rw [waiting] at stopped
      cases stopped
      rfl

theorem Sound.loopHead {machine : Machine} (sound : analyzer.Sound machine)
    (inside : ∀ id ∈ machine.stack, id < analyzer.unit.symbols.functions.length) :
    analyzer.LoopHead machine := by
  refine ⟨sound.nodup, fun id => by rw [sound.active], sound.fresh, inside, sound.path, ?_⟩
  intro top rest next _ stopped
  have waiting := waiting_of_evaluate stopped
  have called := SourceUnit.mem_callees_iff.1 (List.mem_of_find?_eq_some waiting)
  obtain ⟨open_, away⟩ := Engine.isUnknown_iff.1 (List.find?_some waiting)
  exact ⟨called.lt_length, open_, sound.active ▸ away⟩

/-- The loop finds its stack in order at every turn. -/
theorem run_loopHead {engine : Engine} (settled : analyzer.Settled engine) {id : FunctionId}
    (open_ : ¬ engine.Completed id) (inside : id < analyzer.unit.symbols.functions.length)
    (turns : Nat) : analyzer.LoopHead (analyzer.run turns (launch engine id)) := by
  refine (run_sound turns (settled.launch open_)).loopHead fun other member => ?_
  have reached : analyzer.unit.Reaches id other :=
    run_reached turns (List.forall_mem_singleton.2 .refl) other member
  exact reached.lt_length inside

/-! ## How many turns there are -/

theorem step_of_idle {machine : Machine} (idle : machine.stack = []) :
    analyzer.step machine = machine := by
  rw [step, idle]

/-- A bounded number of turns is that many steps: with an empty stack, a step changes nothing. -/
theorem run_eq_iterate (turns : Nat) (machine : Machine) :
    analyzer.run turns machine = analyzer.step^[turns] machine := by
  induction turns generalizing machine with
  | zero => rfl
  | succ turns ih =>
      rw [run, Function.iterate_succ_apply]
      split
      · rename_i idle
        rw [step_of_idle (by simpa using idle), Function.iterate_fixed]
        exact step_of_idle (by simpa using idle)
      · exact ih _

/-- The turns that are taken, of at most a number of turns, before the stack is empty. -/
def turnsTaken (analyzer : Analyzer) : Nat → Machine → Nat
  | 0, _ => 0
  | turns + 1, machine =>
      if machine.stack.isEmpty then 0 else analyzer.turnsTaken turns (analyzer.step machine) + 1

theorem run_eq_iterate_turnsTaken (turns : Nat) (machine : Machine) :
    analyzer.run turns machine = analyzer.step^[analyzer.turnsTaken turns machine] machine := by
  induction turns generalizing machine with
  | zero => rfl
  | succ turns ih =>
      rw [run, turnsTaken]
      split
      · rfl
      · rw [Function.iterate_succ_apply]
        exact ih _

/-- How many bodies are evaluated to measure a definition: one in each turn, and none when its
outcome is remembered. -/
def evaluations (analyzer : Analyzer) (engine : Engine) (id : FunctionId) : Nat :=
  match engine.outcome? id with
  | some _ => 0
  | none => analyzer.turnsTaken analyzer.turnBound (launch engine id)

theorem evaluations_of_completed {engine : Engine} {id : FunctionId}
    (completed : engine.Completed id) : analyzer.evaluations engine id = 0 := by
  obtain ⟨outcome, found⟩ := completed
  simp [evaluations, found]

theorem evaluations_of_open {engine : Engine} {id : FunctionId} (open_ : ¬ engine.Completed id) :
    analyzer.evaluations engine id =
      analyzer.turnsTaken analyzer.turnBound (launch engine id) := by
  simp [evaluations, Engine.not_completed_iff.1 open_]

/-- When a bound on the turns suffices, the stack is empty from the last of the turns on. -/
theorem iterate_stack_eq_nil_iff {bound : Nat} {machine : Machine}
    (enough : (analyzer.run bound machine).stack = []) (turn : Nat) :
    (analyzer.step^[turn] machine).stack = [] ↔ analyzer.turnsTaken bound machine ≤ turn := by
  induction bound generalizing machine turn with
  | zero =>
      have fixed : analyzer.step machine = machine := step_of_idle enough
      rw [Function.iterate_fixed fixed]
      exact iff_of_true enough (Nat.zero_le turn)
  | succ bound ih =>
      rw [run] at enough
      rw [turnsTaken]
      split at enough
      · rename_i idle
        have fixed : analyzer.step machine = machine := step_of_idle enough
        rw [Function.iterate_fixed fixed, if_pos idle]
        exact iff_of_true enough (Nat.zero_le turn)
      · rename_i busy
        rw [if_neg busy]
        cases turn with
        | zero => simpa using busy
        | succ turn =>
            rw [Function.iterate_succ_apply, ih enough, Nat.succ_le_succ_iff]

/-- The length of the stack with twice the number of definitions completed since an engine. -/
def balance (earlier : Engine) (machine : Machine) : Nat :=
  machine.stack.length + 2 * (machine.engine.newlyCompleted earlier).card

/-- A turn pushes one definition or completes one. -/
theorem balance_step {earlier : Engine} {machine : Machine} (busy : machine.stack ≠ [])
    (sound : analyzer.Sound machine) (remembers : machine.engine.Remembers earlier) :
    balance earlier (analyzer.step machine) = balance earlier machine + 1 := by
  obtain ⟨engine, stack, last⟩ := machine
  cases stack with
  | nil => exact absurd rfl busy
  | cons id rest =>
      rcases analyzer.step_cases engine id rest last with ⟨next, -, -, -, stepped⟩ | ⟨-, stepped⟩
      · simp only [stepped, balance, List.length_cons, Engine.newlyCompleted_start]
        omega
      · -- The completed definition is new to the memo: what is on the stack was never completed.
        have open_ : ¬ engine.Completed id := sound.fresh id List.mem_cons_self
        have added : id ∉ engine.newlyCompleted earlier := fun member =>
          open_ (Engine.mem_newlyCompleted_iff.1 member).1
        have before : ¬ earlier.Completed id := fun completed =>
          open_ (remembers.completed completed)
        simp only [stepped, balance, Engine.newlyCompleted_complete before,
          Finset.card_insert_of_notMem added, List.length_cons]
        omega

theorem balance_run {earlier : Engine} (turns : Nat) {machine : Machine}
    (sound : analyzer.Sound machine) (remembers : machine.engine.Remembers earlier) :
    balance earlier (analyzer.run turns machine) =
      balance earlier machine + analyzer.turnsTaken turns machine := by
  induction turns generalizing machine with
  | zero => rfl
  | succ turns ih =>
      rw [run, turnsTaken]
      split
      · rfl
      · rename_i idle
        have busy : machine.stack ≠ [] := by simpa using idle
        have grown := (analyzer.step_grows machine busy sound).1.trans remembers
        rw [ih (step_sound machine busy sound) grown, balance_step busy sound remembers]
        omega

/-- The turns of a measurement: two for each newly completed definition, but one for the first. -/
theorem Settled.evaluations_succ {engine : Engine} (settled : analyzer.Settled engine)
    {id : FunctionId} (open_ : ¬ engine.Completed id) :
    analyzer.evaluations engine id + 1 =
      2 * ((analyzer.depth engine id).2.newlyCompleted engine).card := by
  have sound := settled.launch open_
  have turns := balance_run analyzer.turnBound sound (Engine.Remembers.refl engine)
  have start : balance engine (Analyzer.launch engine id) = 1 := by
    simp [balance, Analyzer.launch, engine.newlyCompleted_self]
  rw [start, balance, run_launch_stack engine id, List.length_nil] at turns
  simp only [evaluations_of_open open_, depth_of_open open_, finish]
  omega

/-- The loop of a measurement ends, and takes no more turns than it needs. After any earlier
measurements, a remembered outcome takes no evaluation. Otherwise every head of the loop is as
`LoopHead` says, the stack is empty after exactly so many turns as there are evaluations, the engine
is then the one the measurement leaves, and for `m` newly completed definitions there were `2 * m -
1` evaluations. -/
theorem depth_loop_exact (analyzer : Analyzer) (ids : List FunctionId) (id : FunctionId)
    (inside : id < analyzer.unit.symbols.functions.length) :
    ((analyzer.after ids).Completed id →
      analyzer.evaluations (analyzer.after ids) id = 0 ∧
        (analyzer.depth (analyzer.after ids) id).2 = analyzer.after ids) ∧
    (¬ (analyzer.after ids).Completed id →
      (∀ turn, analyzer.LoopHead (analyzer.step^[turn] (launch (analyzer.after ids) id))) ∧
      (∀ turn, (analyzer.step^[turn] (launch (analyzer.after ids) id)).stack = [] ↔
        analyzer.evaluations (analyzer.after ids) id ≤ turn) ∧
      (analyzer.step^[analyzer.evaluations (analyzer.after ids) id]
        (launch (analyzer.after ids) id)).engine = (analyzer.depth (analyzer.after ids) id).2 ∧
      ∃ m, 1 ≤ m ∧
        ((analyzer.depth (analyzer.after ids) id).2.newlyCompleted (analyzer.after ids)).card = m ∧
        analyzer.evaluations (analyzer.after ids) id = 2 * m - 1) := by
  have settled := analyzer.after_settled ids
  constructor
  · rintro ⟨outcome, found⟩
    rw [depth_of_completed found]
    exact ⟨evaluations_of_completed ⟨outcome, found⟩, rfl⟩
  · intro open_
    refine ⟨fun turn => ?_, fun turn => ?_, ?_, ?_⟩
    · rw [← run_eq_iterate]
      exact run_loopHead settled open_ inside turn
    · rw [evaluations_of_open open_]
      exact iterate_stack_eq_nil_iff (analyzer.run_launch_stack _ _) turn
    · rw [evaluations_of_open open_, ← run_eq_iterate_turnsTaken, depth_of_open open_, finish]
    · have turns := settled.evaluations_succ open_
      exact ⟨_, by omega, rfl, by omega⟩

/-- Measuring `even` completes both functions of `parity` in three turns; after that `odd` takes
none. -/
theorem parity_loop_exact :
    0 < parity.unit.symbols.functions.length ∧ ¬ (parity.after []).Completed 0 ∧
      parity.LoopHead (parity.step (launch (parity.after []) 0)) ∧
      (parity.step (launch (parity.after []) 0)).stack = [1, 0] ∧
      (∃ m, 1 ≤ m ∧
        ((parity.depth (parity.after []) 0).2.newlyCompleted (parity.after [])).card = m ∧
        parity.evaluations (parity.after []) 0 = 2 * m - 1) ∧
      parity.evaluations (parity.after []) 0 = 3 ∧
      1 < parity.unit.symbols.functions.length ∧ (parity.after [0]).Completed 1 ∧
      parity.evaluations (parity.after [0]) 1 = 0 := by
  have open_ : ¬ (parity.after []).Completed 0 := by decide +kernel
  have completed : (parity.after [0]).Completed 1 := by decide +kernel
  have first := depth_loop_exact parity [] 0 (by decide +kernel)
  have second := depth_loop_exact parity [0] 1 (by decide +kernel)
  obtain ⟨heads, -, -, count⟩ := first.2 open_
  exact ⟨by decide +kernel, open_, heads 1, by decide +kernel, count, by decide +kernel,
    by decide +kernel, completed, (second.1 completed).1⟩

end Analyzer

end CallDepth
