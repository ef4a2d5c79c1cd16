/-
# Runs of the engine

`step_cases` says once what a turn can do: push the first callee that was not begun, or complete the
definition on top. All else follows from it.

* `remaining` counts the turns that can still be taken: two for each definition that was not begun
  and one for each definition on the stack. Every turn lowers it, so the bound on turns is never
  reached with a definition on the stack (`run_stack_eq_nil`).
* `History` tells how the memo came about. Each definition was completed once, with the measure of
  its body under the memo of that time, and every callee that was not completed by then leads back
  to the definition.
* `Sound` is kept by every turn: the stack is a path of calls without repetition, and callees of
  completed definitions are completed or on the stack.

Between measurements the stack is empty, so the memo has a history and is closed under calls
(`Settled`, `after_settled`). What is proved of one measure under the outcomes remembered by then
holds of all that is remembered (`History.remembered_induction`).
-/
import CallDepth.Proofs.CallGraph
import Mathlib.Data.Finset.Card
import Mathlib.Data.Finset.Range
import Mathlib.Data.List.Chain
import Mathlib.Data.List.Induction

namespace CallDepth

open Relation

namespace Engine

def Completed (engine : Engine) (id : FunctionId) : Prop :=
  ∃ outcome, engine.outcome? id = some outcome

instance (engine : Engine) (id : FunctionId) : Decidable (engine.Completed id) :=
  decidable_of_iff ((engine.outcome? id).isSome = true) Option.isSome_iff_exists

theorem not_completed_iff {engine : Engine} {id : FunctionId} :
    ¬ engine.Completed id ↔ engine.outcome? id = none := by
  cases found : engine.outcome? id <;> simp [Completed, found]

/-- Outcomes of completed definitions are kept. -/
def Remembers (later earlier : Engine) : Prop :=
  ∀ id outcome, earlier.outcome? id = some outcome → later.outcome? id = some outcome

theorem Remembers.refl (engine : Engine) : engine.Remembers engine :=
  fun _ _ found => found

theorem Remembers.trans {first second third : Engine} (later : third.Remembers second)
    (earlier : second.Remembers first) : third.Remembers first :=
  fun id outcome found => later id outcome (earlier id outcome found)

theorem Remembers.completed {later earlier : Engine} (remembers : later.Remembers earlier)
    {id : FunctionId} (completed : earlier.Completed id) : later.Completed id :=
  completed.imp fun outcome found => remembers id outcome found

theorem outcome?_complete (engine : Engine) (id : FunctionId) (walk : Walk) (other : FunctionId) :
    (engine.complete id walk).outcome? other =
      if other = id then some walk.outcome else engine.outcome? other := by
  simp [outcome?, complete, Assoc.lookup_cons]

@[simp] theorem active_start (engine : Engine) (id : FunctionId) :
    (engine.start id).active = id :: engine.active := rfl

theorem mem_active_complete {engine : Engine} {id : FunctionId} {walk : Walk}
    {other : FunctionId} :
    other ∈ (engine.complete id walk).active ↔ other ∈ engine.active ∧ other ≠ id := by
  simp [complete]

theorem completed_complete_iff {engine : Engine} {id : FunctionId} {walk : Walk}
    {other : FunctionId} :
    (engine.complete id walk).Completed other ↔ other = id ∨ engine.Completed other := by
  unfold Completed
  rw [outcome?_complete]
  split <;> simp_all

theorem active_complete {engine : Engine} {id : FunctionId} {rest : List FunctionId}
    (active : engine.active = id :: rest) (alone : id ∉ rest) (walk : Walk) :
    (engine.complete id walk).active = rest := by
  have apart : ∀ other ∈ rest, other ≠ id := fun other member same => alone (same ▸ member)
  simpa [complete, active] using apart

theorem remembers_complete {engine : Engine} {id : FunctionId} (open_ : ¬ engine.Completed id)
    (walk : Walk) : (engine.complete id walk).Remembers engine := by
  intro other outcome found
  have apart : other ≠ id := fun same => open_ ⟨outcome, same ▸ found⟩
  rw [outcome?_complete, if_neg apart]
  exact found

theorem isUnknown_iff {engine : Engine} {id : FunctionId} :
    engine.isUnknown id = true ↔ ¬ engine.Completed id ∧ id ∉ engine.active := by
  simp [isUnknown, not_completed_iff]

end Engine

namespace Analyzer

/-- The measure of a definition on top of a memo. -/
def conclude (analyzer : Analyzer) (memo : List (FunctionId × Outcome)) (id : FunctionId) : Walk :=
  match analyzer.unit.symbols.function? id with
  | none => .deepest []
  | some definition => analyzer.measureBody definition (analyzer.presumed memo)

theorem conclude_of_found {analyzer : Analyzer} {id : FunctionId} {definition : Definition}
    (found : analyzer.unit.symbols.function? id = some definition)
    (memo : List (FunctionId × Outcome)) :
    analyzer.conclude memo id = analyzer.measureBody definition (analyzer.presumed memo) := by
  simp [conclude, found]

/-- What holds of an outcome without calls and of the measure of the body, if there is one, holds of
the measure of a definition. -/
theorem conclude_holds {analyzer : Analyzer} {motive : Outcome → Prop} (least : motive .floor)
    {memo : List (FunctionId × Outcome)} {id : FunctionId}
    (body : ∀ definition node, analyzer.unit.symbols.function? id = some definition →
      definition.body = some node →
      motive (analyzer.measure definition (analyzer.presumed memo) node).outcome) :
    motive (analyzer.conclude memo id).outcome := by
  cases found : analyzer.unit.symbols.function? id with
  | none =>
      rw [conclude, found]
      exact least
  | some definition =>
      rw [conclude_of_found found, measureBody, walkBody]
      cases inside : definition.body with
      | none => exact least
      | some node => exact body definition node found inside

theorem evaluate_eq (analyzer : Analyzer) (engine : Engine) (id : FunctionId) :
    analyzer.evaluate engine id =
      valueUnless ((analyzer.unit.callees id).find? engine.isUnknown)
        (analyzer.conclude engine.memo id) := by
  unfold evaluate SourceUnit.callees conclude
  cases analyzer.unit.symbols.function? id with
  | none => rfl
  | some definition => exact analyzer.walkBody_answer definition engine

variable {analyzer : Analyzer}

theorem step_of_waiting {engine : Engine} {id next : FunctionId} (rest : List FunctionId)
    (last : Outcome) (waiting : (analyzer.unit.callees id).find? engine.isUnknown = some next) :
    analyzer.step ⟨engine, id :: rest, last⟩ = ⟨engine.start next, next :: id :: rest, last⟩ := by
  simp [step, evaluate_eq, waiting, valueUnless]

theorem step_of_ready {engine : Engine} {id : FunctionId} (rest : List FunctionId) (last : Outcome)
    (ready : (analyzer.unit.callees id).find? engine.isUnknown = none) :
    analyzer.step ⟨engine, id :: rest, last⟩ =
      ⟨engine.complete id (analyzer.conclude engine.memo id), rest,
        (analyzer.conclude engine.memo id).outcome⟩ := by
  simp [step, evaluate_eq, ready, valueUnless]

/-- What a turn does with a definition on top: it pushes a callee that was not begun, or completes
the definition when every callee was begun. -/
theorem step_cases (engine : Engine) (id : FunctionId) (rest : List FunctionId) (last : Outcome) :
    (∃ next, analyzer.unit.Calls id next ∧ ¬ engine.Completed next ∧ next ∉ engine.active ∧
      analyzer.step ⟨engine, id :: rest, last⟩ =
        ⟨engine.start next, next :: id :: rest, last⟩) ∨
    ((∀ callee, analyzer.unit.Calls id callee →
        engine.Completed callee ∨ callee ∈ engine.active) ∧
      analyzer.step ⟨engine, id :: rest, last⟩ =
        ⟨engine.complete id (analyzer.conclude engine.memo id), rest,
          (analyzer.conclude engine.memo id).outcome⟩) := by
  cases waiting : (analyzer.unit.callees id).find? engine.isUnknown with
  | some next =>
      have called := SourceUnit.mem_callees_iff.1 (List.mem_of_find?_eq_some waiting)
      obtain ⟨open_, away⟩ := Engine.isUnknown_iff.1 (List.find?_some waiting)
      exact .inl ⟨next, called, open_, away, step_of_waiting rest last waiting⟩
  | none =>
      refine .inr ⟨fun callee called => ?_, step_of_ready rest last waiting⟩
      have known := List.find?_eq_none.1 waiting callee (SourceUnit.mem_callees_iff.2 called)
      rw [Engine.isUnknown_iff] at known
      tauto

/-! ## Every run ends -/

/-- Fewer numbers below a bound meet a condition when one of them no longer does. -/
theorem card_filter_range_lt {bound number : Nat} {now before : Nat → Prop} [DecidablePred now]
    [DecidablePred before] (fewer : ∀ other, now other → before other) (inside : number < bound)
    (met : before number) (missed : ¬ now number) :
    ((Finset.range bound).filter now).card < ((Finset.range bound).filter before).card := by
  apply Finset.card_lt_card
  refine (Finset.ssubset_iff_of_subset fun other member => ?_).2 ⟨number, ?_, ?_⟩
  · obtain ⟨within, still⟩ := Finset.mem_filter.1 member
    exact Finset.mem_filter.2 ⟨within, fewer other still⟩
  · exact Finset.mem_filter.2 ⟨Finset.mem_range.2 inside, met⟩
  · exact fun member => missed (Finset.mem_filter.1 member).2

def unbegun (analyzer : Analyzer) (engine : Engine) : Finset FunctionId :=
  (Finset.range analyzer.unit.symbols.functions.length).filter (engine.isUnknown ·)

def remaining (analyzer : Analyzer) (machine : Machine) : Nat :=
  2 * (analyzer.unbegun machine.engine).card + machine.stack.length

theorem mem_unbegun_iff {engine : Engine} {id : FunctionId} :
    id ∈ analyzer.unbegun engine ↔
      id < analyzer.unit.symbols.functions.length ∧ ¬ engine.Completed id ∧ id ∉ engine.active := by
  simp [unbegun, Engine.isUnknown_iff]

theorem unbegun_card_le (engine : Engine) :
    (analyzer.unbegun engine).card ≤ analyzer.unit.symbols.functions.length :=
  calc (analyzer.unbegun engine).card
    _ ≤ (Finset.range analyzer.unit.symbols.functions.length).card := Finset.card_filter_le _ _
    _ = analyzer.unit.symbols.functions.length := Finset.card_range _

theorem unbegun_start_card_lt {engine : Engine} {id next : FunctionId}
    (called : analyzer.unit.Calls id next) (open_ : ¬ engine.Completed next)
    (away : next ∉ engine.active) :
    (analyzer.unbegun (engine.start next)).card < (analyzer.unbegun engine).card := by
  refine card_filter_range_lt (fun other unknown => ?_) called.lt_length
    (Engine.isUnknown_iff.2 ⟨open_, away⟩) ?_
  · obtain ⟨open_, away⟩ := Engine.isUnknown_iff.1 unknown
    exact Engine.isUnknown_iff.2 ⟨open_, fun begun => away (List.mem_cons_of_mem _ begun)⟩
  · simp [Engine.isUnknown_iff]

theorem unbegun_complete_card_le (engine : Engine) (id : FunctionId) (walk : Walk) :
    (analyzer.unbegun (engine.complete id walk)).card ≤ (analyzer.unbegun engine).card := by
  apply Finset.card_le_card
  intro other member
  obtain ⟨inside, open_, away⟩ := mem_unbegun_iff.1 member
  rw [Engine.completed_complete_iff, not_or] at open_
  exact mem_unbegun_iff.2
    ⟨inside, open_.2, fun begun => away (Engine.mem_active_complete.2 ⟨begun, open_.1⟩)⟩

/-- Every turn uses up one of those that remain. -/
theorem remaining_step_lt {machine : Machine} (busy : machine.stack ≠ []) :
    analyzer.remaining (analyzer.step machine) < analyzer.remaining machine := by
  obtain ⟨engine, stack, last⟩ := machine
  cases stack with
  | nil => exact absurd rfl busy
  | cons id rest =>
      rcases analyzer.step_cases engine id rest last with
        ⟨next, called, open_, away, stepped⟩ | ⟨-, stepped⟩
      · have fewer := unbegun_start_card_lt called open_ away
        simp only [stepped, remaining, List.length_cons]
        omega
      · have fewer := analyzer.unbegun_complete_card_le engine id
          (analyzer.conclude engine.memo id)
        simp only [stepped, remaining, List.length_cons]
        omega

/-- With enough turns the stack ends empty. -/
theorem run_stack_eq_nil {turns : Nat} {machine : Machine}
    (enough : analyzer.remaining machine ≤ turns) : (analyzer.run turns machine).stack = [] := by
  induction turns generalizing machine with
  | zero =>
      have : machine.stack.length = 0 := by
        unfold remaining at enough
        omega
      exact List.eq_nil_of_length_eq_zero this
  | succ turns ih =>
      rw [run]
      split
      · rename_i idle
        simpa using idle
      · rename_i busy
        have fewer : analyzer.remaining (analyzer.step machine) < analyzer.remaining machine :=
          remaining_step_lt (by simpa using busy)
        exact ih (by omega)

/-- What every turn with a definition on the stack keeps is kept by a run. -/
theorem run_preserves {motive : Machine → Prop}
    (kept : ∀ machine, machine.stack ≠ [] → motive machine → motive (analyzer.step machine))
    (turns : Nat) {machine : Machine} (holds : motive machine) :
    motive (analyzer.run turns machine) := by
  induction turns generalizing machine with
  | zero => exact holds
  | succ turns ih =>
      rw [run]
      split
      · exact holds
      · rename_i busy
        exact ih (kept machine (by simpa using busy) holds)

/-! ## How a memo came about -/

/-- The memo and the log of definitions completed one after another, each with the measure of its
body on top of the memo of that time. A callee that was not completed by then leads back to the
definition. -/
inductive History (analyzer : Analyzer) :
    List (FunctionId × Outcome) → List CallEvent → Prop where
  | start : History analyzer [] []
  | complete {memo : List (FunctionId × Outcome)} {log : List CallEvent} {id : FunctionId}
      (earlier : History analyzer memo log) (fresh : memo.lookup id = none)
      (back : ∀ callee, analyzer.unit.Calls id callee → memo.lookup callee = none →
        analyzer.unit.Reaches callee id) :
      History analyzer ((id, (analyzer.conclude memo id).outcome) :: memo)
        (log ++ (analyzer.conclude memo id).events)

/-- Each remembered outcome is the measure of its definition on top of an earlier memo, which the
memo still agrees with. -/
theorem History.origin {memo : List (FunctionId × Outcome)} {log : List CallEvent}
    (history : analyzer.History memo log) {id : FunctionId} {outcome : Outcome}
    (found : memo.lookup id = some outcome) :
    ∃ older olderLog, analyzer.History older olderLog ∧ older.lookup id = none ∧
      outcome = (analyzer.conclude older id).outcome ∧
      (∀ callee, analyzer.unit.Calls id callee → older.lookup callee = none →
        analyzer.unit.Reaches callee id) ∧
      ∀ other result, older.lookup other = some result → memo.lookup other = some result := by
  induction history with
  | start => cases found
  | complete earlier fresh back ih =>
      rename_i older olderLog last
      have grown : ∀ other result, older.lookup other = some result →
          List.lookup other ((last, (analyzer.conclude older last).outcome) :: older) =
            some result := by
        intro other result kept
        have apart : other ≠ last := fun same => by
          rw [same, fresh] at kept
          cases kept
        simpa [Assoc.lookup_cons, apart] using kept
      rw [Assoc.lookup_cons] at found
      split at found
      · rename_i same
        obtain rfl := eq_of_beq same
        cases found
        exact ⟨older, olderLog, earlier, fresh, rfl, back, grown⟩
      · obtain ⟨oldest, oldestLog, history, fresh, measured, back, kept⟩ := ih found
        exact ⟨oldest, oldestLog, history, fresh, measured, back,
          fun other result known => grown other result (kept other result known)⟩

/-- What holds of the measure of a definition whenever it holds of all that is remembered by then,
holds of all that is remembered. -/
theorem History.remembered_induction {motive : FunctionId → Outcome → Prop}
    (measured : ∀ memo id, memo.lookup id = none →
      (∀ other outcome, memo.lookup other = some outcome → motive other outcome) →
      (∀ callee, analyzer.unit.Calls id callee → memo.lookup callee = none →
        analyzer.unit.Reaches callee id) →
      motive id (analyzer.conclude memo id).outcome)
    {memo : List (FunctionId × Outcome)} {log : List CallEvent}
    (history : analyzer.History memo log) {id : FunctionId} {outcome : Outcome}
    (found : memo.lookup id = some outcome) : motive id outcome := by
  induction history generalizing id outcome with
  | start => cases found
  | complete earlier fresh back ih =>
      rename_i older olderLog last
      rw [Assoc.lookup_cons] at found
      split at found
      · rename_i same
        obtain rfl := eq_of_beq same
        cases found
        exact measured older id fresh (fun other outcome known => ih known) back
      · exact ih found

/-- What holds of the engine at every turn. -/
structure Sound (analyzer : Analyzer) (machine : Machine) : Prop where
  active : machine.engine.active = machine.stack
  nodup : machine.stack.Nodup
  fresh : ∀ id ∈ machine.stack, ¬ machine.engine.Completed id
  /-- Every definition on the stack was pushed for a call of the one below. -/
  path : machine.stack.IsChain fun callee caller => analyzer.unit.Calls caller callee
  history : analyzer.History machine.engine.memo machine.engine.log
  closed : ∀ caller callee, machine.engine.Completed caller → analyzer.unit.Calls caller callee →
    machine.engine.Completed callee ∨ callee ∈ machine.stack

theorem reaches_top {top id : FunctionId} {rest : List FunctionId}
    (path : (top :: rest).IsChain fun callee caller => analyzer.unit.Calls caller callee)
    (member : id ∈ top :: rest) : analyzer.unit.Reaches id top := by
  induction rest generalizing top with
  | nil =>
      obtain rfl := List.mem_singleton.1 member
      exact .refl
  | cons below rest ih =>
      rw [List.isChain_cons_cons] at path
      rcases List.mem_cons.1 member with rfl | deeper
      · exact .refl
      · exact (ih path.2 deeper).tail path.1

theorem Sound.push {engine : Engine} {id next : FunctionId} {rest : List FunctionId}
    {last : Outcome} (sound : analyzer.Sound ⟨engine, id :: rest, last⟩)
    (called : analyzer.unit.Calls id next) (open_ : ¬ engine.Completed next)
    (away : next ∉ engine.active) :
    analyzer.Sound ⟨engine.start next, next :: id :: rest, last⟩ := by
  have active : engine.active = id :: rest := sound.active
  refine ⟨?_, ?_, ?_, List.isChain_cons_cons.2 ⟨called, sound.path⟩, sound.history, ?_⟩
  · rw [Engine.active_start, active]
  · exact List.nodup_cons.2 ⟨active ▸ away, sound.nodup⟩
  · intro other member
    rcases List.mem_cons.1 member with rfl | below
    · exact open_
    · exact sound.fresh other below
  · intro caller callee completed calls
    exact (sound.closed caller callee completed calls).imp_right (List.mem_cons_of_mem _)

theorem Sound.pop {engine : Engine} {id : FunctionId} {rest : List FunctionId} {last : Outcome}
    (sound : analyzer.Sound ⟨engine, id :: rest, last⟩)
    (known : ∀ callee, analyzer.unit.Calls id callee →
      engine.Completed callee ∨ callee ∈ engine.active) :
    analyzer.Sound ⟨engine.complete id (analyzer.conclude engine.memo id), rest,
      (analyzer.conclude engine.memo id).outcome⟩ := by
  have active : engine.active = id :: rest := sound.active
  obtain ⟨alone, nodup⟩ := List.nodup_cons.1 sound.nodup
  have settle : ∀ callee, engine.Completed callee ∨ callee ∈ id :: rest →
      (engine.complete id (analyzer.conclude engine.memo id)).Completed callee ∨
        callee ∈ rest := by
    intro callee begun
    rw [Engine.completed_complete_iff]
    rw [List.mem_cons] at begun
    tauto
  refine ⟨Engine.active_complete active alone _, nodup, ?_, sound.path.tail, ?_, ?_⟩
  · intro other member completed
    rcases Engine.completed_complete_iff.1 completed with rfl | completed
    · exact alone member
    · exact sound.fresh other (List.mem_cons_of_mem _ member) completed
  · refine .complete sound.history ?_ fun callee calls missing => ?_
    · exact Engine.not_completed_iff.1 (sound.fresh id List.mem_cons_self)
    · have begun := (known callee calls).resolve_left (Engine.not_completed_iff.2 missing)
      exact reaches_top sound.path (active ▸ begun)
  · intro caller callee completed calls
    rcases Engine.completed_complete_iff.1 completed with rfl | completed
    · exact settle callee (active ▸ known callee calls)
    · exact settle callee (sound.closed caller callee completed calls)

/-- A turn keeps the engine sound. -/
theorem step_sound (machine : Machine) (busy : machine.stack ≠ [])
    (sound : analyzer.Sound machine) : analyzer.Sound (analyzer.step machine) := by
  obtain ⟨engine, stack, last⟩ := machine
  cases stack with
  | nil => exact absurd rfl busy
  | cons id rest =>
      rcases analyzer.step_cases engine id rest last with
        ⟨next, called, open_, away, stepped⟩ | ⟨known, stepped⟩
      · exact stepped ▸ sound.push called open_ away
      · exact stepped ▸ sound.pop known

/-- The engine is sound at every turn. -/
theorem run_sound (turns : Nat) {machine : Machine} (sound : analyzer.Sound machine) :
    analyzer.Sound (analyzer.run turns machine) :=
  run_preserves step_sound turns sound

/-- Only definitions that the first one on the stack reaches get onto it and are completed. -/
theorem run_confined {root : FunctionId} (turns : Nat) {machine : Machine}
    (reached : ∀ id ∈ machine.stack, analyzer.unit.Reaches root id) :
    (∀ id ∈ (analyzer.run turns machine).stack, analyzer.unit.Reaches root id) ∧
      ∀ id, (analyzer.run turns machine).engine.Completed id →
        machine.engine.Completed id ∨ analyzer.unit.Reaches root id := by
  refine run_preserves (motive := fun later =>
    (∀ id ∈ later.stack, analyzer.unit.Reaches root id) ∧
      ∀ id, later.engine.Completed id →
        machine.engine.Completed id ∨ analyzer.unit.Reaches root id)
    ?_ turns ⟨reached, fun _ => .inl⟩
  rintro ⟨engine, stack, last⟩ busy ⟨reached, confined⟩
  cases stack with
  | nil => exact absurd rfl busy
  | cons top rest =>
      have below : ∀ id ∈ rest, analyzer.unit.Reaches root id := fun id member =>
        reached id (List.mem_cons_of_mem _ member)
      have reachedTop := reached top List.mem_cons_self
      rcases analyzer.step_cases engine top rest last with
        ⟨next, called, -, -, stepped⟩ | ⟨-, stepped⟩
      · rw [stepped]
        exact ⟨List.forall_mem_cons.2 ⟨reachedTop.tail called, reached⟩, confined⟩
      · rw [stepped]
        refine ⟨below, fun id completed => ?_⟩
        rcases Engine.completed_complete_iff.1 completed with rfl | completed
        · exact .inr reachedTop
        · exact confined id completed

theorem run_reached {root : FunctionId} (turns : Nat) {machine : Machine}
    (reached : ∀ id ∈ machine.stack, analyzer.unit.Reaches root id) :
    ∀ id ∈ (analyzer.run turns machine).stack, analyzer.unit.Reaches root id :=
  (run_confined turns reached).1

/-- A definition is completed or on the stack. -/
def Begun (machine : Machine) (id : FunctionId) : Prop :=
  machine.engine.Completed id ∨ id ∈ machine.stack

/-- A turn forgets no outcome and drops no definition. -/
theorem step_grows (machine : Machine) (busy : machine.stack ≠ [])
    (sound : analyzer.Sound machine) :
    (analyzer.step machine).engine.Remembers machine.engine ∧
      ∀ id, Begun machine id → Begun (analyzer.step machine) id := by
  obtain ⟨engine, stack, last⟩ := machine
  cases stack with
  | nil => exact absurd rfl busy
  | cons top rest =>
      rcases analyzer.step_cases engine top rest last with
        ⟨next, -, -, -, stepped⟩ | ⟨-, stepped⟩
      · rw [stepped]
        exact ⟨fun _ _ found => found, fun id begun => begun.imp_right (List.mem_cons_of_mem _)⟩
      · have open_ := sound.fresh top List.mem_cons_self
        rw [stepped]
        refine ⟨Engine.remembers_complete open_ _, fun id begun => ?_⟩
        unfold Begun at begun ⊢
        rw [Engine.completed_complete_iff]
        rw [List.mem_cons] at begun
        tauto

theorem run_grows (turns : Nat) {machine : Machine} (sound : analyzer.Sound machine) :
    (analyzer.run turns machine).engine.Remembers machine.engine ∧
      ∀ id, Begun machine id → Begun (analyzer.run turns machine) id := by
  refine (run_preserves (motive := fun later => analyzer.Sound later ∧
    later.engine.Remembers machine.engine ∧ ∀ id, Begun machine id → Begun later id)
    ?_ turns ⟨sound, .refl _, fun _ begun => begun⟩).2
  rintro later busy ⟨laterSound, remembers, begun⟩
  obtain ⟨stepRemembers, stepBegun⟩ := analyzer.step_grows later busy laterSound
  exact ⟨step_sound later busy laterSound, stepRemembers.trans remembers,
    fun id before => stepBegun id (begun id before)⟩

/-! ## Between measurements -/

/-- What holds of the engine between measurements. -/
structure Settled (analyzer : Analyzer) (engine : Engine) : Prop where
  idle : engine.active = []
  history : analyzer.History engine.memo engine.log
  closed : ∀ caller callee, engine.Completed caller → analyzer.unit.Calls caller callee →
    engine.Completed callee

/-- A sound engine with an empty stack is settled. -/
theorem Sound.settled {machine : Machine} (sound : analyzer.Sound machine)
    (done : machine.stack = []) : analyzer.Settled machine.engine where
  idle := sound.active.trans done
  history := sound.history
  closed := fun caller callee completed calls =>
    (sound.closed caller callee completed calls).resolve_right (by simp [done])

theorem settled_empty : analyzer.Settled {} where
  idle := rfl
  history := .start
  closed := fun _ _ completed => nomatch completed

/-- Whatever a completed definition leads to is completed. -/
theorem Settled.completed_of_reaches {engine : Engine} (settled : analyzer.Settled engine)
    {id other : FunctionId} (completed : engine.Completed id)
    (reaches : analyzer.unit.Reaches id other) : engine.Completed other := by
  induction reaches with
  | refl => exact completed
  | tail _ calls ih => exact settled.closed _ _ ih calls

/-- The engine before its first turn for a definition. -/
def launch (engine : Engine) (id : FunctionId) : Machine :=
  ⟨engine.start id, [id], .floor⟩

/-- The engine after its turns for a definition. -/
def finish (analyzer : Analyzer) (engine : Engine) (id : FunctionId) : Engine :=
  (analyzer.run analyzer.turnBound (launch engine id)).engine

theorem Settled.launch {engine : Engine} (settled : analyzer.Settled engine) {id : FunctionId}
    (open_ : ¬ engine.Completed id) : analyzer.Sound (launch engine id) := by
  refine ⟨?_, List.nodup_singleton id, ?_, .singleton id, settled.history, ?_⟩
  · exact congrArg (id :: ·) settled.idle
  · intro other member
    exact List.mem_singleton.1 member ▸ open_
  · intro caller callee completed calls
    exact .inl (settled.closed caller callee completed calls)

theorem run_launch_stack (engine : Engine) (id : FunctionId) :
    (analyzer.run analyzer.turnBound (launch engine id)).stack = [] := by
  apply run_stack_eq_nil
  have fewer := analyzer.unbegun_card_le (engine.start id)
  simp only [remaining, turnBound, launch, List.length_singleton]
  omega

theorem depth_of_completed {engine : Engine} {id : FunctionId} {outcome : Outcome}
    (found : engine.outcome? id = some outcome) : analyzer.depth engine id = (outcome, engine) := by
  simp [depth, found]

/-- A definition lies at the bottom of the stack, or it was completed last. -/
def LastIs (id : FunctionId) (machine : Machine) : Prop :=
  (∃ above, machine.stack = above ++ [id]) ∨
    machine.stack = [] ∧ machine.engine.outcome? id = some machine.last

theorem step_lastIs {id : FunctionId} (machine : Machine) (busy : machine.stack ≠ [])
    (bottom : LastIs id machine) : LastIs id (analyzer.step machine) := by
  obtain ⟨engine, stack, last⟩ := machine
  rcases bottom with ⟨above, rfl⟩ | ⟨idle, -⟩
  · cases above with
    | nil =>
        rcases analyzer.step_cases engine id [] last with ⟨next, -, -, -, stepped⟩ | ⟨-, stepped⟩
        · exact .inl ⟨[next], congrArg Machine.stack stepped⟩
        · refine .inr ⟨congrArg Machine.stack stepped, ?_⟩
          rw [List.nil_append, stepped, Engine.outcome?_complete, if_pos rfl]
    | cons top rest =>
        rcases analyzer.step_cases engine top (rest ++ [id]) last with
          ⟨next, -, -, -, stepped⟩ | ⟨-, stepped⟩
        · exact .inl ⟨next :: top :: rest, congrArg Machine.stack stepped⟩
        · exact .inl ⟨rest, congrArg Machine.stack stepped⟩
  · exact absurd idle busy

/-- The outcome of the last turn is the one that the engine remembers of the definition. -/
theorem outcome?_finish (engine : Engine) (id : FunctionId) :
    (analyzer.finish engine id).outcome? id =
      some (analyzer.run analyzer.turnBound (launch engine id)).last := by
  have done := analyzer.run_launch_stack engine id
  have bottom : LastIs id (analyzer.run analyzer.turnBound (launch engine id)) :=
    run_preserves step_lastIs analyzer.turnBound (.inl ⟨[], rfl⟩)
  rcases bottom with ⟨above, more⟩ | ⟨-, completed⟩
  · simp [done] at more
  · exact completed

/-- A measurement gives the outcome that the engine then remembers. -/
theorem depth_of_open {engine : Engine} {id : FunctionId} (open_ : ¬ engine.Completed id) :
    analyzer.depth engine id =
      (((analyzer.finish engine id).outcome? id).getD .floor, analyzer.finish engine id) := by
  rw [depth, Engine.not_completed_iff.1 open_, outcome?_finish]
  rfl

/-- A measurement leaves the engine settled, forgets no outcome, and gives the outcome that the
engine remembers from then on. -/
theorem Settled.depth {engine : Engine} (settled : analyzer.Settled engine) (id : FunctionId) :
    analyzer.Settled (analyzer.depth engine id).2 ∧
      (analyzer.depth engine id).2.Remembers engine ∧
      (analyzer.depth engine id).2.outcome? id = some (analyzer.depth engine id).1 := by
  by_cases completed : engine.Completed id
  · obtain ⟨outcome, found⟩ := completed
    rw [depth_of_completed found]
    exact ⟨settled, .refl engine, found⟩
  · have done := analyzer.run_launch_stack engine id
    have sound := analyzer.run_sound analyzer.turnBound (settled.launch completed)
    have remembers := (analyzer.run_grows analyzer.turnBound (settled.launch completed)).1
    have outcome := analyzer.outcome?_finish engine id
    rw [depth_of_open completed]
    exact ⟨sound.settled done, remembers, by simp [outcome]⟩

/-- The engine after measuring definitions one after another. -/
def after (analyzer : Analyzer) (ids : List FunctionId) : Engine :=
  ids.foldl (fun engine id => (analyzer.depth engine id).2) {}

theorem after_concat (ids : List FunctionId) (id : FunctionId) :
    analyzer.after (ids ++ [id]) = (analyzer.depth (analyzer.after ids) id).2 := by
  simp [after]

/-- Between measurements the engine is settled. -/
theorem after_settled (ids : List FunctionId) : analyzer.Settled (analyzer.after ids) := by
  induction ids using List.reverseRecOn with
  | nil => exact settled_empty
  | append_singleton ids id ih => exact after_concat ids id ▸ (ih.depth id).1

/-- Outcomes are kept through all later measurements. -/
theorem after_remembers (ids more : List FunctionId) :
    (analyzer.after (ids ++ more)).Remembers (analyzer.after ids) := by
  induction more using List.reverseRecOn with
  | nil => simpa using Engine.Remembers.refl _
  | append_singleton more id ih =>
      rw [← List.append_assoc, after_concat]
      exact ((after_settled (ids ++ more)).depth id).2.1.trans ih

/-- All that was measured is completed. -/
theorem after_completed {earlier later : List FunctionId} (id : FunctionId) :
    (analyzer.after (earlier ++ id :: later)).Completed id := by
  rw [List.append_cons]
  refine (after_remembers (earlier ++ [id]) later).completed ?_
  rw [after_concat]
  exact ⟨_, ((after_settled earlier).depth id).2.2⟩

/-- Two functions that call each other, one of them in the argument of a free call. -/
def parity : Analyzer where
  unit := .ofTree <| .contract "Parity" "contract" [] [
    .function "even" 1 "public" "pure"
      (some (.call false (some (.identifier "require")) (some 1) [
        .call false (some (.identifier "odd")) (some 1) [
          .call false (some (.identifier "decrement")) (some 1) [.identifier "n"]]])) [],
    .function "odd" 1 "public" "pure"
      (some (.call false (some (.identifier "even")) (some 1) [.identifier "n"])) []]
  options := { trace := true }

/-- The outcome of `even` in `parity`, measured first: the call of `even` in `odd` is recursive. -/
def parityEven : Outcome where
  depth := 3
  trace :=
    .call ⟨"require", 0, ⟨3, 0, 0⟩, .args, none⟩
      (.call ⟨"odd", 1, ⟨1, 0, 2⟩, .callee, some userDefined⟩
        (.call ⟨"even", 1, ⟨0, 0, 1⟩, .callee, some userDefined⟩
          (.recursion "even" "Parity")))

end Analyzer

end CallDepth
