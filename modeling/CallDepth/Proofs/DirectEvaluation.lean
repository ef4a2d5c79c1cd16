/-
# Evaluation without restarts

`Analyzer.direct` measures a definition by plain recursion. Each body is walked once; at a call it
takes the remembered outcome of the callee, or the value of a recursive call when the callee is on
the path of definitions being measured, or measures the callee first and goes on with the same walk.

The engine gives up a walk at a callee it does not know and walks the body again later. It computes
the same: `depth_eq_direct`. What a walk was told before it was given up is told again, since
remembered outcomes stay and no definition on the stack is completed in between.
-/
import CallDepth.Proofs.Run

namespace CallDepth

open Relation

namespace Analyzer

def outside (analyzer : Analyzer) (path : List FunctionId) : Finset FunctionId :=
  (Finset.range analyzer.unit.symbols.functions.length).filter (· ∉ path)

theorem outside_cons_card_lt {analyzer : Analyzer} {path : List FunctionId} {id : FunctionId}
    {definition : Definition} (found : analyzer.unit.symbols.function? id = some definition)
    (away : id ∉ path) : (analyzer.outside (id :: path)).card < (analyzer.outside path).card := by
  have inside := (List.getElem?_eq_some_iff.1 found).1
  refine card_filter_range_lt (fun other outer => ?_) inside away ?_
  · exact fun member => outer (List.mem_cons_of_mem _ member)
  · exact not_not_intro List.mem_cons_self

/-- Complete a definition and give its outcome. -/
def remember (id : FunctionId) (walk : Walk) : StateM Engine Outcome := do
  modify fun engine => engine.complete id walk
  pure walk.outcome

/-- Measure a definition by recursion, below a path of definitions that are being measured. -/
def direct (analyzer : Analyzer) (path : List FunctionId) (id : FunctionId) :
    StateM Engine Outcome := do
  let engine ← get
  match engine.outcome? id with
  | some outcome => pure outcome
  | none =>
      if _ : id ∈ path then pure (analyzer.recursive id)
      else
        match _ : analyzer.unit.symbols.function? id with
        | none => remember id (.deepest [])
        | some definition => do
            let walk ←
              analyzer.walkBody definition fun callee => analyzer.direct (id :: path) callee
            remember id walk
termination_by (analyzer.outside path).card
decreasing_by exact outside_cons_card_lt ‹_› ‹_›

/-- Asked for functions one after another, starting from one engine and ending with another, the
replies are the given outcomes. -/
inductive Replies (ask : FunctionId → StateM Engine Outcome) (outcomes : FunctionId → Outcome) :
    List FunctionId → Engine → Engine → Prop where
  | nil (engine : Engine) : Replies ask outcomes [] engine engine
  | cons {id : FunctionId} {rest : List FunctionId} {before middle after : Engine}
      (reply : (ask id).run before = (outcomes id, middle))
      (others : Replies ask outcomes rest middle after) :
      Replies ask outcomes (id :: rest) before after

theorem replies_append {ask : FunctionId → StateM Engine Outcome}
    {outcomes : FunctionId → Outcome} {first second : List FunctionId} {before after : Engine} :
    Replies ask outcomes (first ++ second) before after ↔
      ∃ middle, Replies ask outcomes first before middle ∧
        Replies ask outcomes second middle after := by
  induction first generalizing before with
  | nil =>
      constructor
      · intro replies
        exact ⟨before, .nil before, replies⟩
      · rintro ⟨middle, ⟨⟩, replies⟩
        exact replies
  | cons id rest ih =>
      constructor
      · rintro (⟨⟩ | ⟨reply, others⟩)
        obtain ⟨middle, left, right⟩ := ih.1 others
        exact ⟨middle, .cons reply left, right⟩
      · rintro ⟨middle, ⟨⟩ | ⟨reply, left⟩, right⟩
        exact .cons reply (ih.2 ⟨middle, left, right⟩)

theorem run_bind_of_run {α β : Type} {first : StateM Engine α} {next : α → StateM Engine β}
    {before middle : Engine} {value : α} (run : first.run before = (value, middle)) :
    (first >>= next).run before = (next value).run middle := by
  rw [StateT.run_bind, run]
  rfl

theorem run_get_bind {β : Type} {next : Engine → StateM Engine β} (before : Engine) :
    (get >>= next).run before = (next before).run before := rfl

section Walks

variable {analyzer : Analyzer} {caller : Definition} {ask : FunctionId → StateM Engine Outcome}
  {outcomes : FunctionId → Outcome}

theorem walkAll_replies {nodes : List Node}
    (each : ∀ node ∈ nodes, ∀ before after : Engine,
      Replies ask outcomes (analyzer.unit.targets caller.owner node.calls) before after →
      (analyzer.walk caller ask node).run before =
        (analyzer.measure caller outcomes node, after))
    {before after : Engine}
    (replies : Replies ask outcomes
      (analyzer.unit.targets caller.owner (nodes.flatMap Node.calls)) before after) :
    (analyzer.walkAll caller ask nodes).run before =
      (nodes.map (analyzer.measure caller outcomes), after) := by
  induction nodes generalizing before with
  | nil =>
      cases replies
      rfl
  | cons node rest ih =>
      rw [List.flatMap_cons, SourceUnit.targets_append, replies_append] at replies
      obtain ⟨middle, left, right⟩ := replies
      have head := each node List.mem_cons_self before middle left
      have tail := ih (fun other member => each other (List.mem_cons_of_mem _ member)) right
      rw [walkAll, run_bind_of_run head, run_bind_of_run tail]
      rfl

/-- The callee of a call is asked for once, and its outcome is the answer. -/
theorem askCallee_replies {site : CallSite} {before after : Engine}
    (replies : Replies ask outcomes (analyzer.unit.targets caller.owner [site]) before after) :
    (analyzer.askCallee caller ask site).run before =
      ((analyzer.unit.resolve? site caller.owner).map outcomes, after) := by
  rw [askCallee_eq]
  unfold SourceUnit.targets at replies
  cases resolved : analyzer.unit.resolve? site caller.owner with
  | none =>
      simp only [List.filterMap_cons, resolved, List.filterMap_nil] at replies
      cases replies
      rfl
  | some id =>
      simp only [List.filterMap_cons, resolved, List.filterMap_nil] at replies
      obtain ⟨⟩ | ⟨reply, ⟨⟩⟩ := replies
      simp only [StateT.run_map, reply]
      rfl

/-- A walk that asks and is told outcomes gives the measure under these outcomes. -/
theorem walk_replies (node : Node) {before after : Engine}
    (replies : Replies ask outcomes (analyzer.unit.targets caller.owner node.calls) before after) :
    (analyzer.walk caller ask node).run before =
      (analyzer.measure caller outcomes node, after) := by
  induction node using Node.children_induction generalizing before after with
  | site site operands callee =>
      rw [Node.calls_site, SourceUnit.targets_append, replies_append] at replies
      obtain ⟨late, replies, reached⟩ := replies
      rw [SourceUnit.targets_append, replies_append] at replies
      obtain ⟨middle, args, expr⟩ := replies
      have argsRun := walkAll_replies (fun child member _ _ => operands child member) args
      have exprRun := walkAll_replies (fun child member _ _ => callee child member) expr
      rw [walk_site, measure_site, run_bind_of_run argsRun, run_bind_of_run exprRun,
        run_bind_of_run (askCallee_replies reached)]
      rfl
  | plain node plain children =>
      rw [Node.calls_of_plain plain] at replies
      have all := walkAll_replies (fun child member _ _ => children child member) replies
      rw [walk_of_plain _ _ _ plain, measure_of_plain _ _ _ plain, run_bind_of_run all]
      rfl

/-- A body whose callees reply with given outcomes is measured with these. -/
theorem walkBody_replies {before after : Engine}
    (replies : Replies ask outcomes (analyzer.unit.targets caller.owner caller.calls)
      before after) :
    (analyzer.walkBody caller ask).run before =
      (analyzer.measureBody caller outcomes, after) := by
  unfold Definition.calls at replies
  unfold walkBody measureBody walkBody
  cases body : caller.body with
  | none =>
      rw [body] at replies
      cases replies
      rfl
  | some node =>
      rw [body] at replies
      exact walk_replies node replies

end Walks

/-! ## The recursion by cases -/

section Cases

variable {analyzer : Analyzer} {path : List FunctionId} {id : FunctionId} {before : Engine}

/-- A remembered outcome is the reply. -/
theorem direct_of_completed {outcome : Outcome} (found : before.outcome? id = some outcome) :
    (analyzer.direct path id).run before = (outcome, before) := by
  rw [direct, run_get_bind, found]
  rfl

/-- A definition that is being measured replies as a recursive call. -/
theorem direct_of_onPath (open_ : ¬ before.Completed id) (onPath : id ∈ path) :
    (analyzer.direct path id).run before = (analyzer.recursive id, before) := by
  rw [direct, run_get_bind, Engine.not_completed_iff.1 open_]
  simp only [onPath, dite_true]
  rfl

/-- A definition away from the path: its body is walked once, and the replies of that walk, read as
outcomes, give its measure. -/
theorem direct_of_replies {after : Engine} (open_ : ¬ before.Completed id) (away : id ∉ path)
    (replies : Replies (analyzer.direct (id :: path)) (analyzer.presumed after.memo)
      (analyzer.unit.callees id) before after) :
    (analyzer.direct path id).run before =
      ((analyzer.conclude after.memo id).outcome,
        after.complete id (analyzer.conclude after.memo id)) := by
  rw [direct, run_get_bind, Engine.not_completed_iff.1 open_]
  simp only [away, dite_false]
  unfold SourceUnit.callees at replies
  unfold conclude
  split
  · rename_i absent
    rw [absent] at replies
    simp only [absent]
    cases replies
    rfl
  · rename_i definition found
    rw [found] at replies
    simp only [found]
    rw [run_bind_of_run (walkBody_replies replies)]
    rfl

end Cases

/-! ## The engine takes the same course -/

def Turn (analyzer : Analyzer) (machine next : Machine) : Prop :=
  machine.stack ≠ [] ∧ analyzer.step machine = next

/-- The engine with a path of definitions on its stack. -/
def along (engine : Engine) (path : List FunctionId) (last : Outcome) : Machine :=
  ⟨{ engine with active := path }, path, last⟩

/-- Turns lead from one engine to another, with paths on the stacks. -/
def Leads (analyzer : Analyzer) (before : Engine) (path : List FunctionId) (after : Engine)
    (rest : List FunctionId) : Prop :=
  ∀ last, ∃ next, ReflTransGen analyzer.Turn (along before path last) (along after rest next)

variable {analyzer : Analyzer}

theorem Leads.refl (engine : Engine) (path : List FunctionId) :
    analyzer.Leads engine path engine path :=
  fun last => ⟨last, .refl⟩

theorem Leads.trans {first second third : Engine} {path middle rest : List FunctionId}
    (begins : analyzer.Leads first path second middle)
    (ends : analyzer.Leads second middle third rest) : analyzer.Leads first path third rest := by
  intro last
  obtain ⟨next, turns⟩ := begins last
  obtain ⟨final, more⟩ := ends next
  exact ⟨final, turns.trans more⟩

/-- With enough turns allowed, the loop ends in the machine that turns lead to. -/
theorem run_eq_of_turns {machine final : Machine}
    (turns : ReflTransGen analyzer.Turn machine final) (done : final.stack = []) {bound : Nat}
    (enough : (analyzer.run bound machine).stack = []) : analyzer.run bound machine = final := by
  induction turns using ReflTransGen.head_induction_on generalizing bound with
  | refl => cases bound <;> simp [run, done]
  | head turn _ ih =>
      obtain ⟨busy, rfl⟩ := turn
      cases bound with
      | zero => exact absurd enough busy
      | succ bound =>
          rw [run, if_neg (by simpa using busy)] at enough ⊢
          exact ih enough

/-- From one engine to another, the recursion for a definition and the turns of the engine agree:
the reply is the presumed outcome, and the turns complete the definition and nothing on the path. -/
structure Agreement (analyzer : Analyzer) (path : List FunctionId) (id : FunctionId)
    (before after : Engine) : Prop where
  reply : (analyzer.direct path id).run before = (analyzer.presumed after.memo id, after)
  idle : after.active = []
  remembers : after.Remembers before
  fresh : ∀ other ∈ path, ¬ after.Completed other
  begun : after.Completed id ∨ id ∈ path
  known : before.Completed id ∨ id ∈ path → after = before
  turns : ¬ before.Completed id → id ∉ path →
    analyzer.Leads before (id :: path) after path

theorem isUnknown_along_iff {engine : Engine} {path : List FunctionId} {last : Outcome}
    {id : FunctionId} :
    (along engine path last).engine.isUnknown id = true ↔ ¬ engine.Completed id ∧ id ∉ path :=
  Engine.isUnknown_iff

/-- Later memos presume of a begun definition what earlier ones did. -/
theorem presumed_eq_of_remembers {earlier later : Engine} {path : List FunctionId}
    {id : FunctionId} (remembers : later.Remembers earlier)
    (fresh : ∀ other ∈ path, ¬ later.Completed other)
    (begun : earlier.Completed id ∨ id ∈ path) :
    analyzer.presumed earlier.memo id = analyzer.presumed later.memo id := by
  rcases begun with ⟨outcome, found⟩ | onPath
  · rw [presumed_of_found found, presumed_of_found (remembers id outcome found)]
  · have missing := fresh id onPath
    have earlierMissing : ¬ earlier.Completed id := fun found => missing (remembers.completed found)
    rw [presumed_of_missing (Engine.not_completed_iff.1 missing),
      presumed_of_missing (Engine.not_completed_iff.1 earlierMissing)]

/-- The callees of a definition on top of the stack, taken in order. The walk is given up at most
once for each, and those before it stay known. -/
theorem callees_agree {id : FunctionId} {path : List FunctionId}
    (each : ∀ callee ∈ analyzer.unit.callees id, ∀ before : Engine, before.active = [] →
      (∀ other ∈ id :: path, ¬ before.Completed other) →
      ∃ after, analyzer.Agreement (id :: path) callee before after)
    {earlier later : List FunctionId} (split : analyzer.unit.callees id = earlier ++ later)
    {before : Engine} (idle : before.active = [])
    (fresh : ∀ other ∈ id :: path, ¬ before.Completed other)
    (known : ∀ callee ∈ earlier, before.Completed callee ∨ callee ∈ id :: path) :
    ∃ after, Replies (analyzer.direct (id :: path)) (analyzer.presumed after.memo) later
        before after ∧
      after.active = [] ∧ after.Remembers before ∧
      (∀ other ∈ id :: path, ¬ after.Completed other) ∧
      (∀ callee ∈ analyzer.unit.callees id, after.Completed callee ∨ callee ∈ id :: path) ∧
      analyzer.Leads before (id :: path) after (id :: path) := by
  induction later generalizing earlier before with
  | nil =>
      rw [List.append_nil] at split
      exact ⟨before, .nil before, idle, .refl before, fresh, split ▸ known, .refl before _⟩
  | cons callee rest ih =>
      have member : callee ∈ analyzer.unit.callees id := by simp [split]
      obtain ⟨middle, agrees⟩ := each callee member before idle fresh
      -- The walk starts over from the first callee and stops at this one, unless it is known.
      have through : analyzer.Leads before (id :: path) middle (id :: path) := by
        by_cases begun : before.Completed callee ∨ callee ∈ id :: path
        · rw [agrees.known begun]
          exact .refl before _
        · obtain ⟨open_, away⟩ := not_or.1 begun
          intro last
          obtain ⟨next, turns⟩ := agrees.turns open_ away last
          have passed : earlier.find? (along before (id :: path) last).engine.isUnknown = none :=
            List.find?_eq_none.2 fun other listed unknown =>
              not_or.2 (isUnknown_along_iff.1 unknown) (known other listed)
          have waiting : (analyzer.unit.callees id).find?
              (along before (id :: path) last).engine.isUnknown = some callee := by
            rw [split, List.find?_append, passed, Option.none_or,
              List.find?_cons_of_pos (isUnknown_along_iff.2 ⟨open_, away⟩)]
          exact ⟨next, .head ⟨List.cons_ne_nil id path, step_of_waiting path last waiting⟩ turns⟩
      have shifted : analyzer.unit.callees id = (earlier ++ [callee]) ++ rest := by simp [split]
      have stillKnown : ∀ other ∈ earlier ++ [callee],
          middle.Completed other ∨ other ∈ id :: path := by
        intro other listed
        rcases List.mem_append.1 listed with before | last
        · exact (known other before).imp_left agrees.remembers.completed
        · exact List.mem_singleton.1 last ▸ agrees.begun
      obtain ⟨after, replies, idle, remembers, fresh, begun, turns⟩ :=
        ih shifted agrees.idle agrees.fresh stillKnown
      refine ⟨after, .cons ?_ replies, idle, remembers.trans agrees.remembers, fresh, begun,
        through.trans turns⟩
      rw [agrees.reply, presumed_eq_of_remembers remembers fresh agrees.begun]

theorem complete_along {id : FunctionId} {path : List FunctionId} (away : id ∉ path)
    (engine : Engine) (walk : Walk) (last : Outcome) :
    (along engine (id :: path) last).engine.complete id walk =
      (along (engine.complete id walk) path walk.outcome).engine := by
  have active : (along engine (id :: path) last).engine.active = id :: path := rfl
  have popped := Engine.active_complete active away walk
  simp only [along, Engine.complete] at popped ⊢
  rw [popped]

section Agreement

variable {path : List FunctionId} {id : FunctionId} {before : Engine}

theorem agreement_of_completed (idle : before.active = [])
    (fresh : ∀ other ∈ path, ¬ before.Completed other) (completed : before.Completed id) :
    analyzer.Agreement path id before before := by
  obtain ⟨outcome, found⟩ := completed
  refine ⟨?_, idle, .refl before, fresh, .inl ⟨outcome, found⟩, fun _ => rfl,
    fun open_ => absurd ⟨outcome, found⟩ open_⟩
  rw [direct_of_completed found, presumed_of_found found]

theorem agreement_of_onPath (idle : before.active = [])
    (fresh : ∀ other ∈ path, ¬ before.Completed other) (onPath : id ∈ path) :
    analyzer.Agreement path id before before := by
  have open_ := fresh id onPath
  refine ⟨?_, idle, .refl before, fresh, .inr onPath, fun _ => rfl,
    fun _ away => absurd onPath away⟩
  rw [direct_of_onPath open_ onPath, presumed_of_missing (Engine.not_completed_iff.1 open_)]

/-- When the callees of a definition agree below it, the definition is completed on both sides. -/
theorem agreement_of_callees (idle : before.active = [])
    (fresh : ∀ other ∈ path, ¬ before.Completed other) (open_ : ¬ before.Completed id)
    (away : id ∉ path)
    (each : ∀ callee ∈ analyzer.unit.callees id, ∀ before : Engine, before.active = [] →
      (∀ other ∈ id :: path, ¬ before.Completed other) →
      ∃ after, analyzer.Agreement (id :: path) callee before after) :
    ∃ after, analyzer.Agreement path id before after := by
  have allFresh : ∀ other ∈ id :: path, ¬ before.Completed other :=
    List.forall_mem_cons.2 ⟨open_, fresh⟩
  obtain ⟨after, replies, afterIdle, remembers, afterFresh, begun, turns⟩ :=
    callees_agree each (List.nil_append _).symm idle allFresh (by simp)
  obtain ⟨unfinished, pathFresh⟩ := List.forall_mem_cons.1 afterFresh
  have ready : ∀ last, (analyzer.unit.callees id).find?
      (along after (id :: path) last).engine.isUnknown = none := fun last =>
    List.find?_eq_none.2 fun callee member unknown =>
      not_or.2 (isUnknown_along_iff.1 unknown) (begun callee member)
  refine ⟨after.complete id (analyzer.conclude after.memo id), ?_, ?_, ?_, ?_, ?_, ?_, ?_⟩
  · rw [direct_of_replies open_ away replies]
    simp [presumed, Engine.complete]
  · simp [Engine.complete, afterIdle]
  · exact (Engine.remembers_complete unfinished _).trans remembers
  · intro other member finished
    rcases Engine.completed_complete_iff.1 finished with rfl | finished
    · exact away member
    · exact pathFresh other member finished
  · exact .inl (Engine.completed_complete_iff.2 (.inl rfl))
  · rintro (completed | onPath)
    · exact absurd completed open_
    · exact absurd onPath away
  · intro _ _ last
    obtain ⟨next, walked⟩ := turns last
    have completed := step_of_ready path next (ready next)
    rw [complete_along away] at completed
    exact ⟨_, walked.tail ⟨List.cons_ne_nil id path, completed⟩⟩

end Agreement

/-- The recursion and the turns of the engine agree for every definition below every path. -/
theorem agreement (path : List FunctionId) (id : FunctionId) (before : Engine)
    (idle : before.active = []) (fresh : ∀ other ∈ path, ¬ before.Completed other) :
    ∃ after, analyzer.Agreement path id before after := by
  induction size : (analyzer.outside path).card using Nat.strongRecOn
    generalizing path id before with
  | ind _ ih =>
      by_cases completed : before.Completed id
      · exact ⟨before, agreement_of_completed idle fresh completed⟩
      by_cases onPath : id ∈ path
      · exact ⟨before, agreement_of_onPath idle fresh onPath⟩
      · refine agreement_of_callees idle fresh completed onPath ?_
        intro callee member before idle fresh
        obtain ⟨definition, site, found, -⟩ := SourceUnit.mem_callees_iff.1 member
        exact ih _ (size ▸ outside_cons_card_lt found onPath) (id :: path) callee before idle fresh
          rfl

/-- The engine, which gives walks up and starts them over, computes what plain recursion computes:
the same outcome, the same memo and the same log, after any earlier measurements. -/
theorem depth_eq_direct (analyzer : Analyzer) (ids : List FunctionId) (id : FunctionId) :
    analyzer.depth (analyzer.after ids) id =
      (analyzer.direct [] id).run (analyzer.after ids) := by
  have idle := (analyzer.after_settled ids).idle
  by_cases completed : (analyzer.after ids).Completed id
  · obtain ⟨outcome, found⟩ := completed
    rw [depth_of_completed found, direct_of_completed found]
  · obtain ⟨final, agrees⟩ := analyzer.agreement [] id (analyzer.after ids) idle (by simp)
    have started : launch (analyzer.after ids) id = along (analyzer.after ids) [id] .floor := by
      simp [launch, along, Engine.start, idle]
    obtain ⟨last, turns⟩ := agrees.turns completed List.not_mem_nil .floor
    rw [← started] at turns
    have reached := run_eq_of_turns turns rfl (analyzer.run_launch_stack (analyzer.after ids) id)
    have finished : analyzer.finish (analyzer.after ids) id = final := by
      rw [finish, reached, along, ← agrees.idle]
    obtain ⟨outcome, found⟩ := agrees.begun.resolve_right List.not_mem_nil
    rw [depth_of_open completed, agrees.reply, finished, presumed_of_found found, found]
    rfl

end Analyzer

end CallDepth
