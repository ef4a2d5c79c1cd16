/-
# What a walk computes

`Analyzer.measure` is the measure of a node when the outcome of every callee is given beforehand. It
is the walk itself, in the monad without effects, and has two equations: `measure_site` for a call
and `measure_of_plain` for any other node. It depends only on the outcomes of the functions that the
calls of the node lead to (`measure_congr`).

`walk_answer` says what a walk of the engine does. It stops at the first call, in evaluation order,
that leads to a definition of which the engine knows nothing; without such a call it is the measure
under the outcomes the engine presumes (`Analyzer.presumed`).

`Outcome.depth_deepest_le_iff` and `Outcome.deepest_mem` are what proofs use of the choice among
siblings: it is an upper bound and one of them. When traces are kept, the trace of a call is
`Analyzer.callLink` on top of the trace of its dominant part (`measureCall_outcome`).
-/
import CallDepth.Depth.Engine
import CallDepth.Proofs.Calls
import CallDepth.Proofs.Resolution

namespace CallDepth

namespace Outcome

theorem depth_foldl_deeper_le_iff (first : Outcome) (rest : List Outcome) (bound : Nat) :
    (rest.foldl deeper first).depth ≤ bound ↔
      first.depth ≤ bound ∧ ∀ outcome ∈ rest, outcome.depth ≤ bound := by
  induction rest generalizing first with
  | nil => simp
  | cons second rest ih =>
      simp only [List.foldl_cons, ih, List.mem_cons, forall_eq_or_imp, deeper]
      split <;> grind

/-- A bound on the deepest outcome is a bound on all. -/
theorem depth_deepest_le_iff (outcomes : List Outcome) (bound : Nat) :
    (deepest outcomes).depth ≤ bound ↔ ∀ outcome ∈ outcomes, outcome.depth ≤ bound := by
  cases outcomes with
  | nil => simp [deepest, floor]
  | cons first rest => simp [deepest, depth_foldl_deeper_le_iff]

/-- The deepest outcome is one of those compared. -/
theorem foldl_deeper_mem (first : Outcome) (rest : List Outcome) :
    rest.foldl deeper first ∈ first :: rest := by
  induction rest generalizing first with
  | nil => simp
  | cons second rest ih =>
      have chosen := ih (first.deeper second)
      simp only [List.foldl_cons, List.mem_cons] at chosen ⊢
      rcases chosen with same | later
      · rw [same, deeper]
        split <;> simp
      · exact .inr (.inr later)

/-- The deepest outcome is one of them, with its trace, or there is none. -/
theorem deepest_mem (outcomes : List Outcome) :
    deepest outcomes = floor ∧ outcomes = [] ∨ deepest outcomes ∈ outcomes := by
  cases outcomes with
  | nil => exact .inl ⟨rfl, rfl⟩
  | cons first rest => exact .inr (foldl_deeper_mem first rest)

/-- What holds of an outcome without calls and of each of some outcomes holds of their deepest. -/
theorem deepest_holds {motive : Outcome → Prop} (least : motive floor) {outcomes : List Outcome}
    (each : ∀ outcome ∈ outcomes, motive outcome) : motive (deepest outcomes) := by
  rcases deepest_mem outcomes with ⟨none, -⟩ | member
  · exact none ▸ least
  · exact each _ member

end Outcome

namespace Analyzer

section Equations

variable {m : Type → Type} [Monad m] [LawfulMonad m]
variable (analyzer : Analyzer) (caller : Definition) (ask : FunctionId → m Outcome)

theorem walkAll_append (first second : List Node) :
    analyzer.walkAll caller ask (first ++ second) = (do
      let measured ← analyzer.walkAll caller ask first
      let others ← analyzer.walkAll caller ask second
      pure (measured ++ others)) := by
  induction first with
  | nil => simp [walkAll]
  | cons node rest ih => simp [walkAll, ih]

theorem walkOption_eq_walkAll (node? : Option Node) :
    analyzer.walkOption caller ask node? = analyzer.walkAll caller ask node?.toList := by
  cases node? <;> simp [walkOption, walkAll]

/-- A walk measures the operands of a call, then its callee expression, then asks for its callee. -/
theorem walk_site (site : CallSite) :
    analyzer.walk caller ask site.node = (do
      let args ← analyzer.walkAll caller ask site.operands
      let expr ← analyzer.walkAll caller ask site.callee.toList
      let reached ← analyzer.askCallee caller ask site
      pure (analyzer.measureCall caller site (.deepest args) (.deepest expr) reached)) := by
  rw [CallSite.node, walk, walkOption_eq_walkAll]

theorem walk_of_plain {node : Node} (plain : node.callSite? = none) :
    analyzer.walk caller ask node = (do
      let walks ← analyzer.walkAll caller ask node.children
      pure (.deepest walks)) := by
  cases node with
  | call => simp [Node.callSite?] at plain
  | function name arity visibility mutability body parts =>
      simp [walk, Node.children, walkOption_eq_walkAll, walkAll_append]
  | _ => simp [walk, Node.children, walkOption_eq_walkAll, walkAll]

/-- There is one callee at most, so its outcome is that of the loop. -/
theorem askCallee_eq (site : CallSite) :
    analyzer.askCallee caller ask site =
      match analyzer.unit.resolve? site caller.owner with
      | none => pure none
      | some id => some <$> ask id := by
  rw [askCallee, SourceUnit.resolve_eq]
  cases analyzer.unit.resolve? site caller.owner with
  | none => rfl
  | some id => simp [askAll]

end Equations

/-- The measure of a node, given the outcomes of all functions. -/
def measure (analyzer : Analyzer) (caller : Definition) (outcomes : FunctionId → Outcome)
    (node : Node) : Walk :=
  Id.run (analyzer.walk caller (fun id => pure (outcomes id)) node)

def measureBody (analyzer : Analyzer) (definition : Definition) (outcomes : FunctionId → Outcome) :
    Walk :=
  Id.run (analyzer.walkBody definition (fun id => pure (outcomes id)))

section Measure

variable (analyzer : Analyzer) (caller : Definition) (outcomes : FunctionId → Outcome)

theorem walkAll_pure (nodes : List Node) :
    Id.run (analyzer.walkAll caller (fun id => pure (outcomes id)) nodes) =
      nodes.map (analyzer.measure caller outcomes) := by
  induction nodes with
  | nil => rfl
  | cons node rest ih =>
      rw [List.map_cons, ← ih]
      rfl

/-- The measure of a call comes from those of its parts. -/
theorem measure_site (site : CallSite) :
    analyzer.measure caller outcomes site.node =
      analyzer.measureCall caller site
        (.deepest (site.operands.map (analyzer.measure caller outcomes)))
        (.deepest (site.callee.toList.map (analyzer.measure caller outcomes)))
        ((analyzer.unit.resolve? site caller.owner).map outcomes) := by
  rw [← walkAll_pure, ← walkAll_pure, measure, walk_site]
  cases resolved : analyzer.unit.resolve? site caller.owner <;>
    simp [askCallee_eq, resolved]

theorem measure_of_plain {node : Node} (plain : node.callSite? = none) :
    analyzer.measure caller outcomes node =
      .deepest (node.children.map (analyzer.measure caller outcomes)) := by
  rw [← walkAll_pure, measure, walk_of_plain _ _ _ plain]
  rfl

variable {analyzer caller outcomes}

theorem deepest_measure_holds {motive : Outcome → Prop} (least : motive .floor) {nodes : List Node}
    (each : ∀ node ∈ nodes, motive (analyzer.measure caller outcomes node).outcome) :
    motive (Walk.deepest (nodes.map (analyzer.measure caller outcomes))).outcome := by
  refine Outcome.deepest_holds least fun outcome member => ?_
  simp only [List.map_map, List.mem_map] at member
  obtain ⟨node, inside, rfl⟩ := member
  exact each node inside

end Measure

end Analyzer

/-! ## The link of a call -/

def Branch.select {α : Type} (args expr callee : α) : Branch → α
  | .args => args
  | .expr => expr
  | .callee => callee

namespace Analyzer

/-- The link of a call, from the outcomes of its parts. -/
def callLink (analyzer : Analyzer) (site : CallSite) (args expr : Outcome)
    (callee : Option Outcome) : Link :=
  let parts : Parts := ⟨args.depth, expr.depth, (callee.getD .floor).depth⟩
  { label := site.label, weight := analyzer.unit.weight site callee.isSome, parts,
    via := parts.dominant, callee := callee.map fun _ => userDefined }

/-- The outcome below the link of a call: that of the dominant part. -/
def callRest (analyzer : Analyzer) (site : CallSite) (args expr : Outcome)
    (callee : Option Outcome) : Outcome :=
  (analyzer.callLink site args expr callee).via.select args expr (callee.getD .floor)

variable {analyzer : Analyzer} (site : CallSite) (args expr : Outcome) (callee : Option Outcome)

theorem callRest_depth :
    (analyzer.callRest site args expr callee).depth =
      (analyzer.callLink site args expr callee).parts.get
        (analyzer.callLink site args expr callee).via := by
  unfold callRest
  cases (analyzer.callLink site args expr callee).via <;> rfl

/-- With traces on, a call adds its link to the trace of its dominant part. -/
theorem measureCall_outcome (traced : analyzer.options.trace = true) (caller : Definition)
    (args expr : Walk) :
    (analyzer.measureCall caller site args expr callee).outcome =
      ⟨(analyzer.callLink site args.outcome expr.outcome callee).weight +
          (analyzer.callLink site args.outcome expr.outcome callee).parts.max,
        .call (analyzer.callLink site args.outcome expr.outcome callee)
          (analyzer.callRest site args.outcome expr.outcome callee).trace⟩ := by
  unfold measureCall callRest callLink
  simp only [traced, if_true]
  generalize Parts.dominant _ = via
  cases via <;> rfl

end Analyzer

namespace SourceUnit

/-- The functions that calls from an owner lead to, in the order of the calls. -/
def targets (unit : SourceUnit) (owner : String) (sites : List CallSite) : List FunctionId :=
  sites.filterMap (unit.resolve? · owner)

variable {unit : SourceUnit} {owner : String} {id : FunctionId}

theorem targets_append (first second : List CallSite) :
    unit.targets owner (first ++ second) = unit.targets owner first ++ unit.targets owner second :=
  List.filterMap_append

theorem mem_targets_iff {sites : List CallSite} :
    id ∈ unit.targets owner sites ↔ ∃ site ∈ sites, unit.resolve? site owner = some id := by
  simp [targets]

theorem mem_targets_flatMap_iff {nodes : List Node} :
    id ∈ unit.targets owner (nodes.flatMap Node.calls) ↔
      ∃ node ∈ nodes, id ∈ unit.targets owner node.calls := by
  simp only [mem_targets_iff, List.mem_flatMap]
  constructor
  · rintro ⟨site, ⟨node, member, inside⟩, resolved⟩
    exact ⟨node, member, site, inside, resolved⟩
  · rintro ⟨node, member, site, inside, resolved⟩
    exact ⟨site, ⟨node, member, inside⟩, resolved⟩

theorem mem_targets_site_iff {site : CallSite} :
    id ∈ unit.targets owner site.node.calls ↔
      (∃ node ∈ site.operands, id ∈ unit.targets owner node.calls) ∨
      (∃ node ∈ site.callee.toList, id ∈ unit.targets owner node.calls) ∨
      unit.resolve? site owner = some id := by
  rw [Node.calls_site, targets_append, targets_append, List.mem_append, List.mem_append,
    mem_targets_flatMap_iff, mem_targets_flatMap_iff, or_assoc]
  simp [mem_targets_iff]

end SourceUnit

section Congruence

variable {analyzer : Analyzer} {caller : Definition} {outcomes others : FunctionId → Outcome}

/-- The measure of a node depends on the outcomes of the functions that its calls lead to. -/
theorem Analyzer.measure_congr (node : Node)
    (same : ∀ id ∈ analyzer.unit.targets caller.owner node.calls, outcomes id = others id) :
    analyzer.measure caller outcomes node = analyzer.measure caller others node := by
  induction node using Node.children_induction with
  | site site operands callee =>
      have args := List.map_congr_left fun child member => operands child member fun id inside =>
        same id (SourceUnit.mem_targets_site_iff.2 (.inl ⟨child, member, inside⟩))
      have expr := List.map_congr_left fun child member => callee child member fun id inside =>
        same id (SourceUnit.mem_targets_site_iff.2 (.inr (.inl ⟨child, member, inside⟩)))
      have reached : (analyzer.unit.resolve? site caller.owner).map outcomes =
          (analyzer.unit.resolve? site caller.owner).map others := by
        cases resolved : analyzer.unit.resolve? site caller.owner with
        | none => rfl
        | some id =>
            exact congrArg some (same id (SourceUnit.mem_targets_site_iff.2 (.inr (.inr resolved))))
      rw [measure_site, measure_site, args, expr, reached]
  | plain node plain children =>
      rw [Node.calls_of_plain plain] at same
      rw [measure_of_plain _ _ _ plain, measure_of_plain _ _ _ plain]
      refine congrArg Walk.deepest (List.map_congr_left fun child member => ?_)
      exact children child member fun id inside =>
        same id (SourceUnit.mem_targets_flatMap_iff.2 ⟨child, member, inside⟩)

theorem Analyzer.measureBody_congr
    (same : ∀ id ∈ analyzer.unit.targets caller.owner caller.calls, outcomes id = others id) :
    analyzer.measureBody caller outcomes = analyzer.measureBody caller others := by
  unfold Definition.calls at same
  unfold measureBody walkBody
  cases body : caller.body with
  | none => rfl
  | some node =>
      rw [body] at same
      exact measure_congr node same

end Congruence

/-- Nothing is known of a definition: it was not begun. -/
def Engine.isUnknown (engine : Engine) (id : FunctionId) : Bool :=
  (engine.outcome? id).isNone && !decide (id ∈ engine.active)

namespace Analyzer

/-- The outcome a walk is told of a definition that was begun: the remembered one, or that of a
recursive call. -/
def presumed (analyzer : Analyzer) (memo : List (FunctionId × Outcome)) (id : FunctionId) :
    Outcome :=
  (memo.lookup id).getD (analyzer.recursive id)

theorem presumed_of_found {analyzer : Analyzer} {memo : List (FunctionId × Outcome)}
    {id : FunctionId} {outcome : Outcome} (found : memo.lookup id = some outcome) :
    analyzer.presumed memo id = outcome := by
  rw [presumed, found, Option.getD_some]

theorem presumed_of_missing {analyzer : Analyzer} {memo : List (FunctionId × Outcome)}
    {id : FunctionId} (missing : memo.lookup id = none) :
    analyzer.presumed memo id = analyzer.recursive id := by
  rw [presumed, missing, Option.getD_none]

/-- The first definition that calls of a function lead to and that was not begun. -/
def pending? (analyzer : Analyzer) (caller : Definition) (engine : Engine)
    (sites : List CallSite) : Option FunctionId :=
  (analyzer.unit.targets caller.owner sites).find? engine.isUnknown

/-- A value, unless a definition has to be measured first. -/
def valueUnless {α : Type} (pending : Option FunctionId) (value : α) : Except FunctionId α :=
  match pending with
  | some id => .error id
  | none => .ok value

/-- A walk is stopped at a definition that was not begun. -/
theorem answer_eq (analyzer : Analyzer) (engine : Engine) (id : FunctionId) :
    analyzer.answer engine id =
      if engine.isUnknown id then .error id else .ok (analyzer.presumed engine.memo id) := by
  unfold answer Engine.isUnknown presumed Engine.outcome?
  cases engine.memo.lookup id with
  | some outcome => simp
  | none => by_cases begun : id ∈ engine.active <;> simp [begun]

section Answers

variable (analyzer : Analyzer) (caller : Definition) (engine : Engine)

theorem pending?_append (first second : List CallSite) :
    analyzer.pending? caller engine (first ++ second) =
      (analyzer.pending? caller engine first).or (analyzer.pending? caller engine second) := by
  simp [pending?, SourceUnit.targets_append]

/-- A call stops a walk if its callee was not begun. -/
theorem askCallee_answer (site : CallSite) :
    analyzer.askCallee caller (analyzer.answer engine) site =
      valueUnless (analyzer.pending? caller engine [site])
        ((analyzer.unit.resolve? site caller.owner).map (analyzer.presumed engine.memo)) := by
  rw [askCallee_eq, pending?, SourceUnit.targets]
  cases resolved : analyzer.unit.resolve? site caller.owner with
  | none => simp [resolved, valueUnless, pure, Except.pure]
  | some id =>
      simp only [answer_eq]
      by_cases unknown : engine.isUnknown id <;>
        simp [resolved, valueUnless, unknown, Functor.map, Except.map]

theorem walkAll_answer {nodes : List Node}
    (each : ∀ node ∈ nodes, analyzer.walk caller (analyzer.answer engine) node =
      valueUnless (analyzer.pending? caller engine node.calls)
        (analyzer.measure caller (analyzer.presumed engine.memo) node)) :
    analyzer.walkAll caller (analyzer.answer engine) nodes =
      valueUnless (analyzer.pending? caller engine (nodes.flatMap Node.calls))
        (nodes.map (analyzer.measure caller (analyzer.presumed engine.memo))) := by
  induction nodes with
  | nil => rfl
  | cons node rest ih =>
      have tail := ih fun other member => each other (List.mem_cons_of_mem _ member)
      rw [walkAll, each node List.mem_cons_self, tail, List.flatMap_cons, pending?_append]
      cases analyzer.pending? caller engine node.calls <;>
        cases analyzer.pending? caller engine (rest.flatMap Node.calls) <;> rfl

/-- What a walk of the engine does: it stops at the first call into a definition that was not
begun, or gives the measure under the presumed outcomes. -/
theorem walk_answer (node : Node) :
    analyzer.walk caller (analyzer.answer engine) node =
      valueUnless (analyzer.pending? caller engine node.calls)
        (analyzer.measure caller (analyzer.presumed engine.memo) node) := by
  induction node using Node.children_induction with
  | site site operands callee =>
      rw [walk_site, walkAll_answer _ _ _ operands, walkAll_answer _ _ _ callee, askCallee_answer,
        measure_site, Node.calls_site, pending?_append, pending?_append]
      cases analyzer.pending? caller engine (site.operands.flatMap Node.calls) <;>
        cases analyzer.pending? caller engine (site.callee.toList.flatMap Node.calls) <;>
          cases analyzer.pending? caller engine [site] <;> rfl
  | plain node plain children =>
      rw [walk_of_plain _ _ _ plain, walkAll_answer _ _ _ children, measure_of_plain _ _ _ plain,
        Node.calls_of_plain plain]
      cases analyzer.pending? caller engine (node.children.flatMap Node.calls) <;> rfl

/-- The walk of a body stops at the first callee that was not begun, and measures it otherwise. -/
theorem walkBody_answer :
    analyzer.walkBody caller (analyzer.answer engine) =
      valueUnless (analyzer.pending? caller engine caller.calls)
        (analyzer.measureBody caller (analyzer.presumed engine.memo)) := by
  unfold measureBody walkBody Definition.calls
  cases caller.body with
  | none => rfl
  | some body => exact analyzer.walk_answer caller engine body

end Answers

end Analyzer

end CallDepth
