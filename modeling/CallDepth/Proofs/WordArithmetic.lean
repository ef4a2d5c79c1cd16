/-
# Depths fit a machine word

The engine adds weights to depths without bound. A machine adds words of 64 bits, where sums wrap
around. For no unit that could be written down is there a difference.

* A depth is at most one more than twice the number of calls in the bodies of the definitions that
  are completed (`History.depth_le`). A call weighs at most 2, and a body counts what it calls with
  depths from before its own completion, so the calls of each body count once, even around a cycle.
* `depthWith` is the engine over an arbitrary addition. Only totals of calls are added up, so it
  computes the same as long as the addition is exact at every total (`runWith_eq`).
-/
import CallDepth.Proofs.HeaviestPath
import Mathlib.Algebra.BigOperators.Group.Finset.Basic
import Mathlib.Algebra.Order.BigOperators.Group.Finset

namespace CallDepth

/-! ## Weights and bodies -/

namespace Node

theorem memberWeight?_le {base : Option Node} {name : String} {weight : Nat}
    (found : memberWeight? base name = some weight) : weight ≤ 2 := by
  unfold memberWeight? at found
  grind

theorem builtinWeight?_le {node : Node} {weight : Nat}
    (found : node.builtinWeight? = some weight) : weight ≤ 2 := by
  cases node with
  | identifier name =>
      simp only [builtinWeight?] at found
      grind
  | member base name => exact memberWeight?_le found
  | _ => cases found

end Node

theorem length_le_flatMap {α β : Type} {items : List α} {item : α} (f : α → List β)
    (member : item ∈ items) : (f item).length ≤ (items.flatMap f).length := by
  obtain ⟨before, after, rfl⟩ := List.append_of_mem member
  simp only [List.flatMap_append, List.flatMap_cons, List.length_append]
  omega

namespace SourceUnit

variable {unit : SourceUnit}

/-- No call weighs more than 2. -/
theorem weight_le (site : CallSite) (resolved : Bool) : unit.weight site resolved ≤ 2 := by
  unfold weight
  split
  · omega
  split
  · omega
  split
  · exact Nat.le_succ 1
  · cases found : site.callee.bind Node.builtinWeight? with
    | none => exact Nat.le_succ 1
    | some weight =>
        obtain ⟨callee, -, listed⟩ := Option.bind_eq_some_iff.1 found
        exact Node.builtinWeight?_le listed

section Calls

variable {owner : String} {depths : FunctionId → Nat} {bound : Nat}

theorem largest_nodeDepth_le {nodes : List Node}
    (each : ∀ node ∈ nodes, unit.nodeDepth owner depths node ≤ bound + 2 * node.calls.length) :
    largest (nodes.map (unit.nodeDepth owner depths)) ≤
      bound + 2 * (nodes.flatMap Node.calls).length := by
  refine largest_le_iff.2 fun depth member => ?_
  obtain ⟨node, inside, rfl⟩ := List.mem_map.1 member
  have deep := each node inside
  have fewer := length_le_flatMap Node.calls inside
  omega

/-- A node is at most twice as deep as it has calls, on top of a bound for what they lead to. -/
theorem nodeDepth_le_calls (node : Node)
    (bounded : ∀ id ∈ unit.targets owner node.calls, depths id ≤ bound) :
    unit.nodeDepth owner depths node ≤ bound + 2 * node.calls.length := by
  induction node using Node.children_induction with
  | site site operands callee =>
      have args := largest_nodeDepth_le fun child member => operands child member fun id inside =>
        bounded id (mem_targets_site_iff.2 (.inl ⟨child, member, inside⟩))
      have expr := largest_nodeDepth_le fun child member => callee child member fun id inside =>
        bounded id (mem_targets_site_iff.2 (.inr (.inl ⟨child, member, inside⟩)))
      have reached : (unit.resolve? site owner).elim 0 depths ≤ bound := by
        cases resolved : unit.resolve? site owner with
        | none => exact Nat.zero_le bound
        | some id => exact bounded id (mem_targets_site_iff.2 (.inr (.inr resolved)))
      have light := unit.weight_le site (unit.resolve? site owner).isSome
      rw [nodeDepth_site, Node.calls_site, List.length_append, List.length_append,
        List.length_singleton]
      omega
  | plain node plain children =>
      rw [Node.calls_of_plain plain] at bounded ⊢
      rw [nodeDepth_of_plain plain]
      exact largest_nodeDepth_le fun child member => children child member fun id inside =>
        bounded id (mem_targets_flatMap_iff.2 ⟨child, member, inside⟩)

/-- Each call of a body adds at most 2 to the depth of its callees. -/
theorem bodyDepth_le_calls {definition : Definition}
    (bounded : ∀ id ∈ unit.targets definition.owner definition.calls, depths id ≤ bound) :
    unit.bodyDepth definition depths ≤ bound + 2 * definition.calls.length := by
  unfold Definition.calls at bounded ⊢
  unfold bodyDepth
  cases body : definition.body with
  | none => exact Nat.zero_le _
  | some node =>
      rw [body] at bounded
      exact nodeDepth_le_calls node bounded

end Calls

def callCount (unit : SourceUnit) (ids : Finset FunctionId) : Nat :=
  ∑ id ∈ ids, (unit.callsOf id).length

theorem callCount_mono {ids more : Finset FunctionId} (subset : ids ⊆ more) :
    unit.callCount ids ≤ unit.callCount more :=
  Finset.sum_le_sum_of_subset subset

theorem callCount_insert {ids : Finset FunctionId} {id : FunctionId} (away : id ∉ ids) :
    unit.callCount (insert id ids) = (unit.callsOf id).length + unit.callCount ids :=
  Finset.sum_insert away

/-- Only functions of the unit have calls. -/
theorem callCount_le (ids : Finset FunctionId) :
    unit.callCount ids ≤ unit.callCount (Finset.range unit.symbols.functions.length) := by
  refine Finset.sum_le_sum_of_ne_zero fun id _ called => Finset.mem_range.2 ?_
  by_contra outside
  have missing : unit.symbols.function? id = none := List.getElem?_eq_none (not_lt.1 outside)
  exact called (by rw [callsOf, missing, List.length_nil])

end SourceUnit

def completedIds (memo : List (FunctionId × Outcome)) : Finset FunctionId :=
  (Assoc.keys memo).toFinset

theorem completedIds_cons (id : FunctionId) (outcome : Outcome)
    (memo : List (FunctionId × Outcome)) :
    completedIds ((id, outcome) :: memo) = insert id (completedIds memo) := by
  simp [completedIds, Assoc.keys]

theorem not_mem_completedIds {memo : List (FunctionId × Outcome)} {id : FunctionId}
    (fresh : memo.lookup id = none) : id ∉ completedIds memo := by
  rw [completedIds, List.mem_toFinset]
  exact Assoc.not_mem_keys_of_lookup fresh

/-- The completed definitions and the one that is being measured. -/
def Machine.inPlay (machine : Machine) : Finset FunctionId :=
  match machine.stack with
  | [] => completedIds machine.engine.memo
  | top :: _ => insert top (completedIds machine.engine.memo)

theorem Machine.completedIds_subset (machine : Machine) :
    completedIds machine.engine.memo ⊆ machine.inPlay := by
  unfold inPlay
  split
  · exact Finset.Subset.refl _
  · exact Finset.subset_insert _ _

namespace Analyzer

variable {analyzer : Analyzer}

/-! ## A bound on depths -/

theorem bodyDepth_presumed_le {memo : List (FunctionId × Outcome)} {bound : Nat}
    (positive : 1 ≤ bound)
    (earlier : ∀ id outcome, memo.lookup id = some outcome → outcome.depth ≤ bound)
    (definition : Definition) :
    analyzer.unit.bodyDepth definition (fun callee => (analyzer.presumed memo callee).depth) ≤
      bound + 2 * definition.calls.length := by
  refine SourceUnit.bodyDepth_le_calls fun callee _ => ?_
  cases known : memo.lookup callee with
  | some outcome => exact presumed_of_found known ▸ earlier callee outcome known
  | none => exact presumed_of_missing known ▸ positive

/-- A depth is at most one more than twice the number of calls of the completed definitions. -/
theorem History.depth_le {memo : List (FunctionId × Outcome)} {log : List CallEvent}
    (history : analyzer.History memo log) {id : FunctionId} {outcome : Outcome}
    (found : memo.lookup id = some outcome) :
    outcome.depth ≤ 1 + 2 * analyzer.unit.callCount (completedIds memo) := by
  induction history generalizing id outcome with
  | start => cases found
  | @complete older log last earlier fresh back ih =>
      rw [completedIds_cons, SourceUnit.callCount_insert (not_mem_completedIds fresh)]
      rw [Assoc.lookup_cons] at found
      split at found
      · cases found
        cases defined : analyzer.unit.symbols.function? last with
        | none => simp [conclude, defined, Walk.deepest, Outcome.deepest, Outcome.floor]
        | some definition =>
            have body := analyzer.bodyDepth_presumed_le (Nat.le_add_right 1 _)
              (fun id outcome known => ih known) definition
            rw [conclude_depth defined, SourceUnit.callsOf_of_found defined]
            omega
      · have before := ih found
        omega

/-- Something holds of the total of every call that a walk of the definition on top gets to. -/
def EveryTotal (analyzer : Analyzer) (machine : Machine) (holds : Nat → Prop) : Prop :=
  ∀ top rest definition site walk, machine.stack = top :: rest →
    analyzer.unit.symbols.function? top = some definition → site ∈ definition.calls →
    analyzer.walk definition (analyzer.answer machine.engine) site.node = .ok walk →
    holds walk.outcome.depth

theorem everyTotal_of_forall (machine : Machine) {holds : Nat → Prop}
    (all : ∀ total, holds total) : analyzer.EveryTotal machine holds :=
  fun _ _ _ _ _ _ _ _ _ => all _

theorem EveryTotal.imp {machine : Machine} {holds weaker : Nat → Prop}
    (every : analyzer.EveryTotal machine holds) (step : ∀ total, holds total → weaker total) :
    analyzer.EveryTotal machine weaker :=
  fun top rest definition site walk stack defined inside walked =>
    step _ (every top rest definition site walk stack defined inside walked)

theorem eq_measure_of_walk {caller : Definition} {engine : Engine} {node : Node} {walk : Walk}
    (walked : analyzer.walk caller (analyzer.answer engine) node = .ok walk) :
    walk = analyzer.measure caller (analyzer.presumed engine.memo) node := by
  rw [walk_answer] at walked
  cases pending : analyzer.pending? caller engine node.calls with
  | none =>
      rw [pending] at walked
      exact (Except.ok.inj walked).symm
  | some next =>
      rw [pending] at walked
      cases walked

/-- Every total that is computed is bounded by the number of calls in play. -/
theorem Sound.everyTotal_le {machine : Machine} (sound : analyzer.Sound machine) :
    analyzer.EveryTotal machine (· ≤ 1 + 2 * analyzer.unit.callCount machine.inPlay) := by
  intro top rest definition site walk stack defined inside walked
  have open_ := sound.fresh top (stack ▸ List.mem_cons_self)
  have away := not_mem_completedIds (Engine.not_completed_iff.1 open_)
  have body := analyzer.bodyDepth_presumed_le (Nat.le_add_right 1 _)
    (fun id outcome => sound.history.depth_le) definition
  rw [eq_measure_of_walk walked, measure_depth]
  refine (SourceUnit.site_le_bodyDepth inside).trans ?_
  simp only [Machine.inPlay, stack, SourceUnit.callCount_insert away,
    SourceUnit.callsOf_of_found defined]
  omega

theorem Sound.remembered_le {machine : Machine} (sound : analyzer.Sound machine) {id : FunctionId}
    {outcome : Outcome} (found : machine.engine.outcome? id = some outcome) :
    outcome.depth ≤ 1 + 2 * analyzer.unit.callCount machine.inPlay := by
  have depth := sound.history.depth_le found
  have fewer := analyzer.unit.callCount_mono machine.completedIds_subset
  omega

/-! ## The engine over an arbitrary addition -/

/-- An addition is exact where it gives a total. -/
def ExactAt (add : Nat → Nat → Nat) (total : Nat) : Prop :=
  ∀ weight depth, weight + depth = total → add weight depth = total

section Addition

variable (analyzer : Analyzer) (add : Nat → Nat → Nat)

/-- The measure of a call, with its total given by an addition. -/
def callWith (caller : Definition) (site : CallSite) (args expr : Walk) (callee : Option Outcome) :
    Walk :=
  let link := analyzer.callLink site args.outcome expr.outcome callee
  let below := analyzer.callRest site args.outcome expr.outcome callee
  let total := add link.weight link.parts.max
  let event : CallEvent :=
    { function := caller.name, label := link.label, weight := link.weight, parts := link.parts,
      total, via := link.via }
  { outcome := ⟨total, if analyzer.options.trace then .call link below.trace else .empty⟩
    events := args.events ++ expr.events ++
      if analyzer.options.narrates caller.name then [event] else [] }

/-- Measure a node, with the totals of calls given by an addition. -/
def walkWith (caller : Definition) (ask : FunctionId → Except FunctionId Outcome) :
    Node → Except FunctionId Walk :=
  Node.fold
    (fun site operands callee => do
      let args ← operands.mapM id
      let expr ← callee.mapM id
      let reached ← analyzer.askCallee caller ask site
      pure (analyzer.callWith add caller site (.deepest args) (.deepest expr) reached))
    (fun children => do
      let walks ← children.mapM id
      pure (.deepest walks))

def evaluateWith (engine : Engine) (id : FunctionId) : Except FunctionId Walk :=
  match analyzer.unit.symbols.function? id with
  | none => .ok (.deepest [])
  | some definition =>
      match definition.body with
      | none => .ok (.deepest [])
      | some body => analyzer.walkWith add definition (analyzer.answer engine) body

def stepWith (machine : Machine) : Machine :=
  match machine.stack with
  | [] => machine
  | id :: rest =>
      match analyzer.evaluateWith add machine.engine id with
      | .ok walk => ⟨machine.engine.complete id walk, rest, walk.outcome⟩
      | .error next => ⟨machine.engine.start next, next :: id :: rest, machine.last⟩

def runWith : Nat → Machine → Machine
  | 0, machine => machine
  | turns + 1, machine =>
      if machine.stack.isEmpty then machine else runWith turns (analyzer.stepWith add machine)

/-- Measure a definition, with the totals of calls given by an addition. -/
def depthWith (engine : Engine) (id : FunctionId) : Outcome × Engine :=
  match engine.outcome? id with
  | some outcome => (outcome, engine)
  | none =>
      let final := analyzer.runWith add analyzer.turnBound ⟨engine.start id, [id], .floor⟩
      (final.last, final.engine)

def afterWith (ids : List FunctionId) : Engine :=
  ids.foldl (fun engine id => (analyzer.depthWith add engine id).2) {}

end Addition

section Exact

variable {add : Nat → Nat → Nat}

theorem callWith_eq {caller : Definition} {site : CallSite} {args expr : Walk}
    {callee : Option Outcome}
    (precise : ExactAt add (analyzer.measureCall caller site args expr callee).outcome.depth) :
    analyzer.callWith add caller site args expr callee =
      analyzer.measureCall caller site args expr callee := by
  have total := precise _ _ rfl
  simp only [measureCall] at total
  simp only [callWith, callLink, callRest, total, measureCall]
  generalize Parts.dominant _ = via
  cases via <;> rfl

theorem walkAll_eq_mapM (caller : Definition) (ask : FunctionId → Except FunctionId Outcome)
    (nodes : List Node) :
    analyzer.walkAll caller ask nodes = nodes.mapM (analyzer.walk caller ask) := by
  induction nodes with
  | nil => rfl
  | cons node rest ih => rw [walkAll, List.mapM_cons, ih]

theorem mapM_walkWith_eq {caller : Definition} {ask : FunctionId → Except FunctionId Outcome}
    {nodes : List Node}
    (each : ∀ node ∈ nodes, analyzer.walkWith add caller ask node = analyzer.walk caller ask node) :
    (nodes.map (analyzer.walkWith add caller ask)).mapM id = analyzer.walkAll caller ask nodes := by
  rw [walkAll_eq_mapM, List.map_congr_left each]
  simp

theorem walkWith_site (caller : Definition) (ask : FunctionId → Except FunctionId Outcome)
    (site : CallSite) :
    analyzer.walkWith add caller ask site.node = (do
      let args ← (site.operands.map (analyzer.walkWith add caller ask)).mapM id
      let expr ← (site.callee.toList.map (analyzer.walkWith add caller ask)).mapM id
      let reached ← analyzer.askCallee caller ask site
      pure (analyzer.callWith add caller site (.deepest args) (.deepest expr) reached)) :=
  Node.fold_site _ _ site

theorem walkWith_of_plain (caller : Definition) (ask : FunctionId → Except FunctionId Outcome)
    {node : Node} (plain : node.callSite? = none) :
    analyzer.walkWith add caller ask node = (do
      let walks ← (node.children.map (analyzer.walkWith add caller ask)).mapM id
      pure (.deepest walks)) :=
  Node.fold_of_plain _ _ plain

/-- The walk is the same when the addition is exact at the total of every call it gets to. -/
theorem walkWith_eq {caller : Definition} {ask : FunctionId → Except FunctionId Outcome}
    (node : Node)
    (precise : ∀ site ∈ node.calls, ∀ walk, analyzer.walk caller ask site.node = .ok walk →
      ExactAt add walk.outcome.depth) :
    analyzer.walkWith add caller ask node = analyzer.walk caller ask node := by
  induction node using Node.children_induction with
  | site site operands callee =>
      simp only [Node.calls_site, List.mem_append, List.mem_singleton] at precise
      have args := mapM_walkWith_eq fun child member => operands child member fun other inside =>
        precise other (.inl (.inl (List.mem_flatMap.2 ⟨child, member, inside⟩)))
      have expr := mapM_walkWith_eq fun child member => callee child member fun other inside =>
        precise other (.inl (.inr (List.mem_flatMap.2 ⟨child, member, inside⟩)))
      have self := precise site (.inr rfl)
      rw [walkWith_site, args, expr]
      rw [walk_site] at self ⊢
      -- Only a walk that gets through all three parts forms a total.
      generalize analyzer.walkAll caller ask site.operands = first at self ⊢
      generalize analyzer.walkAll caller ask site.callee.toList = second at self ⊢
      generalize analyzer.askCallee caller ask site = third at self ⊢
      cases first with
      | error next => rfl
      | ok args =>
          cases second with
          | error next => rfl
          | ok expr =>
              cases third with
              | error next => rfl
              | ok reached => exact congrArg Except.ok (callWith_eq (self _ rfl))
  | plain node plain children =>
      rw [Node.calls_of_plain plain] at precise
      have same := mapM_walkWith_eq fun child member => children child member fun site inside =>
        precise site (List.mem_flatMap.2 ⟨child, member, inside⟩)
      rw [walk_of_plain _ _ _ plain, walkWith_of_plain _ _ plain, same]

theorem evaluateWith_eq {engine : Engine} {id : FunctionId}
    (precise : ∀ definition, analyzer.unit.symbols.function? id = some definition →
      ∀ site ∈ definition.calls, ∀ walk,
        analyzer.walk definition (analyzer.answer engine) site.node = .ok walk →
        ExactAt add walk.outcome.depth) :
    analyzer.evaluateWith add engine id = analyzer.evaluate engine id := by
  unfold evaluateWith evaluate
  cases found : analyzer.unit.symbols.function? id with
  | none => rfl
  | some definition =>
      have calls := precise definition found
      simp only [Definition.calls, walkBody] at calls ⊢
      cases body : definition.body with
      | none => rfl
      | some node =>
          rw [body] at calls
          exact walkWith_eq node calls

/-- A turn is the same where the addition is exact for its totals. -/
theorem stepWith_eq {machine : Machine} (precise : analyzer.EveryTotal machine (ExactAt add)) :
    analyzer.stepWith add machine = analyzer.step machine := by
  obtain ⟨engine, stack, last⟩ := machine
  cases stack with
  | nil => rfl
  | cons id rest =>
      have same : analyzer.evaluateWith add engine id = analyzer.evaluate engine id :=
        evaluateWith_eq fun definition found site inside walk =>
          precise id rest definition site walk rfl found inside
      cases evaluated : analyzer.evaluate engine id with
      | ok walk => simp only [stepWith, step, same, evaluated]
      | error next => simp only [stepWith, step, same, evaluated]

/-- A run is the same when the addition is exact at every total of it. The turns are known to keep
some condition, which gives the totals. -/
theorem runWith_eq {motive : Machine → Prop}
    (kept : ∀ machine, machine.stack ≠ [] → motive machine → motive (analyzer.step machine))
    (precise : ∀ machine, motive machine → analyzer.EveryTotal machine (ExactAt add))
    (turns : Nat) {machine : Machine} (start : motive machine) :
    analyzer.runWith add turns machine = analyzer.run turns machine := by
  induction turns generalizing machine with
  | zero => rfl
  | succ turns ih =>
      rw [runWith, run, stepWith_eq (precise machine start)]
      split
      · rfl
      · rename_i busy
        exact ih (kept machine (by simpa using busy) start)

theorem depthWith_eq {engine : Engine} {id : FunctionId} {motive : Machine → Prop}
    (kept : ∀ machine, machine.stack ≠ [] → motive machine → motive (analyzer.step machine))
    (precise : ∀ machine, motive machine → analyzer.EveryTotal machine (ExactAt add))
    (start : ¬ engine.Completed id → motive (launch engine id)) :
    analyzer.depthWith add engine id = analyzer.depth engine id := by
  unfold depthWith depth
  cases found : engine.outcome? id with
  | some outcome => rfl
  | none =>
      have launched := start (Engine.not_completed_iff.2 found)
      have ran := runWith_eq kept precise analyzer.turnBound launched
      rw [launch] at ran
      simp only [ran]

end Exact

/-- With exact addition this is the engine itself. -/
theorem depthWith_add (engine : Engine) (id : FunctionId) :
    analyzer.depthWith (· + ·) engine id = analyzer.depth engine id :=
  depthWith_eq (motive := fun _ => True) (fun _ _ _ => trivial)
    (fun machine _ => analyzer.everyTotal_of_forall machine fun _ _ _ sum => sum) fun _ => trivial

/-! ## Words of 64 bits -/

/-- The sum of two words of 64 bits, which wraps around. -/
def wordAdd (first second : Nat) : Nat :=
  (UInt64.ofNat first + UInt64.ofNat second).toNat

/-- Addition of words is exact below their bound. -/
theorem exactAt_wordAdd {total : Nat} (fits : total < 2 ^ 64) : ExactAt wordAdd total := by
  rintro weight depth rfl
  rw [wordAdd, UInt64.toNat_add, UInt64.toNat_ofNat', UInt64.toNat_ofNat', ← Nat.add_mod,
    Nat.mod_eq_of_lt fits]

example : wordAdd (2 ^ 64 - 1) 2 = 1 := by decide +kernel

section Few

variable (few : analyzer.unit.callCount (Finset.range analyzer.unit.symbols.functions.length) <
  2 ^ 63 - 1)
include few

/-- Fewer than `2 ^ 63 - 1` calls cannot make a total that wraps around. -/
theorem Sound.everyTotal_lt {machine : Machine} (sound : analyzer.Sound machine) :
    analyzer.EveryTotal machine (· < 2 ^ 64) := by
  refine sound.everyTotal_le.imp fun total bounded => ?_
  have fewer := analyzer.unit.callCount_le machine.inPlay
  omega

theorem Settled.depthWith_wordAdd {engine : Engine} (settled : analyzer.Settled engine)
    (id : FunctionId) : analyzer.depthWith wordAdd engine id = analyzer.depth engine id :=
  depthWith_eq step_sound
    (fun _ sound => (sound.everyTotal_lt few).imp fun _ fits => exactAt_wordAdd fits) settled.launch

theorem afterWith_wordAdd (ids : List FunctionId) :
    analyzer.afterWith wordAdd ids = analyzer.after ids := by
  induction ids using List.reverseRecOn with
  | nil => rfl
  | append_singleton ids id ih =>
      rw [after_concat, ← (after_settled ids).depthWith_wordAdd few, ← ih]
      simp [afterWith]

end Few

/-- The loop passes a machine while it measures some definition after others. -/
def Passes (analyzer : Analyzer) (ids : List FunctionId) (machine : Machine) : Prop :=
  ∃ id turn, ¬ (analyzer.after ids).Completed id ∧
    analyzer.step^[turn] (launch (analyzer.after ids) id) = machine

theorem Passes.sound {ids : List FunctionId} {machine : Machine}
    (passes : analyzer.Passes ids machine) : analyzer.Sound machine := by
  obtain ⟨id, turn, open_, rfl⟩ := passes
  rw [← run_eq_iterate]
  exact run_sound turn ((after_settled ids).launch open_)

/-- Depths fit a machine word. In every turn of every measurement after any others, what is
remembered and the total of each call that is reached are at most one more than twice the number of
calls of the completed definitions and the one that is being measured. So with fewer than
`2 ^ 63 - 1` calls in the unit no total wraps around, and the engine over words of 64 bits, which
differs from the exact one in its addition only, computes the same. -/
theorem depth_fits_word (analyzer : Analyzer) (ids : List FunctionId) :
    (∀ id outcome, (analyzer.after ids).outcome? id = some outcome →
      outcome.depth ≤ 1 + 2 * analyzer.unit.callCount (completedIds (analyzer.after ids).memo)) ∧
    (∀ machine, analyzer.Passes ids machine →
      (∀ id outcome, machine.engine.outcome? id = some outcome →
        outcome.depth ≤ 1 + 2 * analyzer.unit.callCount machine.inPlay) ∧
      analyzer.EveryTotal machine (· ≤ 1 + 2 * analyzer.unit.callCount machine.inPlay)) ∧
    (∀ engine id, analyzer.depthWith (· + ·) engine id = analyzer.depth engine id) ∧
    (analyzer.unit.callCount (Finset.range analyzer.unit.symbols.functions.length) < 2 ^ 63 - 1 →
      (∀ machine, analyzer.Passes ids machine → analyzer.EveryTotal machine (· < 2 ^ 64)) ∧
      analyzer.afterWith wordAdd ids = analyzer.after ids ∧
      ∀ id, analyzer.depthWith wordAdd (analyzer.afterWith wordAdd ids) id =
        analyzer.depth (analyzer.after ids) id) := by
  have settled := analyzer.after_settled ids
  refine ⟨fun id outcome => settled.history.depth_le, fun machine passes => ?_, depthWith_add,
    fun few => ⟨fun machine passes => passes.sound.everyTotal_lt few, afterWith_wordAdd few ids,
      fun id => ?_⟩⟩
  · exact ⟨fun id outcome => passes.sound.remembered_le, passes.sound.everyTotal_le⟩
  · rw [afterWith_wordAdd few]
    exact settled.depthWith_wordAdd few id

/-- Four calls allow for depth 9. While `odd` is measured only its own call counts. -/
theorem parity_fits_word :
    (parity.after [0]).outcome? 0 = some parityEven ∧
      parityEven.depth ≤ 1 + 2 * parity.unit.callCount (completedIds (parity.after [0]).memo) ∧
      parity.unit.callCount (completedIds (parity.after [0]).memo) = 4 ∧
      parity.Passes [] (parity.step (launch {} 0)) ∧
      parity.EveryTotal (parity.step (launch {} 0))
        (· ≤ 1 + 2 * parity.unit.callCount (parity.step (launch {} 0)).inPlay) ∧
      parity.unit.callCount (parity.step (launch {} 0)).inPlay = 1 ∧
      parity.unit.callCount (Finset.range parity.unit.symbols.functions.length) < 2 ^ 63 - 1 ∧
      parity.EveryTotal (parity.step (launch {} 0)) (· < 2 ^ 64) ∧
      parity.depthWith wordAdd (parity.afterWith wordAdd [1]) 0 =
        parity.depth (parity.after [1]) 0 := by
  have remembered : (parity.after [0]).outcome? 0 = some parityEven := by decide +kernel
  have few : parity.unit.callCount (Finset.range parity.unit.symbols.functions.length) <
      2 ^ 63 - 1 := by decide +kernel
  have passes : parity.Passes [] (parity.step (launch {} 0)) := ⟨0, 1, by decide +kernel, rfl⟩
  obtain ⟨-, bounds, -, words⟩ := depth_fits_word parity []
  exact ⟨remembered, (depth_fits_word parity [0]).1 0 parityEven remembered, by decide +kernel,
    passes, (bounds _ passes).2, by decide +kernel, few, (words few).1 _ passes,
    ((depth_fits_word parity [1]).2.2.2 few).2.2 0⟩

end Analyzer

end CallDepth
