/-
# The depth of a body

`SourceUnit.nodeDepth` is the depth of a node when every function counts with a given number. A call
adds its weight to the largest of its operands, its callee expression and the function it leads to;
any other node is as deep as its deepest child. The depth that is measured is this number under the
depths of the given outcomes (`Analyzer.measureBody_depth`).

It grows with the numbers of the functions that the calls lead to (`bodyDepth_mono`), and it is at
least each of them (`le_bodyDepth`).
-/
import CallDepth.Proofs.CallGraph
import Mathlib.Order.Nat

namespace CallDepth

/-- The largest of numbers; 0 when there is none. -/
def largest (numbers : List Nat) : Nat :=
  numbers.foldr max 0

theorem largest_le_iff {numbers : List Nat} {bound : Nat} :
    largest numbers ≤ bound ↔ ∀ number ∈ numbers, number ≤ bound := by
  induction numbers with
  | nil => simp [largest]
  | cons number rest ih =>
      rw [List.forall_mem_cons, ← ih]
      exact Nat.max_le

theorem le_largest {numbers : List Nat} {number : Nat} (member : number ∈ numbers) :
    number ≤ largest numbers :=
  largest_le_iff.1 le_rfl number member

theorem largest_cons (number : Nat) (rest : List Nat) :
    largest (number :: rest) = max number (largest rest) :=
  rfl

theorem largest_append (first second : List Nat) :
    largest (first ++ second) = max (largest first) (largest second) := by
  induction first with
  | nil => simp [largest]
  | cons number rest ih => rw [List.cons_append, largest_cons, largest_cons, ih, Nat.max_assoc]

theorem largest_map_le {α : Type} {items : List α} {first second : α → Nat}
    (each : ∀ item ∈ items, first item ≤ second item) :
    largest (items.map first) ≤ largest (items.map second) := by
  refine largest_le_iff.2 fun number member => ?_
  obtain ⟨item, inside, rfl⟩ := List.mem_map.1 member
  exact (each item inside).trans (le_largest (List.mem_map_of_mem inside))

theorem Outcome.depth_deepest (outcomes : List Outcome) :
    (deepest outcomes).depth = largest (outcomes.map (·.depth)) := by
  refine eq_of_forall_ge_iff fun bound => ?_
  rw [depth_deepest_le_iff, largest_le_iff, List.forall_mem_map]

namespace SourceUnit

variable (unit : SourceUnit)

/-- The depth of a node under an owner when every function counts with a given depth. -/
def nodeDepth (owner : String) (depths : FunctionId → Nat) : Node → Nat :=
  Node.fold
    (fun site args expr =>
      unit.weight site (unit.resolve? site owner).isSome +
        max (max (largest args) (largest expr)) ((unit.resolve? site owner).elim 0 depths))
    largest

def bodyDepth (definition : Definition) (depths : FunctionId → Nat) : Nat :=
  match definition.body with
  | none => 0
  | some body => unit.nodeDepth definition.owner depths body

variable {unit} {owner : String} {depths others : FunctionId → Nat}

/-- A call is as deep as its weight and the deepest of its parts. -/
theorem nodeDepth_site (site : CallSite) :
    unit.nodeDepth owner depths site.node =
      unit.weight site (unit.resolve? site owner).isSome +
        max (max (largest (site.operands.map (unit.nodeDepth owner depths)))
            (largest (site.callee.toList.map (unit.nodeDepth owner depths))))
          ((unit.resolve? site owner).elim 0 depths) :=
  Node.fold_site _ _ site

theorem nodeDepth_of_plain {node : Node} (plain : node.callSite? = none) :
    unit.nodeDepth owner depths node =
      largest (node.children.map (unit.nodeDepth owner depths)) :=
  Node.fold_of_plain _ _ plain

/-- A node is the deeper the deeper the functions are that its calls lead to. -/
theorem nodeDepth_mono (node : Node)
    (below : ∀ id ∈ unit.targets owner node.calls, depths id ≤ others id) :
    unit.nodeDepth owner depths node ≤ unit.nodeDepth owner others node := by
  induction node using Node.children_induction with
  | site site operands callee =>
      have args := largest_map_le fun child member => operands child member fun id inside =>
        below id (mem_targets_site_iff.2 (.inl ⟨child, member, inside⟩))
      have expr := largest_map_le fun child member => callee child member fun id inside =>
        below id (mem_targets_site_iff.2 (.inr (.inl ⟨child, member, inside⟩)))
      have reached : (unit.resolve? site owner).elim 0 depths ≤
          (unit.resolve? site owner).elim 0 others := by
        cases resolved : unit.resolve? site owner with
        | none => exact le_rfl
        | some id => exact below id (mem_targets_site_iff.2 (.inr (.inr resolved)))
      rw [nodeDepth_site, nodeDepth_site]
      omega
  | plain node plain children =>
      rw [nodeDepth_of_plain plain, nodeDepth_of_plain plain]
      refine largest_map_le fun child member => children child member fun id inside => ?_
      rw [Node.calls_of_plain plain] at below
      exact below id (mem_targets_flatMap_iff.2 ⟨child, member, inside⟩)

/-- A node is at least as deep as every function that its calls lead to. -/
theorem le_nodeDepth (depths : FunctionId → Nat) (node : Node) {id : FunctionId}
    (target : id ∈ unit.targets owner node.calls) :
    depths id ≤ unit.nodeDepth owner depths node := by
  induction node using Node.children_induction with
  | site site operands callee =>
      rw [nodeDepth_site]
      rcases mem_targets_site_iff.1 target with
        ⟨child, member, inside⟩ | ⟨child, member, inside⟩ | resolved
      · have deep := (operands child member inside).trans (le_largest (List.mem_map_of_mem member))
        omega
      · have deep := (callee child member inside).trans (le_largest (List.mem_map_of_mem member))
        omega
      · simp only [resolved, Option.elim_some]
        omega
  | plain node plain children =>
      rw [nodeDepth_of_plain plain]
      rw [Node.calls_of_plain plain] at target
      obtain ⟨child, member, inside⟩ := mem_targets_flatMap_iff.1 target
      exact (children child member inside).trans (le_largest (List.mem_map_of_mem member))

variable {definition : Definition}

theorem bodyDepth_eq_largest :
    unit.bodyDepth definition depths =
      largest (definition.body.toList.map (unit.nodeDepth definition.owner depths)) := by
  unfold bodyDepth
  cases definition.body <;> simp [largest]

/-- A body is no deeper when its callees are no deeper. -/
theorem bodyDepth_mono
    (below : ∀ id ∈ unit.targets definition.owner definition.calls, depths id ≤ others id) :
    unit.bodyDepth definition depths ≤ unit.bodyDepth definition others := by
  unfold Definition.calls at below
  unfold bodyDepth
  cases body : definition.body with
  | none => exact le_rfl
  | some node =>
      rw [body] at below
      exact nodeDepth_mono node below

/-- A body is at least as deep as what it calls. -/
theorem le_bodyDepth (depths : FunctionId → Nat) {id : FunctionId}
    (target : id ∈ unit.targets definition.owner definition.calls) :
    depths id ≤ unit.bodyDepth definition depths := by
  unfold Definition.calls at target
  unfold bodyDepth
  cases body : definition.body with
  | none =>
      rw [body] at target
      cases target
  | some node =>
      rw [body] at target
      exact le_nodeDepth depths node target

end SourceUnit

namespace Analyzer

variable (analyzer : Analyzer) (caller : Definition) (outcomes : FunctionId → Outcome)

theorem deepest_measure_depth (nodes : List Node) :
    (Walk.deepest (nodes.map (analyzer.measure caller outcomes))).outcome.depth =
      largest (nodes.map fun node => (analyzer.measure caller outcomes node).outcome.depth) := by
  rw [Walk.deepest, Outcome.depth_deepest, List.map_map, List.map_map]
  rfl

theorem measure_depth (node : Node) :
    (analyzer.measure caller outcomes node).outcome.depth =
      analyzer.unit.nodeDepth caller.owner (fun id => (outcomes id).depth) node := by
  induction node using Node.children_induction with
  | site site operands callee =>
      rw [measure_site, SourceUnit.nodeDepth_site, ← List.map_congr_left operands,
        ← List.map_congr_left callee, ← deepest_measure_depth, ← deepest_measure_depth]
      cases analyzer.unit.resolve? site caller.owner <;> rfl
  | plain node plain children =>
      rw [measure_of_plain _ _ _ plain, SourceUnit.nodeDepth_of_plain plain,
        ← List.map_congr_left children, ← deepest_measure_depth]

/-- The depth of a measured body depends on the depths of its callees alone. -/
theorem measureBody_depth :
    (analyzer.measureBody caller outcomes).outcome.depth =
      analyzer.unit.bodyDepth caller fun id => (outcomes id).depth := by
  unfold measureBody walkBody SourceUnit.bodyDepth
  cases caller.body with
  | none => rfl
  | some body => exact analyzer.measure_depth caller outcomes body

end Analyzer

end CallDepth
