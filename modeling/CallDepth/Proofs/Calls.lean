/-
# The calls of a tree

`Node.calls` lists the calls of a tree in the order in which a walk evaluates them: the operands of
a call first, then its callee expression, then the call itself; other nodes give their children in
order. Calls inside a definition that is nested in the tree count as calls of the tree.

Trees have two cases here, a call and any other node. `Node.children_induction` proves by them, with
the hypothesis for every child, and `Node.fold` computes by them: `fold_site` and `fold_of_plain`
are its equations, and `calls_site` and `calls_of_plain` those of the calls.
-/
import CallDepth.Symbols
import Mathlib.Data.List.Basic

namespace CallDepth

def CallSite.node (site : CallSite) : Node :=
  .call site.withOptions site.callee site.argumentCount site.operands

namespace Node

/-- Every node is a call or none. -/
theorem eq_site_or_plain (node : Node) :
    (∃ site : CallSite, node = site.node) ∨ node.callSite? = none := by
  cases node with
  | call withOptions callee argumentCount operands =>
      exact .inl ⟨⟨withOptions, callee, argumentCount, operands⟩, rfl⟩
  | _ => exact .inr rfl

theorem sizeOf_child_lt {node child : Node} (member : child ∈ node.children) :
    sizeOf child < sizeOf node := by
  have listed : ∀ {nodes : List Node}, child ∈ nodes → sizeOf child < sizeOf nodes :=
    fun inside => List.sizeOf_lt_of_mem inside
  have optional : ∀ {node? : Option Node}, child ∈ node?.toList → sizeOf child < sizeOf node? := by
    intro node? inside
    cases node? with
    | none => cases inside
    | some node =>
        obtain rfl := List.mem_singleton.1 inside
        simp
  cases node <;> simp only [children, List.mem_append, List.not_mem_nil] at member
  case function | call =>
      simp only [function.sizeOf_spec, call.sizeOf_spec]
      rcases member with inside | inside
      · have := optional inside
        omega
      · have := listed inside
        omega
  case member | elementaryTypeExpr =>
      have := optional member
      simp only [Node.member.sizeOf_spec, elementaryTypeExpr.sizeOf_spec]
      omega
  all_goals
      have := listed member
      simp only [contract.sizeOf_spec, struct.sizeOf_spec, event.sizeOf_spec,
        typeNameExpr.sizeOf_spec, other.sizeOf_spec]
      omega

/-- Induction over a tree: a call, with the hypothesis for its operands and its callee expression,
or another node, with the hypothesis for its children. -/
@[elab_as_elim]
theorem children_induction {motive : Node → Prop} (node : Node)
    (site : ∀ site : CallSite, (∀ child ∈ site.operands, motive child) →
      (∀ child ∈ site.callee.toList, motive child) → motive site.node)
    (plain : ∀ node : Node, node.callSite? = none → (∀ child ∈ node.children, motive child) →
      motive node) : motive node := by
  induction size : sizeOf node using Nat.strongRecOn generalizing node with
  | ind _ ih =>
      have below : ∀ child ∈ node.children, motive child := fun child member =>
        ih _ (size ▸ sizeOf_child_lt member) child rfl
      rcases node.eq_site_or_plain with ⟨call, rfl⟩ | other
      · refine site call (fun child member => ?_) (fun child member => ?_)
        · exact below child (List.mem_append_right _ member)
        · exact below child (List.mem_append_left _ member)
      · exact plain node other below

/-! ## Values of trees -/

section Fold

variable {α : Type} (ofCall : CallSite → List α → List α → α) (ofChildren : List α → α)

mutual

/-- The value of a tree: that of a call from the values of its operands and of its callee
expression, that of another node from the values of its children. -/
def fold : Node → α
  | call withOptions callee argumentCount operands =>
      ofCall { withOptions, callee, argumentCount, operands } (foldAll operands) (foldOption callee)
  | contract _ _ _ members => ofChildren (foldAll members)
  | function _ _ _ _ body parts => ofChildren (foldOption body ++ foldAll parts)
  | struct _ members => ofChildren (foldAll members)
  | event _ members => ofChildren (foldAll members)
  | member base _ => ofChildren (foldOption base)
  | elementaryTypeExpr typeName => ofChildren (foldOption typeName)
  | typeNameExpr parts => ofChildren (foldAll parts)
  | other _ parts => ofChildren (foldAll parts)
  | identifier _ => ofChildren []
  | elementaryType _ => ofChildren []
  | thisRef => ofChildren []

def foldOption : Option Node → List α
  | none => []
  | some node => [fold node]

def foldAll : List Node → List α
  | [] => []
  | node :: rest => fold node :: foldAll rest

end

theorem foldAll_eq_map (nodes : List Node) :
    foldAll ofCall ofChildren nodes = nodes.map (fold ofCall ofChildren) := by
  induction nodes with
  | nil => rfl
  | cons node rest ih => rw [foldAll, ih, List.map_cons]

theorem foldOption_eq_map (node? : Option Node) :
    foldOption ofCall ofChildren node? = node?.toList.map (fold ofCall ofChildren) := by
  cases node? <;> rfl

/-- A fold takes a call apart into its operands and its callee expression. -/
theorem fold_site (site : CallSite) :
    site.node.fold ofCall ofChildren =
      ofCall site (site.operands.map (fold ofCall ofChildren))
        (site.callee.toList.map (fold ofCall ofChildren)) := by
  rw [CallSite.node, fold, foldAll_eq_map, foldOption_eq_map]

/-- A fold takes any other node apart into its children. -/
theorem fold_of_plain {node : Node} (plain : node.callSite? = none) :
    node.fold ofCall ofChildren = ofChildren (node.children.map (fold ofCall ofChildren)) := by
  cases node <;> simp_all [fold, children, callSite?, foldAll_eq_map, foldOption_eq_map]

end Fold

/-- The calls of a tree, in evaluation order. -/
def calls : Node → List CallSite :=
  fold (fun site operands callee => operands.flatten ++ callee.flatten ++ [site]) List.flatten

/-- The calls inside a call come before it. -/
theorem calls_site (site : CallSite) :
    site.node.calls =
      site.operands.flatMap calls ++ site.callee.toList.flatMap calls ++ [site] :=
  fold_site _ _ site

theorem calls_of_plain {node : Node} (plain : node.callSite? = none) :
    node.calls = node.children.flatMap calls :=
  fold_of_plain _ _ plain

end Node

def Definition.calls (definition : Definition) : List CallSite :=
  match definition.body with
  | none => []
  | some body => body.calls

theorem Definition.calls_eq_flatMap (definition : Definition) :
    definition.calls = definition.body.toList.flatMap Node.calls := by
  unfold calls
  cases definition.body <;> simp

end CallDepth
