/-
# The heaviest expansion

An expansion of a function visits calls one after another: the first stands in the body of the
function, and each next one stands inside the call before it or in the body of the function that
this call leads to (`Expansion`). It weighs what its calls weigh, each as seen from the function in
whose body it stands.

The depth of a function that reaches no cycle is the weight of its heaviest expansion
(`depth_is_heaviest`).

* No expansion weighs more, since the depth of a body is at least that of every call in it
  (`Expansion.weight_le`, by induction on the expansion).
* Some expansion weighs as much: it follows the dominant part of each call (`exists_expansion`, by
  induction on the body), and that of a callee has been found before, when the callee was completed
  (`History.exists_expansion`).
-/
import CallDepth.Proofs.Coverage
import CallDepth.Proofs.CycleBounds
import CallDepth.Proofs.TracePath
import Mathlib.Algebra.GroupWithZero.Nat
import Mathlib.Order.Bounds.Basic

namespace CallDepth

open Relation

/-- The calls inside a call: those of its operands and of its callee expression. -/
def CallSite.inner (site : CallSite) : List CallSite :=
  site.operands.flatMap Node.calls ++ site.callee.toList.flatMap Node.calls

namespace Node

theorem inner_subset_of_all {site : CallSite} {nodes : List Node}
    (each : ∀ node ∈ nodes, site ∈ node.calls → site.inner ⊆ node.calls)
    (member : site ∈ nodes.flatMap calls) : site.inner ⊆ nodes.flatMap calls := by
  obtain ⟨node, inside, below⟩ := List.mem_flatMap.1 member
  intro other found
  exact List.mem_flatMap.2 ⟨node, inside, each node inside below found⟩

/-- What stands inside a call of a tree is a call of the tree. -/
theorem inner_subset_calls {site : CallSite} (node : Node) (member : site ∈ node.calls) :
    site.inner ⊆ node.calls := by
  induction node using children_induction with
  | site outer operands callee =>
      rw [calls_site, List.mem_append, List.mem_append] at member
      rw [calls_site]
      rcases member with (below | below) | self
      · have within := inner_subset_of_all operands below
        exact List.subset_append_of_subset_left _ (List.subset_append_of_subset_left _ within)
      · have within := inner_subset_of_all callee below
        exact List.subset_append_of_subset_left _ (List.subset_append_of_subset_right _ within)
      · obtain rfl := List.mem_singleton.1 self
        exact List.subset_append_left _ _
  | plain node plain children =>
      rw [calls_of_plain plain] at member ⊢
      exact inner_subset_of_all children member

end Node

/-- The calls inside a call of a body are calls of the body. -/
theorem Definition.inner_subset_calls {definition : Definition} {site : CallSite}
    (member : site ∈ definition.calls) : site.inner ⊆ definition.calls := by
  rw [calls_eq_flatMap] at member ⊢
  exact Node.inner_subset_of_all (fun node _ => node.inner_subset_calls) member

theorem largest_mem {numbers : List Nat} (nonempty : numbers ≠ []) :
    largest numbers ∈ numbers := by
  induction numbers with
  | nil => exact absurd rfl nonempty
  | cons number rest ih =>
      show max number (largest rest) ∈ number :: rest
      cases rest with
      | nil => simp [largest]
      | cons second rest =>
          rcases max_choice number (largest (second :: rest)) with first | later
          · rw [first]
            exact List.mem_cons_self
          · rw [later]
            exact List.mem_cons_of_mem _ (ih (List.cons_ne_nil _ _))

namespace SourceUnit

variable (unit : SourceUnit)

def callsOf (id : FunctionId) : List CallSite :=
  match unit.symbols.function? id with
  | none => []
  | some definition => definition.calls

/-- Visits that expand calls, the first of them one of some calls in the body of a function. The
next call stands inside the one before it or in the body of the function that this one leads to. -/
inductive Expansion : FunctionId → List CallSite → List Visit → Prop where
  | stop {id : FunctionId} {sites : List CallSite} : Expansion id sites []
  | inside {id : FunctionId} {sites : List CallSite} {site : CallSite} {rest : List Visit}
      (member : site ∈ sites) (below : Expansion id site.inner rest) :
      Expansion id sites (⟨id, site⟩ :: rest)
  | callee {id callee : FunctionId} {sites : List CallSite} {site : CallSite} {rest : List Visit}
      (member : site ∈ sites) (leads : unit.LeadsTo ⟨id, site⟩ callee)
      (below : Expansion callee (unit.callsOf callee) rest) :
      Expansion id sites (⟨id, site⟩ :: rest)

def visitWeight (visit : Visit) : Nat :=
  match unit.symbols.function? visit.caller with
  | none => 0
  | some definition =>
      unit.weight visit.site (unit.resolve? visit.site definition.owner).isSome

def totalWeight (visits : List Visit) : Nat :=
  (visits.map unit.visitWeight).sum

def expansionWeights (id : FunctionId) : Set Nat :=
  {weight | ∃ visits, unit.Expansion id (unit.callsOf id) visits ∧
    unit.totalWeight visits = weight}

variable {unit} {id : FunctionId} {definition : Definition} {depths : FunctionId → Nat}

theorem callsOf_of_found (found : unit.symbols.function? id = some definition) :
    unit.callsOf id = definition.calls := by
  rw [callsOf, found]

theorem totalWeight_cons (found : unit.symbols.function? id = some definition) (site : CallSite)
    (rest : List Visit) :
    unit.totalWeight (⟨id, site⟩ :: rest) =
      unit.weight site (unit.resolve? site definition.owner).isSome + unit.totalWeight rest := by
  rw [totalWeight, List.map_cons, List.sum_cons, visitWeight, found, totalWeight]

theorem Expansion.mono {sites more : List CallSite} {visits : List Visit} (subset : sites ⊆ more)
    (expansion : unit.Expansion id sites visits) : unit.Expansion id more visits := by
  cases expansion with
  | stop => exact .stop
  | inside member below => exact .inside (subset member) below
  | callee member leads below => exact .callee (subset member) leads below

/-! ## No expansion weighs more -/

section Depths

variable {owner : String} {site : CallSite}

theorem site_le_largest {nodes : List Node}
    (each : ∀ node ∈ nodes, site ∈ node.calls →
      unit.nodeDepth owner depths site.node ≤ unit.nodeDepth owner depths node)
    (member : site ∈ nodes.flatMap Node.calls) :
    unit.nodeDepth owner depths site.node ≤
      largest (nodes.map (unit.nodeDepth owner depths)) := by
  obtain ⟨node, inside, below⟩ := List.mem_flatMap.1 member
  exact (each node inside below).trans (le_largest (List.mem_map_of_mem inside))

/-- A node is at least as deep as every call in it. -/
theorem site_le_nodeDepth (node : Node) (member : site ∈ node.calls) :
    unit.nodeDepth owner depths site.node ≤ unit.nodeDepth owner depths node := by
  induction node using Node.children_induction with
  | site outer operands callee =>
      rw [Node.calls_site, List.mem_append, List.mem_append] at member
      rcases member with (below | below) | self
      · have deep := site_le_largest operands below
        rw [nodeDepth_site outer]
        omega
      · have deep := site_le_largest callee below
        rw [nodeDepth_site outer]
        omega
      · obtain rfl := List.mem_singleton.1 self
        exact le_rfl
  | plain node plain children =>
      rw [Node.calls_of_plain plain] at member
      rw [nodeDepth_of_plain plain]
      exact site_le_largest children member

/-- A body is at least as deep as each of its calls. -/
theorem site_le_bodyDepth (member : site ∈ definition.calls) :
    unit.nodeDepth definition.owner depths site.node ≤ unit.bodyDepth definition depths := by
  rw [Definition.calls_eq_flatMap] at member
  rw [bodyDepth_eq_largest]
  exact site_le_largest (fun node _ => site_le_nodeDepth node) member

/-- The operands and the callee expression of a call are as deep as every call inside it. -/
theorem inner_le_parts {outer : CallSite} (member : site ∈ outer.inner) :
    unit.nodeDepth owner depths site.node ≤
      max (largest (outer.operands.map (unit.nodeDepth owner depths)))
        (largest (outer.callee.toList.map (unit.nodeDepth owner depths))) := by
  rw [CallSite.inner, List.mem_append] at member
  rcases member with below | below
  · exact le_max_of_le_left (site_le_largest (fun node _ => site_le_nodeDepth node) below)
  · exact le_max_of_le_right (site_le_largest (fun node _ => site_le_nodeDepth node) below)

end Depths

/-- A bound on the depths of some calls bounds the expansions that begin with them, when every
function that is reached counts with at least the depth of its body. -/
theorem Expansion.weight_le {root : FunctionId}
    (bodies : ∀ id definition, unit.Reaches root id →
      unit.symbols.function? id = some definition → unit.bodyDepth definition depths ≤ depths id)
    {sites : List CallSite} {visits : List Visit} (expansion : unit.Expansion id sites visits)
    (reaches : unit.Reaches root id) (found : unit.symbols.function? id = some definition)
    (within : sites ⊆ definition.calls) {bound : Nat}
    (bounded : ∀ site ∈ sites, unit.nodeDepth definition.owner depths site.node ≤ bound) :
    unit.totalWeight visits ≤ bound := by
  -- The bound changes along the expansion: below a call it is the depth of the part that goes on.
  induction expansion generalizing definition bound with
  | stop => exact Nat.zero_le bound
  | @inside id sites site rest member below ih =>
      have deep := bounded site member
      have inner := ih reaches found (Definition.inner_subset_calls (within member))
        fun other inside => inner_le_parts inside
      rw [nodeDepth_site] at deep
      rw [totalWeight_cons found]
      omega
  | @callee id callee sites site rest member leads below ih =>
      obtain ⟨same, again, resolved⟩ := leads
      obtain rfl : definition = same := Option.some.inj (found.symm.trans again)
      have calls : unit.Calls id callee := ⟨definition, site, found, within member, resolved⟩
      obtain ⟨called, named⟩ := calls.defined
      have deep := bounded site member
      have inner : unit.totalWeight rest ≤ depths callee := by
        rw [callsOf_of_found named] at ih
        refine ih (reaches.tail calls) named (List.Subset.refl _) fun other inside => ?_
        exact (site_le_bodyDepth inside).trans (bodies callee called (reaches.tail calls) named)
      rw [nodeDepth_site, resolved, Option.elim_some] at deep
      rw [totalWeight_cons found, resolved]
      omega

/-! ## Some expansion weighs as much -/

/-- Siblings have an expansion as heavy as the deepest of them is deep, if each has one. -/
theorem exists_expansion_of_all {owner : String} {nodes : List Node}
    (each : ∀ node ∈ nodes, ∃ visits, unit.Expansion id node.calls visits ∧
      unit.totalWeight visits = unit.nodeDepth owner depths node) :
    ∃ visits, unit.Expansion id (nodes.flatMap Node.calls) visits ∧
      unit.totalWeight visits = largest (nodes.map (unit.nodeDepth owner depths)) := by
  cases nodes with
  | nil => exact ⟨[], .stop, rfl⟩
  | cons first rest =>
      have chosen := largest_mem (List.cons_ne_nil (unit.nodeDepth owner depths first)
        (rest.map (unit.nodeDepth owner depths)))
      rw [← List.map_cons] at chosen
      obtain ⟨node, member, deepest⟩ := List.mem_map.1 chosen
      obtain ⟨visits, expansion, weight⟩ := each node member
      refine ⟨visits, expansion.mono fun site inside => ?_, weight.trans deepest⟩
      exact List.mem_flatMap.2 ⟨node, member, inside⟩

/-- A call has an expansion as heavy as it is deep, if its parts have. -/
theorem exists_expansion_of_site (found : unit.symbols.function? id = some definition)
    (callees : ∀ callee, unit.Calls id callee →
      ∃ visits, unit.Expansion callee (unit.callsOf callee) visits ∧
        unit.totalWeight visits = depths callee)
    {site : CallSite} (inside : site ∈ definition.calls)
    (args : ∃ visits, unit.Expansion id (site.operands.flatMap Node.calls) visits ∧
      unit.totalWeight visits =
        largest (site.operands.map (unit.nodeDepth definition.owner depths)))
    (expr : ∃ visits, unit.Expansion id (site.callee.toList.flatMap Node.calls) visits ∧
      unit.totalWeight visits =
        largest (site.callee.toList.map (unit.nodeDepth definition.owner depths))) :
    ∃ visits, unit.Expansion id [site] visits ∧
      unit.totalWeight visits = unit.nodeDepth definition.owner depths site.node := by
  have self : site ∈ [site] := List.mem_singleton_self site
  rw [nodeDepth_site]
  generalize unit.nodeDepth definition.owner depths = deep at args expr ⊢
  -- The dominant part decides how the expansion goes on.
  rcases max_choice (max (largest (site.operands.map deep)) (largest (site.callee.toList.map deep)))
    ((unit.resolve? site definition.owner).elim 0 depths) with inner | reached
  · rw [inner]
    rcases max_choice (largest (site.operands.map deep)) (largest (site.callee.toList.map deep))
      with first | second
    · obtain ⟨visits, expansion, weight⟩ := args
      refine ⟨⟨id, site⟩ :: visits, .inside self ?_, ?_⟩
      · exact expansion.mono (List.subset_append_left _ _)
      · rw [totalWeight_cons found, weight, first]
    · obtain ⟨visits, expansion, weight⟩ := expr
      refine ⟨⟨id, site⟩ :: visits, .inside self ?_, ?_⟩
      · exact expansion.mono (List.subset_append_right _ _)
      · rw [totalWeight_cons found, weight, second]
  · rw [reached]
    cases resolved : unit.resolve? site definition.owner with
    | none =>
        refine ⟨[⟨id, site⟩], .inside self .stop, ?_⟩
        rw [totalWeight_cons found, resolved]
        rfl
    | some callee =>
        obtain ⟨visits, expansion, weight⟩ :=
          callees callee ⟨definition, site, found, inside, resolved⟩
        refine ⟨⟨id, site⟩ :: visits, .callee self ⟨definition, found, resolved⟩ expansion, ?_⟩
        rw [totalWeight_cons found, weight, resolved]
        rfl

/-- A node has an expansion as heavy as it is deep, if the functions have that its calls lead to. -/
theorem exists_expansion (found : unit.symbols.function? id = some definition)
    (callees : ∀ callee, unit.Calls id callee →
      ∃ visits, unit.Expansion callee (unit.callsOf callee) visits ∧
        unit.totalWeight visits = depths callee)
    (node : Node) (inside : node.calls ⊆ definition.calls) :
    ∃ visits, unit.Expansion id node.calls visits ∧
      unit.totalWeight visits = unit.nodeDepth definition.owner depths node := by
  induction node using Node.children_induction with
  | site site operands callee =>
      rw [Node.calls_site, List.append_subset, List.append_subset] at inside
      obtain ⟨⟨argsInside, exprInside⟩, selfInside⟩ := inside
      have args := exists_expansion_of_all fun child member => operands child member
        fun other below => argsInside (List.mem_flatMap.2 ⟨child, member, below⟩)
      have expr := exists_expansion_of_all fun child member => callee child member
        fun other below => exprInside (List.mem_flatMap.2 ⟨child, member, below⟩)
      obtain ⟨visits, expansion, weight⟩ := exists_expansion_of_site found callees
        (selfInside (List.mem_singleton_self site)) args expr
      refine ⟨visits, expansion.mono ?_, weight⟩
      rw [Node.calls_site]
      exact List.subset_append_right _ _
  | plain node plain children =>
      rw [Node.calls_of_plain plain] at inside ⊢
      rw [nodeDepth_of_plain plain]
      exact exists_expansion_of_all fun child member => children child member
        fun other below => inside (List.mem_flatMap.2 ⟨child, member, below⟩)

/-- Where the callees have expansions as heavy as their depths, so has the body. -/
theorem exists_expansion_of_body (found : unit.symbols.function? id = some definition)
    (callees : ∀ callee, unit.Calls id callee →
      ∃ visits, unit.Expansion callee (unit.callsOf callee) visits ∧
        unit.totalWeight visits = depths callee) :
    ∃ visits, unit.Expansion id (unit.callsOf id) visits ∧
      unit.totalWeight visits = unit.bodyDepth definition depths := by
  rw [callsOf_of_found found, Definition.calls_eq_flatMap, bodyDepth_eq_largest]
  refine exists_expansion_of_all fun node member => exists_expansion found callees node ?_
  rw [Definition.calls_eq_flatMap]
  exact fun site below => List.mem_flatMap.2 ⟨node, member, below⟩

end SourceUnit

namespace Analyzer

variable {analyzer : Analyzer} {id : FunctionId} {outcome : Outcome}

/-- Every completed definition that reaches no cycle has an expansion as heavy as it is deep: its
callees were completed before it. -/
theorem History.exists_expansion {memo : List (FunctionId × Outcome)} {log : List CallEvent}
    (history : analyzer.History memo log) (found : memo.lookup id = some outcome)
    (acyclic : ∀ other, analyzer.unit.Reaches id other → ¬ analyzer.unit.OnCycle other) :
    outcome.depth ∈ analyzer.unit.expansionWeights id := by
  refine history.remembered_induction (motive := fun id outcome =>
    (∀ other, analyzer.unit.Reaches id other → ¬ analyzer.unit.OnCycle other) →
      outcome.depth ∈ analyzer.unit.expansionWeights id) ?_ found acyclic
  intro older id _ earlier back acyclic
  cases defined : analyzer.unit.symbols.function? id with
  | none =>
      rw [conclude, defined]
      exact ⟨[], .stop, rfl⟩
  | some definition =>
      rw [conclude_depth defined]
      refine SourceUnit.exists_expansion_of_body defined fun callee calls => ?_
      cases known : older.lookup callee with
      | some result =>
          rw [presumed_of_found known]
          exact earlier callee result known fun other reaches => acyclic other (.head calls reaches)
      | none =>
          have common := calls.onCommonCycle (back callee calls known)
          exact absurd common.onCycle.1 (acyclic id .refl)

/-- Away from cycles a remembered depth is that of the body under the remembered depths. -/
theorem Settled.depthOf_eq_bodyDepth {engine : Engine} (settled : analyzer.Settled engine)
    {definition : Definition} (defined : analyzer.unit.symbols.function? id = some definition)
    (found : engine.outcome? id = some outcome) (away : ¬ analyzer.unit.OnCycle id) :
    engine.depthOf id = analyzer.unit.bodyDepth definition engine.depthOf := by
  obtain ⟨lower, upper⟩ := settled.bodyDepth_bounds defined found
  rw [funext (cutDepth_of_not_onCycle away)] at lower
  rw [Engine.depthOf_of_found found]
  exact le_antisymm upper lower

/-- A completed definition that reaches no cycle is as deep as its heaviest expansion is heavy. -/
theorem Settled.isGreatest_depth {engine : Engine} (settled : analyzer.Settled engine)
    {definition : Definition} (defined : analyzer.unit.symbols.function? id = some definition)
    (found : engine.outcome? id = some outcome)
    (acyclic : ∀ other, analyzer.unit.Reaches id other → ¬ analyzer.unit.OnCycle other) :
    IsGreatest (analyzer.unit.expansionWeights id) outcome.depth := by
  have bodies : ∀ other definition, analyzer.unit.Reaches id other →
      analyzer.unit.symbols.function? other = some definition →
      engine.depthOf other = analyzer.unit.bodyDepth definition engine.depthOf := by
    intro other definition reaches defined
    obtain ⟨result, known⟩ := settled.completed_of_reaches ⟨outcome, found⟩ reaches
    exact settled.depthOf_eq_bodyDepth defined known (acyclic other reaches)
  refine ⟨settled.history.exists_expansion found acyclic, ?_⟩
  rintro weight ⟨visits, expansion, rfl⟩
  rw [SourceUnit.callsOf_of_found defined] at expansion
  refine expansion.weight_le (fun other definition reaches defined =>
    (bodies other definition reaches defined).ge) .refl defined (List.Subset.refl _)
    fun site member => ?_
  rw [← Engine.depthOf_of_found found, bodies id definition .refl defined]
  exact SourceUnit.site_le_bodyDepth member

/-- The depth of a function that reaches no cycle is the weight of its heaviest expansion. This is
what an analysis reports and what a measurement gives after any others. -/
theorem depth_is_heaviest (analyzer : Analyzer) (id : FunctionId) (definition : Definition)
    (defined : analyzer.unit.symbols.function? id = some definition)
    (acyclic : ∀ other, analyzer.unit.Reaches id other → ¬ analyzer.unit.OnCycle other) :
    ∃ heaviest, IsGreatest (analyzer.unit.expansionWeights id) heaviest ∧
      (∀ ids, (analyzer.depth (analyzer.after ids) id).1.depth = heaviest) ∧
      ∀ root, analyzer.unit = SourceUnit.ofTree root →
        ∃ row, (analyze analyzer.options root).rows[id]? = some row ∧
          row.contract = definition.owner ∧ row.function = definition.name ∧
          row.depth = heaviest := by
  have greatest : ∀ ids, IsGreatest (analyzer.unit.expansionWeights id)
      (analyzer.depth (analyzer.after ids) id).1.depth := by
    intro ids
    obtain ⟨settled, -, found⟩ := (after_settled ids).depth id
    exact settled.isGreatest_depth defined found acyclic
  refine ⟨_, greatest [], fun ids => (greatest ids).unique (greatest []), fun root same => ?_⟩
  refine ⟨definition.measured (analyzer.depth (analyzer.after (List.range id)) id).1, ?_, rfl, rfl,
    (greatest (List.range id)).unique (greatest [])⟩
  rw [analyze_rows same, measureAll_row, defined, Option.map_some]

/-- A function that hashes what another one gives, and apart from them one that calls itself. -/
def vaultTree : Node :=
  .contract "Vault" "contract" [] [
    .function "seal" 0 "public" "view"
      (some (.call false (some (.identifier "keccak256")) (some 1) [
        .call false (some (.identifier "digest")) (some 1) [
          .call false (some (.identifier "sha256")) (some 1) [.identifier "key"]]])) [],
    .function "digest" 1 "public" "pure"
      (some (.call false (some (.identifier "sha256")) (some 1) [
        .call false (some (.identifier "sha256")) (some 1) [.identifier "n"]])) [],
    .function "spin" 0 "public" "" (some (.call false (some (.identifier "spin")) (some 0) [])) []]

def vault : Analyzer where
  unit := .ofTree vaultTree
  options := {}

theorem vault_seal_acyclic (other : FunctionId) (reaches : vault.unit.Reaches 0 other) :
    ¬ vault.unit.OnCycle other := by
  intro cycle
  obtain ⟨next, calls, back⟩ := TransGen.head'_iff.1 cycle
  have first : other ∈ [0, 1] := reaches.mem_of_closed (by decide +kernel) (by decide)
  have onlyDigest : ∀ caller ∈ [0, 1], ∀ callee ∈ vault.unit.callees caller, callee ∈ [1] := by
    decide +kernel
  have second : next ∈ [1] := onlyDigest other first next (SourceUnit.mem_callees_iff.2 calls)
  -- `digest` calls nothing, so it does not lead back.
  have last := SourceUnit.Reaches.mem_of_closed back (by decide +kernel) second
  rw [List.mem_singleton.1 second, List.mem_singleton.1 last] at calls
  exact absurd calls (by decide +kernel)

/-- The heaviest expansion of `seal` goes through `digest` into both calls of its body. -/
theorem vault_depth_is_heaviest :
    ∃ definition, vault.unit.symbols.function? 0 = some definition ∧ vault.unit.OnCycle 2 ∧
      IsGreatest (vault.unit.expansionWeights 0) 3 ∧
      (vault.depth (vault.after [2, 1]) 0).1.depth = 3 ∧
      ∃ row, (analyze vault.options vaultTree).rows[0]? = some row ∧
        row.contract = definition.owner ∧ row.function = definition.name ∧ row.depth = 3 := by
  obtain ⟨definition, defined⟩ : ∃ definition, vault.unit.symbols.function? 0 = some definition :=
    Option.isSome_iff_exists.1 (by decide +kernel)
  obtain ⟨heaviest, greatest, measured, reported⟩ :=
    depth_is_heaviest vault 0 definition defined vault_seal_acyclic
  have three : (vault.depth (vault.after [2, 1]) 0).1.depth = 3 := by decide +kernel
  obtain rfl : heaviest = 3 := (measured [2, 1]).symm.trans three
  exact ⟨definition, defined, .single (by decide +kernel), greatest, three,
    reported vaultTree rfl⟩

end Analyzer

end CallDepth
