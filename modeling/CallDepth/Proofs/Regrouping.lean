/-
# Groups of parameters do not matter

The parameters of a function stand among its parts, or in a node of their own there.
`Node.ungrouped` puts them among the parts, everywhere in a tree, nested groups included.

A group adds a node to the tree and shifts the siblings after it. It makes no call and declares
nothing, so the calls of a tree stay in their order (`calls_ungrouped`) and so do its declarations
(`declarations_ungrouped`); only bodies that hold a function change. Calls lead to the same
functions and weigh the same (`resolve?_ungrouped`, `weight_ungrouped`), and the deepest of all
siblings is as deep as the deepest of the groups (`nodeDepth_ungrouped`). So the analyzers of both
trees run in step, recursion included, and give the same rows and events
(`analyze_ungrouped`). Traces are another matter: an empty group is a first sibling of depth 0.
-/
import CallDepth.Proofs.CycleBounds
import CallDepth.Proofs.Declarations
import CallDepth.Proofs.Lockstep
import CallDepth.Proofs.Narration

namespace CallDepth

/-! ## Trees without groups -/

namespace Node

/-- The tag of a node that groups parameters. -/
def groupTag : String := "ParameterList"

/-- The nodes with every group replaced by its parts. -/
def dissolve : List Node → List Node
  | [] => []
  | other tag parts :: rest =>
      (if tag = groupTag then dissolve parts else [other tag parts]) ++ dissolve rest
  | node :: rest => node :: dissolve rest

mutual

/-- The tree with the parameters of every function among its parts. -/
def ungrouped : Node → Node
  | contract name kind bases members => contract name kind bases (ungroupedAll members)
  | function name arity visibility mutability body parts =>
      function name arity visibility mutability (ungroupedOption body)
        (dissolve (ungroupedAll parts))
  | struct name members => struct name (ungroupedAll members)
  | event name members => event name (ungroupedAll members)
  | call withOptions callee argumentCount operands =>
      call withOptions (ungroupedOption callee) argumentCount (ungroupedAll operands)
  | identifier name => identifier name
  | member base name => member (ungroupedOption base) name
  | elementaryType name => elementaryType name
  | elementaryTypeExpr typeName => elementaryTypeExpr (ungroupedOption typeName)
  | typeNameExpr parts => typeNameExpr (ungroupedAll parts)
  | thisRef => thisRef
  | other tag parts => other tag (ungroupedAll parts)

def ungroupedOption : Option Node → Option Node
  | none => none
  | some node => some node.ungrouped

def ungroupedAll : List Node → List Node
  | [] => []
  | node :: rest => node.ungrouped :: ungroupedAll rest

end

theorem ungroupedOption_eq (node? : Option Node) : ungroupedOption node? = node?.map ungrouped := by
  cases node? <;> rfl

theorem ungroupedAll_eq (nodes : List Node) : ungroupedAll nodes = nodes.map ungrouped := by
  induction nodes with
  | nil => rfl
  | cons node rest ih => rw [ungroupedAll, ih, List.map_cons]

theorem dissolve_append (first second : List Node) :
    dissolve (first ++ second) = dissolve first ++ dissolve second := by
  fun_induction dissolve first <;> simp_all [dissolve]

theorem dissolve_group (parts : List Node) : dissolve [other groupTag parts] = dissolve parts := by
  simp [dissolve]

/-- What nodes gather is gathered from their parts as well. -/
theorem flatMap_dissolve {β : Type} {gather : Node → List β}
    (groups : ∀ parts, gather (other groupTag parts) = parts.flatMap gather) (nodes : List Node) :
    (dissolve nodes).flatMap gather = nodes.flatMap gather := by
  fun_induction dissolve nodes with
  | case1 => rfl
  | case2 tag parts rest inner later =>
      rw [List.flatMap_append, List.flatMap_cons, later]
      congr 1
      split
      · rename_i group
        rw [group, groups, inner]
      · exact List.flatMap_singleton _ _
  | case3 node rest plain later => rw [List.flatMap_cons, List.flatMap_cons, later]

/-- The deepest of some nodes is as deep as the deepest of their parts. -/
theorem largest_dissolve {depth : Node → Nat}
    (groups : ∀ parts, depth (other groupTag parts) = largest (parts.map depth))
    (nodes : List Node) : largest ((dissolve nodes).map depth) = largest (nodes.map depth) := by
  fun_induction dissolve nodes with
  | case1 => rfl
  | case2 tag parts rest inner later =>
      rw [List.map_append, largest_append, List.map_cons, largest_cons, later]
      congr 1
      split
      · rename_i group
        rw [group, groups, inner]
      · exact Nat.max_zero _
  | case3 node rest plain later =>
      rw [List.map_cons, List.map_cons, largest_cons, largest_cons, later]

/-- The children of a tree without groups: those of the tree, but groups among the parts of a
function are dissolved. -/
theorem children_ungrouped (node : Node) :
    ∃ first rest, node.children = first ++ rest ∧
      node.ungrouped.children = first.map ungrouped ++ dissolve (rest.map ungrouped) := by
  cases node with
  | function name arity visibility mutability body parts =>
      refine ⟨body.toList, parts, rfl, ?_⟩
      simp [ungrouped, children, ungroupedOption_eq, ungroupedAll_eq, Option.toList_map]
  | _ =>
      refine ⟨_, [], (List.append_nil _).symm, ?_⟩
      simp [ungrouped, children, ungroupedOption_eq, ungroupedAll_eq, dissolve, Option.toList_map]

theorem flatMap_children_ungrouped {β : Type} {gather : Node → List β}
    (groups : ∀ parts, gather (other groupTag parts) = parts.flatMap gather) (node : Node) :
    node.ungrouped.children.flatMap gather =
      node.children.flatMap fun child => gather child.ungrouped := by
  obtain ⟨first, rest, all, without⟩ := node.children_ungrouped
  rw [all, without, List.flatMap_append, List.flatMap_append, flatMap_dissolve groups,
    List.flatMap_map, List.flatMap_map]

theorem largest_children_ungrouped {depth : Node → Nat}
    (groups : ∀ parts, depth (other groupTag parts) = largest (parts.map depth)) (node : Node) :
    largest (node.ungrouped.children.map depth) =
      largest (node.children.map fun child => depth child.ungrouped) := by
  obtain ⟨first, rest, all, without⟩ := node.children_ungrouped
  rw [all, without, List.map_append, List.map_append, largest_append, largest_append,
    largest_dissolve groups, List.map_map, List.map_map]
  rfl

theorem callSite?_ungrouped {node : Node} (plain : node.callSite? = none) :
    node.ungrouped.callSite? = none := by
  cases node with
  | call withOptions callee argumentCount operands => cases plain
  | _ => rfl

end Node

def CallSite.ungrouped (site : CallSite) : CallSite :=
  { site with
    callee := site.callee.map Node.ungrouped
    operands := site.operands.map Node.ungrouped }

/-- Calls stay calls. -/
theorem CallSite.node_ungrouped (site : CallSite) : site.node.ungrouped = site.ungrouped.node := by
  rw [CallSite.node, Node.ungrouped, Node.ungroupedOption_eq, Node.ungroupedAll_eq]
  rfl

namespace Node

/-- A tree without groups has the same calls in the same order. -/
theorem calls_ungrouped (node : Node) :
    node.ungrouped.calls = node.calls.map CallSite.ungrouped := by
  induction node using children_induction with
  | site site operands callee =>
      rw [CallSite.node_ungrouped, calls_site, calls_site, List.map_append, List.map_append,
        List.map_flatMap, List.map_flatMap, ← List.flatMap_congr operands,
        ← List.flatMap_congr callee]
      simp [CallSite.ungrouped, Option.toList_map, List.flatMap_map]
  | plain node plain children =>
      rw [calls_of_plain plain, calls_of_plain (callSite?_ungrouped plain), List.map_flatMap,
        flatMap_children_ungrouped fun parts => calls_of_plain rfl]
      exact List.flatMap_congr children

/-! ## Labels and weights -/

theorem elementaryLabel_ungrouped (typeName : Option Node) :
    elementaryLabel (typeName.map ungrouped) = elementaryLabel typeName := by
  cases typeName with
  | none => rfl
  | some node => cases node <;> rfl

theorem labelOf_map_ungrouped {node? : Option Node}
    (same : ∀ node ∈ node?.toList, node.ungrouped.label = node.label) :
    labelOf (node?.map ungrouped) = labelOf node? := by
  cases node? with
  | none => rfl
  | some node => exact same node (List.mem_singleton_self node)

theorem label_ungrouped (node : Node) : node.ungrouped.label = node.label := by
  induction node using tree_induction with
  | step node children =>
      cases node with
      | call withOptions callee argumentCount operands =>
          have inner := labelOf_map_ungrouped fun child member =>
            children child (List.mem_append_left operands member)
          cases withOptions <;> simp only [ungrouped, label, ungroupedOption_eq, inner]
      | member base name =>
          have inner := labelOf_map_ungrouped children
          simp only [ungrouped, label, ungroupedOption_eq, inner]
      | elementaryTypeExpr typeName =>
          simp only [ungrouped, label, ungroupedOption_eq, elementaryLabel_ungrouped]
      | _ => rfl

theorem identifier?_ungrouped (node : Node) : node.ungrouped.identifier? = node.identifier? := by
  cases node <;> rfl

theorem isThis_ungrouped (node : Node) : node.ungrouped.isThis = node.isThis := by
  cases node <;> rfl

end Node

namespace CallSite

variable (site : CallSite)

theorem label_ungrouped : site.ungrouped.label = site.label :=
  Node.labelOf_map_ungrouped fun node _ => node.label_ungrouped

theorem isTypeConversion_ungrouped : site.ungrouped.isTypeConversion = site.isTypeConversion := by
  obtain ⟨withOptions, callee, argumentCount, operands⟩ := site
  cases callee with
  | none => rfl
  | some node => cases node <;> rfl

end CallSite

namespace Node

theorem isConversion_ungrouped (node : Node) : node.ungrouped.isConversion = node.isConversion := by
  rcases node.eq_site_or_plain with ⟨site, rfl⟩ | plain
  · rw [CallSite.node_ungrouped]
    exact site.isTypeConversion_ungrouped
  · rw [isConversion, isConversion, plain, callSite?_ungrouped plain]

theorem builtinWeight?_ungrouped (node : Node) :
    node.ungrouped.builtinWeight? = node.builtinWeight? := by
  cases node with
  | member base name =>
      cases base with
      | none => rfl
      | some base =>
          simp only [ungrouped, ungroupedOption, builtinWeight?, memberWeight?, Option.bind_some,
            Option.any_some, identifier?_ungrouped, isConversion_ungrouped]
  | _ => rfl

end Node

/-! ## Symbols -/

def Definition.ungrouped (definition : Definition) : Definition :=
  { definition with body := definition.body.map Node.ungrouped }

theorem Definition.calls_ungrouped (definition : Definition) :
    definition.ungrouped.calls = definition.calls.map CallSite.ungrouped := by
  rw [calls_eq_flatMap, calls_eq_flatMap, ungrouped]
  cases definition.body <;> simp [Node.calls_ungrouped]

def Declaration.ungrouped : Declaration → Declaration
  | .function definition => .function definition.ungrouped
  | declaration => declaration

namespace Node

/-- A node declares the same, but for the bodies of functions. -/
theorem declared_ungrouped (owner : String) (node : Node) :
    node.ungrouped.declared owner = (node.declared owner).map Declaration.ungrouped := by
  cases node with
  | contract name kind bases members =>
      show contractDeclaration name kind bases = (contractDeclaration name kind bases).map _
      unfold contractDeclaration
      split
      · rfl
      · split <;> rfl
  | function name arity visibility mutability body parts =>
      simp only [ungrouped, declared, ungroupedOption_eq]
      split <;> rfl
  | struct name members | event name members =>
      simp only [ungrouped, declared]
      split <;> rfl
  | _ => rfl

theorem ownerBelow_ungrouped (owner : String) (node : Node) :
    node.ungrouped.ownerBelow owner = node.ownerBelow owner := by
  cases node <;> rfl

/-- A tree without groups has the same declarations in the same order, up to groups in bodies. -/
theorem declarations_ungrouped (owner : String) (node : Node) :
    node.ungrouped.declarations owner =
      (node.declarations owner).map Declaration.ungrouped := by
  induction node using tree_induction generalizing owner with
  | step node children =>
      have groups : ∀ parts, (other groupTag parts).declarations (node.ownerBelow owner) =
          parts.flatMap (declarations (node.ownerBelow owner)) := fun parts =>
        declarations_eq _ _
      rw [declarations_eq, declarations_eq owner node, List.map_append, List.map_flatMap,
        declared_ungrouped, ownerBelow_ungrouped, flatMap_children_ungrouped groups]
      congr 1
      exact List.flatMap_congr fun child member => children child member _

end Node

def FunctionEntry.ungrouped (entry : FunctionEntry) : FunctionEntry :=
  { entry with definition := entry.definition.ungrouped }

def SymbolTable.ungrouped (symbols : SymbolTable) : SymbolTable :=
  { symbols with entries := symbols.entries.map FunctionEntry.ungrouped }

namespace SymbolTable

/-- Groups do not matter to what a declaration adds to the table. -/
theorem declare_ungrouped (symbols : SymbolTable) (declaration : Declaration) :
    symbols.ungrouped.declare declaration.ungrouped = (symbols.declare declaration).ungrouped := by
  cases declaration with
  | function definition =>
      simp [Declaration.ungrouped, declare, addFunction, ungrouped, FunctionEntry.ungrouped, named,
        Definition.ungrouped]
  | _ => rfl

theorem ofTree_ungrouped (root : Node) : ofTree root.ungrouped = (ofTree root).ungrouped := by
  rw [ofTree, ofDeclarations, Node.declarations_ungrouped, List.foldl_map]
  show List.foldl _ (ungrouped {}) _ = ungrouped (List.foldl declare {} _)
  exact List.foldl_hom ungrouped declare_ungrouped

variable (symbols : SymbolTable)

theorem Consistent.ungrouped {symbols : SymbolTable} (consistent : symbols.Consistent) :
    symbols.ungrouped.Consistent where
  numbered := by
    simpa [SymbolTable.ungrouped, Function.comp_def, FunctionEntry.ungrouped] using
      consistent.numbered
  indexed name := by
    have same : ((fun entry : FunctionEntry => decide (entry.definition.name = name)) ∘
        FunctionEntry.ungrouped) = fun entry => decide (entry.definition.name = name) := rfl
    have names := consistent.indexed name
    simp only [SymbolTable.ungrouped, List.filter_map, same, List.map_map]
    exact names

theorem function?_ungrouped (id : FunctionId) :
    symbols.ungrouped.function? id = (symbols.function? id).map Definition.ungrouped := by
  simp [function?, functions, ungrouped, Function.comp_def, FunctionEntry.ungrouped]

theorem length_functions_ungrouped :
    symbols.ungrouped.functions.length = symbols.functions.length := by
  simp [functions, ungrouped]

theorem named_ungrouped (name : String) : symbols.ungrouped.named name = symbols.named name :=
  rfl

theorem isOwnedBy_ungrouped : symbols.ungrouped.isOwnedBy = symbols.isOwnedBy := by
  funext owner id
  rw [isOwnedBy, isOwnedBy, function?_ungrouped, Option.any_map]
  rfl

theorem hasArity_ungrouped : symbols.ungrouped.hasArity = symbols.hasArity := by
  funext count id
  rw [hasArity, hasArity, function?_ungrouped, Option.any_map]
  rfl

end SymbolTable

/-! ## Resolution -/

def SourceUnit.ungrouped (unit : SourceUnit) : SourceUnit where
  symbols := unit.symbols.ungrouped
  closure := unit.closure
  consistent := unit.consistent.ungrouped

namespace SourceUnit

theorem ofTree_ungrouped (root : Node) : ofTree root.ungrouped = (ofTree root).ungrouped := by
  unfold ofTree
  simp only [SymbolTable.ofTree_ungrouped]
  rfl

variable (unit : SourceUnit)

theorem isOwnedWithin_ungrouped : unit.ungrouped.isOwnedWithin = unit.isOwnedWithin := by
  funext scopes id
  show (unit.symbols.ungrouped.function? id).any _ = (unit.symbols.function? id).any _
  rw [SymbolTable.function?_ungrouped, Option.any_map]
  rfl

theorem visible_ungrouped (name scope : String) :
    unit.ungrouped.visible name scope = unit.visible name scope := by
  have named : unit.ungrouped.symbols.named name = unit.symbols.named name :=
    unit.symbols.named_ungrouped name
  simp only [visible, named, isOwnedWithin_ungrouped]
  rfl

theorem ownedBy_ungrouped (name owner : String) :
    unit.ungrouped.ownedBy name owner = unit.ownedBy name owner := by
  show (unit.symbols.ungrouped.named name).filter (unit.symbols.ungrouped.isOwnedBy owner) = _
  rw [SymbolTable.named_ungrouped, SymbolTable.isOwnedBy_ungrouped]
  rfl

theorem ofThis_ungrouped (name scope : String) :
    unit.ungrouped.ofThis name scope = unit.ofThis name scope := by
  have named : unit.ungrouped.symbols.named name = unit.symbols.named name :=
    unit.symbols.named_ungrouped name
  simp only [ofThis, ownedBy_ungrouped, named]

/-- Calls can name the same functions. -/
theorem eligible_ungrouped (callee : Option Node) (scope : String) :
    unit.ungrouped.eligible (callee.map Node.ungrouped) scope = unit.eligible callee scope := by
  cases callee with
  | none => rfl
  | some node =>
      cases node with
      | identifier name => exact unit.visible_ungrouped name scope
      | member base name =>
          cases base with
          | none => rfl
          | some base =>
              have library : unit.ungrouped.symbols.isLibrary = unit.symbols.isLibrary := rfl
              simp only [Option.map_some, Node.ungrouped, Node.ungroupedOption, eligible,
                Node.identifier?_ungrouped, Node.isThis_ungrouped, library, ownedBy_ungrouped,
                ofThis_ungrouped]
      | _ => rfl

/-- Calls lead to the same functions without groups. -/
theorem resolve?_ungrouped (site : CallSite) (scope : String) :
    unit.ungrouped.resolve? site.ungrouped scope = unit.resolve? site scope := by
  have arity : unit.ungrouped.symbols.hasArity = unit.symbols.hasArity :=
    unit.symbols.hasArity_ungrouped
  have owned : unit.ungrouped.symbols.isOwnedBy = unit.symbols.isOwnedBy :=
    unit.symbols.isOwnedBy_ungrouped
  simp only [resolve?_eq_choose?, CallSite.ungrouped, eligible_ungrouped, choose?, fitting, arity,
    owned]

theorem weight_ungrouped (site : CallSite) (isResolved : Bool) :
    unit.ungrouped.weight site.ungrouped isResolved = unit.weight site isResolved := by
  have names : unit.ungrouped.constructsOrEmits site.ungrouped = unit.constructsOrEmits site := by
    simp only [constructsOrEmits, CallSite.ungrouped, Option.bind_map, Function.comp_def,
      Node.identifier?_ungrouped]
    rfl
  have builtin : site.ungrouped.callee.bind Node.builtinWeight? =
      site.callee.bind Node.builtinWeight? := by
    simp only [CallSite.ungrouped, Option.bind_map, Function.comp_def,
      Node.builtinWeight?_ungrouped]
  simp only [weight, CallSite.isTypeConversion_ungrouped, names, builtin]

theorem targets_ungrouped (owner : String) (sites : List CallSite) :
    unit.ungrouped.targets owner (sites.map CallSite.ungrouped) = unit.targets owner sites := by
  simp only [targets, List.filterMap_map, Function.comp_def, resolve?_ungrouped]

theorem callees_ungrouped (id : FunctionId) : unit.ungrouped.callees id = unit.callees id := by
  unfold callees
  rw [show unit.ungrouped.symbols.function? id = _ from unit.symbols.function?_ungrouped id]
  cases unit.symbols.function? id with
  | none => rfl
  | some definition =>
      show unit.ungrouped.targets definition.owner definition.ungrouped.calls = _
      rw [definition.calls_ungrouped, targets_ungrouped]

/-! ## Depths and events -/

variable (depths : FunctionId → Nat)

/-- Groups do not change depths. -/
theorem nodeDepth_ungrouped (owner : String) (node : Node) :
    unit.ungrouped.nodeDepth owner depths node.ungrouped = unit.nodeDepth owner depths node := by
  induction node using Node.children_induction with
  | site site operands callee =>
      rw [CallSite.node_ungrouped, nodeDepth_site, nodeDepth_site, resolve?_ungrouped,
        weight_ungrouped, ← List.map_congr_left operands, ← List.map_congr_left callee]
      simp [CallSite.ungrouped, Option.toList_map, Function.comp_def]
  | plain node plain children =>
      rw [nodeDepth_of_plain plain, nodeDepth_of_plain (Node.callSite?_ungrouped plain),
        Node.largest_children_ungrouped fun parts => nodeDepth_of_plain rfl,
        List.map_congr_left children]

/-- Bodies are as deep as before. -/
theorem bodyDepth_ungrouped (definition : Definition) :
    unit.ungrouped.bodyDepth definition.ungrouped depths = unit.bodyDepth definition depths := by
  rw [bodyDepth_eq_largest, bodyDepth_eq_largest]
  simp [Definition.ungrouped, Option.toList_map, Function.comp_def, nodeDepth_ungrouped]

theorem callEvent_ungrouped (definition : Definition) (site : CallSite) :
    unit.ungrouped.callEvent definition.ungrouped depths site.ungrouped =
      unit.callEvent definition depths site := by
  have parts : unit.ungrouped.callParts definition.owner depths site.ungrouped =
      unit.callParts definition.owner depths site := by
    rw [callParts, callParts, resolve?_ungrouped]
    simp [CallSite.ungrouped, Option.toList_map, Function.comp_def, nodeDepth_ungrouped]
  simp only [callEvent, Definition.ungrouped, resolve?_ungrouped, weight_ungrouped, parts,
    CallSite.label_ungrouped]

end SourceUnit

namespace Analyzer

def ungrouped (analyzer : Analyzer) : Analyzer :=
  { analyzer with unit := analyzer.unit.ungrouped }

variable (analyzer : Analyzer) {memo others : List (FunctionId × Outcome)}

theorem presumed_depth_ungrouped (agree : MemosAgree False memo others) (id : FunctionId) :
    (analyzer.presumed memo id).depth = (analyzer.ungrouped.presumed others id).depth := by
  have known := agree.lookup id
  unfold presumed
  generalize memo.lookup id = found at known ⊢
  generalize others.lookup id = other at known ⊢
  cases known with
  | none => rfl
  | some agrees => exact agrees.depth

theorem conclude_depth_ungrouped (agree : MemosAgree False memo others) (id : FunctionId) :
    (analyzer.conclude memo id).outcome.depth =
      (analyzer.ungrouped.conclude others id).outcome.depth := by
  have without : analyzer.ungrouped.unit.symbols.function? id =
      (analyzer.unit.symbols.function? id).map Definition.ungrouped :=
    analyzer.unit.symbols.function?_ungrouped id
  cases found : analyzer.unit.symbols.function? id with
  | none =>
      rw [found] at without
      simp only [conclude, found, without, Option.map_none]
  | some definition =>
      rw [found] at without
      rw [conclude_depth found, conclude_depth without,
        funext (analyzer.presumed_depth_ungrouped agree)]
      exact (analyzer.unit.bodyDepth_ungrouped _ definition).symm

/-- The analyzers with and without groups run in step; only their traces may differ. -/
theorem inStep_ungrouped : analyzer.InStep False analyzer.ungrouped where
  length := analyzer.unit.symbols.length_functions_ungrouped.symm
  callees := fun id => (analyzer.unit.callees_ungrouped id).symm
  conclude := fun agree id => ⟨analyzer.conclude_depth_ungrouped agree id, False.elim⟩

theorem narrationOf_ungrouped (agree : MemosAgree False memo others) (id : FunctionId) :
    analyzer.ungrouped.narrationOf others id = analyzer.narrationOf memo id := by
  have without : analyzer.ungrouped.unit.symbols.function? id =
      (analyzer.unit.symbols.function? id).map Definition.ungrouped :=
    analyzer.unit.symbols.function?_ungrouped id
  unfold narrationOf
  rw [without]
  cases analyzer.unit.symbols.function? id with
  | none => rfl
  | some definition =>
      rw [funext (analyzer.presumed_depth_ungrouped agree)]
      simp only [Option.map_some, narrate, definition.calls_ungrouped, List.map_map]
      have events : analyzer.ungrouped.unit.callEvent definition.ungrouped (fun callee =>
            (analyzer.ungrouped.presumed others callee).depth) ∘ CallSite.ungrouped =
          analyzer.unit.callEvent definition fun callee =>
            (analyzer.ungrouped.presumed others callee).depth :=
        funext (analyzer.unit.callEvent_ungrouped _ definition)
      rw [events]
      rfl

/-- Narrations stay the same. -/
theorem narration_ungrouped (agree : MemosAgree False memo others) :
    analyzer.ungrouped.narration others = analyzer.narration memo := by
  induction agree with
  | nil => rfl
  | @cons entry other earlier otherEarlier head tail ih =>
      obtain ⟨id, outcome⟩ := entry
      obtain ⟨otherId, otherOutcome⟩ := other
      obtain rfl : id = otherId := head.1
      rw [narration, narration, ih, analyzer.narrationOf_ungrouped tail]

/-- The log after measurements does not depend on groups. -/
theorem log_after_ungrouped (ids : List FunctionId) :
    (analyzer.ungrouped.after ids).log = (analyzer.after ids).log := by
  rw [(analyzer.ungrouped.after_settled ids).history.log_eq_narration,
    (analyzer.after_settled ids).history.log_eq_narration]
  exact analyzer.narration_ungrouped (analyzer.inStep_ungrouped.after_agrees ids).memo

end Analyzer

/-! ## The analysis of a tree -/

def FunctionDepth.withoutTrace (measured : FunctionDepth) : FunctionDepth :=
  { measured with trace := .empty }

def Analysis.withoutTraces (analysis : Analysis) : Analysis :=
  { analysis with rows := analysis.rows.map FunctionDepth.withoutTrace }

theorem Definition.measured_ungrouped (definition : Definition) {outcome other : Outcome}
    (same : outcome.depth = other.depth) :
    (definition.ungrouped.measured other).withoutTrace =
      (definition.measured outcome).withoutTrace := by
  rw [FunctionDepth.withoutTrace, FunctionDepth.withoutTrace, measured, measured, same]
  rfl

/-- An analysis has the same rows, their traces apart. -/
theorem Analyzer.measureAll_ungrouped (analyzer : Analyzer) :
    analyzer.ungrouped.measureAll.1.map FunctionDepth.withoutTrace =
      analyzer.measureAll.1.map FunctionDepth.withoutTrace := by
  refine List.ext_getElem? fun id => ?_
  have without : analyzer.ungrouped.unit.symbols.function? id =
      (analyzer.unit.symbols.function? id).map Definition.ungrouped :=
    analyzer.unit.symbols.function?_ungrouped id
  have depths := (analyzer.inStep_ungrouped.row_agrees id).depth
  rw [List.getElem?_map, List.getElem?_map, measureAll_row, measureAll_row, without]
  cases analyzer.unit.symbols.function? id with
  | none => simp only [Option.map_none]
  | some definition => simp only [Option.map_some, definition.measured_ungrouped depths]

/-- Without groups, a tree has the same analysis, up to traces. -/
theorem analyze_ungrouped (options : Options) (root : Node) :
    (analyze options root.ungrouped).withoutTraces = (analyze options root).withoutTraces := by
  let analyzer : Analyzer := ⟨.ofTree root, options⟩
  have count : analyzer.ungrouped.unit.symbols.collectedEvent =
      analyzer.unit.symbols.collectedEvent :=
    congrArg (Event.collected · _ _) analyzer.unit.symbols.length_functions_ungrouped
  have log : analyzer.ungrouped.measureAll.2.log = analyzer.measureAll.2.log := by
    rw [Analyzer.measureAll_engine, Analyzer.measureAll_engine, ← analyzer.inStep_ungrouped.length]
    exact analyzer.log_after_ungrouped _
  have whole : analyze options root =
      ⟨analyzer.measureAll.1, analyzer.unit.symbols.collectedEvent ::
        analyzer.measureAll.2.log.map .call⟩ := rfl
  have without : analyze options root.ungrouped =
      ⟨analyzer.ungrouped.measureAll.1, analyzer.ungrouped.unit.symbols.collectedEvent ::
        analyzer.ungrouped.measureAll.2.log.map .call⟩ := by
    unfold analyze
    rw [SourceUnit.ofTree_ungrouped root]
    rfl
  rw [whole, without]
  simp only [Analysis.withoutTraces, analyzer.measureAll_ungrouped, count, log]

end CallDepth
