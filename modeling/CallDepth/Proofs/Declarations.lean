/-
# What trees declare

`Node.declarations_eq` is the one equation of the declarations of a tree: what the node itself
declares, then what its children declare inside the owner that the node gives them.

* `owner_declared`: the owner of a function is the owner of the tree or a scope that the tree
  declares.
* `SymbolTable.mem_scopes_iff` and `SymbolTable.bases_ofDeclarations` read the symbol table: the
  scopes are the declared contracts and libraries, and the bases of a contract are those of its last
  declaration.
* `nodesOf_holds` is induction over the trees of JSON values. By it, no base of a contract in such
  a tree has the empty name (`namesBases_ofJson`).
-/
import CallDepth.Node.OfJson
import CallDepth.Proofs.Calls
import CallDepth.Proofs.Inheritance

namespace CallDepth

open Relation

namespace Declaration

def definition? : Declaration → Option Definition
  | function definition => some definition
  | _ => none

def contract? : Declaration → Option (String × List String)
  | contract name bases => some (name, bases)
  | _ => none

def library? : Declaration → Option String
  | library name => some name
  | _ => none

def struct? : Declaration → Option String
  | struct name => some name
  | _ => none

def event? : Declaration → Option String
  | event name => some name
  | _ => none

/-- The scope that is declared: a contract or a library. -/
def scope? : Declaration → Option String
  | contract name _ => some name
  | library name => some name
  | _ => none

def bases : Declaration → List String
  | contract _ bases => bases
  | _ => []

end Declaration

namespace Node

/-- Induction over a tree, with the hypothesis for every child. -/
@[elab_as_elim]
theorem tree_induction {motive : Node → Prop} (node : Node)
    (step : ∀ node : Node, (∀ child ∈ node.children, motive child) → motive node) :
    motive node := by
  refine children_induction node (fun site operands callee => ?_) (fun node _ => step node)
  refine step site.node fun child member => ?_
  rcases List.mem_append.1 member with inside | inside
  · exact callee child inside
  · exact operands child inside

/-- What a node declares itself. -/
def declared (owner : String) : Node → List Declaration
  | contract name kind bases _ => contractDeclaration name kind bases
  | function name arity visibility mutability body _ =>
      if name = "" then [] else [.function { name, owner, arity, visibility, mutability, body }]
  | struct name _ => if name = "" then [] else [.struct name]
  | event name _ => if name = "" then [] else [.event name]
  | _ => []

/-- The owner of what the children of a node declare. -/
def ownerBelow (owner : String) : Node → String
  | contract name _ _ _ => ownerWithin name owner
  | _ => owner

theorem declarationsOfAll_eq (owner : String) (nodes : List Node) :
    declarationsOfAll owner nodes = nodes.flatMap (declarations owner) := by
  induction nodes with
  | nil => rfl
  | cons node rest ih => rw [declarationsOfAll, ih, List.flatMap_cons]

theorem declarationsOf_eq (owner : String) (node? : Option Node) :
    declarationsOf owner node? = node?.toList.flatMap (declarations owner) := by
  cases node? <;> simp [declarationsOf]

/-- A tree declares what its root declares, then what the children of the root declare. -/
theorem declarations_eq (owner : String) (node : Node) :
    node.declarations owner =
      node.declared owner ++ node.children.flatMap (declarations (node.ownerBelow owner)) := by
  cases node <;>
    simp [declarations, declared, ownerBelow, children, declarationsOfAll_eq, declarationsOf_eq]

/-- A tree declares what its root declares and what its children declare below the root. -/
theorem mem_declarations_iff {owner : String} {node : Node} {declaration : Declaration} :
    declaration ∈ node.declarations owner ↔
      declaration ∈ node.declared owner ∨
        ∃ child ∈ node.children, declaration ∈ child.declarations (node.ownerBelow owner) := by
  rw [declarations_eq, List.mem_append, List.mem_flatMap]

/-- The children of a node belong to the owner of the node or to a scope that the node declares. -/
theorem ownerBelow_declared (owner : String) (node : Node) :
    node.ownerBelow owner = owner ∨
      ∃ declaration ∈ node.declared owner, declaration.scope? = some (node.ownerBelow owner) := by
  cases node with
  | contract name kind bases members =>
      by_cases unnamed : name = ""
      · exact .inl (if_pos unnamed)
      · refine .inr ?_
        by_cases library : kind = libraryKind <;>
          simp [declared, contractDeclaration, ownerBelow, ownerWithin, unnamed, library,
            Declaration.scope?]
  | _ => exact .inl rfl

theorem owner_of_declared {owner : String} {node : Node} {definition : Definition}
    (member : .function definition ∈ node.declared owner) : definition.owner = owner := by
  cases node with
  | contract name kind bases members =>
      unfold declared contractDeclaration at member
      grind
  | function name arity visibility mutability body parts =>
      unfold declared at member
      grind
  | _ => simp [declared] at member

/-- The owner of a function is the owner of the tree, or a scope that the tree declares. -/
theorem owner_declared {owner : String} {node : Node} {definition : Definition}
    (member : .function definition ∈ node.declarations owner) :
    definition.owner = owner ∨
      ∃ declaration ∈ node.declarations owner, declaration.scope? = some definition.owner := by
  induction node using tree_induction generalizing owner with
  | step node children =>
      rcases mem_declarations_iff.1 member with own | ⟨child, inside, below⟩
      · exact .inl (owner_of_declared own)
      · rcases children child inside below with same | ⟨declaration, listed, scope⟩
        · rw [same]
          refine (ownerBelow_declared owner node).imp_right ?_
          rintro ⟨declaration, listed, scope⟩
          exact ⟨declaration, mem_declarations_iff.2 (.inl listed), scope⟩
        · exact .inr ⟨declaration, mem_declarations_iff.2 (.inr ⟨child, inside, listed⟩), scope⟩

end Node

/-! ## The symbol table -/

/-- The bases of a contract under its last declaration. -/
def lastBases (declarations : List Declaration) (scope : String) : List String :=
  ((declarations.filterMap Declaration.contract?).reverse.lookup scope).getD []

theorem declared_of_mem_lastBases {declarations : List Declaration} {scope base : String}
    (member : base ∈ lastBases declarations scope) :
    ∃ declaration ∈ declarations, base ∈ declaration.bases := by
  unfold lastBases at member
  cases last : (declarations.filterMap Declaration.contract?).reverse.lookup scope with
  | none => simp [last] at member
  | some bases =>
      obtain ⟨before, after, same, -⟩ := List.lookup_eq_some_iff.1 last
      have listed : (scope, bases) ∈ declarations.filterMap Declaration.contract? := by
        rw [← List.mem_reverse, same]
        simp
      obtain ⟨declaration, declared, found⟩ := List.mem_filterMap.1 listed
      refine ⟨declaration, declared, ?_⟩
      cases declaration <;> simp_all [Declaration.contract?, Declaration.bases]

/-- The second name is the first, or a base of it, direct or not, where each contract has the bases
of its last declaration. -/
def InheritsIn (declarations : List Declaration) : String → String → Prop :=
  ReflTransGen fun scope base => base ∈ lastBases declarations scope

namespace SymbolTable

variable (declarations : List Declaration)

/-- A part of the table that grows with one kind of declaration is grown by those of that kind. -/
theorem foldl_declare_view {β γ : Type} (part : SymbolTable → γ) (view : Declaration → Option β)
    (grow : γ → β → γ)
    (own : ∀ symbols declaration, part (symbols.declare declaration) =
      ((view declaration).map (grow (part symbols))).getD (part symbols)) (symbols : SymbolTable) :
    part (declarations.foldl declare symbols) =
      (declarations.filterMap view).foldl grow (part symbols) := by
  induction declarations generalizing symbols with
  | nil => rfl
  | cons declaration rest ih =>
      rw [List.foldl_cons, ih, own, List.filterMap_cons]
      cases view declaration <;> rfl

/-- The functions of a table are the declared ones, in order. -/
theorem functions_ofDeclarations :
    (ofDeclarations declarations).functions = declarations.filterMap Declaration.definition? := by
  have listed := foldl_declare_view declarations functions Declaration.definition?
    (fun definitions definition => definitions ++ [definition])
    (fun symbols declaration => by
      cases declaration <;> simp [declare, addFunction, functions, Declaration.definition?]) {}
  rw [ofDeclarations, listed, List.foldl_append_eq_append, ← List.flatMap_def,
    List.flatMap_singleton']
  rfl

/-- The scopes of a table are the declared contracts. -/
theorem graph_ofDeclarations :
    (ofDeclarations declarations).graph =
      ScopeGraph.ofContracts (declarations.filterMap Declaration.contract?) :=
  foldl_declare_view declarations graph Declaration.contract?
    (fun graph contract => graph.add contract.1 contract.2)
    (fun _ declaration => by cases declaration <;> rfl) {}

/-- Names that are inserted one after another are kept once, where they came first. -/
theorem foldl_insertName (names : List String) : names.foldl insertName [] = names.eraseDups := by
  induction names using List.reverseRecOn with
  | nil => rfl
  | append_singleton names name ih =>
      rw [List.foldl_append, ih, List.eraseDups_append, List.foldl_cons, List.foldl_nil, insertName]
      by_cases known : name ∈ names <;> simp [known, List.removeAll, List.eraseDups_cons]

theorem libraries_ofDeclarations :
    (ofDeclarations declarations).libraries =
      (declarations.filterMap Declaration.library?).eraseDups := by
  rw [← foldl_insertName]
  exact foldl_declare_view declarations libraries Declaration.library? insertName
    (fun _ declaration => by cases declaration <;> rfl) {}

theorem structs_ofDeclarations :
    (ofDeclarations declarations).structs =
      (declarations.filterMap Declaration.struct?).eraseDups := by
  rw [← foldl_insertName]
  exact foldl_declare_view declarations structs Declaration.struct? insertName
    (fun _ declaration => by cases declaration <;> rfl) {}

theorem events_ofDeclarations :
    (ofDeclarations declarations).events =
      (declarations.filterMap Declaration.event?).eraseDups := by
  rw [← foldl_insertName]
  exact foldl_declare_view declarations events Declaration.event? insertName
    (fun _ declaration => by cases declaration <;> rfl) {}

theorem mem_functions_iff {definition : Definition} :
    definition ∈ (ofDeclarations declarations).functions ↔
      .function definition ∈ declarations := by
  rw [functions_ofDeclarations, List.mem_filterMap]
  constructor
  · rintro ⟨declaration, member, found⟩
    cases declaration <;> simp_all [Declaration.definition?]
  · intro member
    exact ⟨_, member, rfl⟩

theorem mem_libraries_iff {name : String} :
    name ∈ (ofDeclarations declarations).libraries ↔ .library name ∈ declarations := by
  rw [libraries_ofDeclarations, List.mem_eraseDups, List.mem_filterMap]
  constructor
  · rintro ⟨declaration, member, found⟩
    cases declaration <;> simp_all [Declaration.library?]
  · intro member
    exact ⟨_, member, rfl⟩

/-- The graph has the bases of the last declaration of each contract. -/
theorem bases_ofDeclarations (scope : String) :
    (ofDeclarations declarations).graph.bases scope = lastBases declarations scope := by
  rw [graph_ofDeclarations, ScopeGraph.bases_ofContracts, lastBases]

/-- The table knows the bases of each contract under its last declaration. -/
theorem inherits_ofDeclarations :
    (ofDeclarations declarations).graph.Inherits = InheritsIn declarations := by
  unfold ScopeGraph.Inherits InheritsIn ScopeGraph.HasBase
  simp only [bases_ofDeclarations]

/-- The scopes are the declared contracts and libraries. -/
theorem mem_scopes_iff {name : String} :
    name ∈ (ofDeclarations declarations).scopes ↔
      ∃ declaration ∈ declarations, declaration.scope? = some name := by
  rw [scopes, List.mem_append, mem_libraries_iff, graph_ofDeclarations,
    ScopeGraph.mem_scopes_ofContracts]
  simp only [List.mem_filterMap]
  constructor
  · rintro (⟨bases, declaration, member, found⟩ | library)
    · cases declaration <;> simp_all [Declaration.contract?]
      exact ⟨_, member, rfl⟩
    · exact ⟨_, library, rfl⟩
  · rintro ⟨declaration, member, found⟩
    cases declaration <;> simp_all [Declaration.scope?]
    · exact .inl ⟨_, _, member, rfl⟩

end SymbolTable

/-! ## Trees of JSON values -/

namespace Node

section Assemble

variable {members : List (String × Json)} {found : List (String × List Node)} {node : Node}

/-- A node stands in a member. -/
def FoundIn (found : List (String × List Node)) (node : Node) : Prop :=
  ∃ entry ∈ found, node ∈ entry.2

theorem foundIn_of_mem_nodesExcept {skip : List String} (member : node ∈ nodesExcept skip found) :
    FoundIn found node := by
  obtain ⟨entry, listed, inside⟩ := List.mem_flatMap.1 member
  exact ⟨entry, List.mem_of_mem_filter listed, inside⟩

theorem foundIn_of_mem_lookup {key : String} (member : node ∈ (found.lookup key).getD []) :
    FoundIn found node := by
  cases listed : found.lookup key with
  | none => simp [listed] at member
  | some nodes =>
      obtain ⟨before, after, same, -⟩ := List.lookup_eq_some_iff.1 listed
      refine ⟨(key, nodes), ?_, by simpa [listed] using member⟩
      simp [same]

/-- A child of the node of an object stands in a member, or is the node of a list whose items do. -/
def ComesFrom (found : List (String × List Node)) (child : Node) : Prop :=
  FoundIn found child ∨ ∃ nodes, child = .other "" nodes ∧ ∀ node ∈ nodes, FoundIn found node

theorem comesFrom_of_nodeField? {key : String} (field : nodeField? members found key = some node) :
    ComesFrom found node := by
  unfold nodeField? at field
  split at field
  · exact .inl (foundIn_of_mem_lookup (List.mem_of_head? field))
  · obtain rfl := Option.some.inj field
    exact .inr ⟨_, rfl, fun _ inside => foundIn_of_mem_lookup inside⟩
  · cases field

/-- Every child of an object's node comes from one of its members. -/
theorem comesFrom_of_child (member : node ∈ (assemble members found).children) :
    ComesFrom found node := by
  have plain : ∀ {skip : List String}, node ∈ nodesExcept skip found → ComesFrom found node :=
    fun inside => .inl (foundIn_of_mem_nodesExcept inside)
  have field : ∀ {key : String}, node ∈ (nodeField? members found key).toList →
      ComesFrom found node :=
    fun inside => comesFrom_of_nodeField? (Option.mem_toList.1 inside)
  unfold assemble at member
  cases kind : NodeKind.ofTag (textField members "type") <;>
    simp only [kind, children, List.mem_append, List.not_mem_nil] at member
  case function | call | callOptions => exact member.elim field plain
  case member | elementaryTypeExpr => exact field member
  all_goals exact plain member

end Assemble

/-- A property that the node of an object has whenever all nodes in its members have it. -/
def KeptByObjects (motive : Node → Prop) : Prop :=
  ∀ members found, (∀ node, FoundIn found node → motive node) → motive (assemble members found)

mutual

/-- A property that objects keep holds of all nodes of a JSON value. -/
theorem nodesOf_holds {motive : Node → Prop} (kept : KeptByObjects motive) :
    ∀ (value : Json), ∀ node ∈ nodesOf value, motive node
  | .object members => by
      intro node listed
      obtain rfl := List.mem_singleton.1 listed
      exact kept members _ (nodesOfMembers_holds kept members)
  | .list items => nodesOfItems_holds kept items
  | .null | .bool _ | .number _ | .text _ | .unreadable => fun _ listed => nomatch listed

theorem nodesOfItems_holds {motive : Node → Prop} (kept : KeptByObjects motive) :
    ∀ (items : List Json), ∀ node ∈ nodesOfItems items, motive node
  | [] => fun _ listed => nomatch listed
  | item :: rest => by
      intro node listed
      rcases List.mem_append.1 listed with first | later
      · exact nodesOf_holds kept item node first
      · exact nodesOfItems_holds kept rest node later

theorem nodesOfMembers_holds {motive : Node → Prop} (kept : KeptByObjects motive) :
    ∀ (members : List (String × Json)),
      ∀ node, FoundIn (nodesOfMembers members) node → motive node
  | [] => fun _ ⟨_, listed, _⟩ => nomatch listed
  | (key, value) :: rest => by
      rintro node ⟨entry, listed, inside⟩
      rcases List.mem_cons.1 listed with rfl | later
      · exact nodesOf_holds kept value node inside
      · exact nodesOfMembers_holds kept rest node ⟨entry, later, inside⟩

end

/-- All bases that a tree declares have names. -/
def NamesBases (node : Node) : Prop :=
  ∀ owner, ∀ declaration ∈ node.declarations owner, "" ∉ declaration.bases

theorem namesBases_of_children {node : Node}
    (own : ∀ owner, ∀ declaration ∈ node.declared owner, "" ∉ declaration.bases)
    (children : ∀ child ∈ node.children, child.NamesBases) : node.NamesBases := by
  intro owner declaration member
  rcases mem_declarations_iff.1 member with listed | ⟨child, inside, below⟩
  · exact own owner declaration listed
  · exact children child inside _ declaration below

theorem namesBases_other {tag : String} {nodes : List Node}
    (each : ∀ node ∈ nodes, node.NamesBases) : (other tag nodes).NamesBases :=
  namesBases_of_children (fun _ _ member => nomatch member) each

theorem nameField?_ne_empty {members : List (String × Json)} {key name : String}
    (field : nameField? members key = some name) : name ≠ "" := by
  simpa using (Option.filter_eq_some_iff.1 field).2

theorem baseName?_ne_empty {spec : Json} {name : String} (base : baseName? spec = some name) :
    name ≠ "" := by
  cases spec with
  | object members =>
      simp only [baseName?, Option.or_eq_some_iff] at base
      rcases base with inner | ⟨-, field | ⟨-, field⟩⟩
      · split at inner
        · rcases Option.or_eq_some_iff.1 inner with field | ⟨-, field⟩ <;>
            exact nameField?_ne_empty field
        · cases inner
      · exact nameField?_ne_empty field
      · exact nameField?_ne_empty field
  | _ => cases base

/-- Base specifiers without a name are left out. -/
theorem empty_not_mem_baseNames (members : List (String × Json)) : "" ∉ baseNames members := by
  intro listed
  unfold baseNames at listed
  split at listed
  · rw [List.mem_eraseDups, List.mem_filterMap] at listed
    obtain ⟨spec, -, base⟩ := listed
    exact baseName?_ne_empty base rfl
  · cases listed

theorem declared_assemble_bases {members : List (String × Json)} {found : List (String × List Node)}
    {owner : String} {declaration : Declaration}
    (listed : declaration ∈ (assemble members found).declared owner) :
    "" ∉ declaration.bases := by
  have contract : ∀ {name kind : String},
      declaration ∈ contractDeclaration name kind (baseNames members) → "" ∉ declaration.bases := by
    intro name kind inside
    unfold contractDeclaration at inside
    split at inside
    · cases inside
    · split at inside <;> obtain rfl := List.mem_singleton.1 inside
      · simp [Declaration.bases]
      · exact empty_not_mem_baseNames members
  unfold assemble at listed
  cases kind : NodeKind.ofTag (textField members "type") <;>
    simp only [kind, declared, List.not_mem_nil] at listed
  case contract | library => exact contract listed
  all_goals
    split at listed
    · cases listed
    · obtain rfl := List.mem_singleton.1 listed
      simp [Declaration.bases]

/-- The trees of JSON values declare bases with names only. -/
theorem namesBases_ofJson (value : Json) : (ofJson value).NamesBases := by
  have kept : KeptByObjects NamesBases := by
    intro members found each
    refine namesBases_of_children (fun _ _ => declared_assemble_bases) fun child member => ?_
    rcases comesFrom_of_child member with direct | ⟨nodes, rfl, inside⟩
    · exact each child direct
    · exact namesBases_other fun node listed => each node (inside node listed)
  cases value with
  | object members => exact kept members _ (nodesOfMembers_holds kept members)
  | list items => exact namesBases_other (nodesOfItems_holds kept items)
  | _ => exact namesBases_other fun _ member => nomatch member

end Node

end CallDepth
