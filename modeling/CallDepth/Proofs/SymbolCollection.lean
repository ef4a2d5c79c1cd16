/-
# Symbol collection is complete and exact

`Node.preorder` lists the nodes of a tree, each before its children, and `Node.visits` the same
nodes together with those around them. The symbol table of a tree is described by these lists alone:
what a node contributes is a view of the node (`namedFunction?`, `namedContract?` and the like), and
a function belongs to the nearest contract or library around it that has a name (`nearestScope`).

`filterMap_declarations` is the one passage from the declarations of a tree to its nodes, for every
kind of declaration.
-/
import CallDepth.Proofs.NameLookup

namespace CallDepth

namespace Node

/-! ## The nodes of a tree -/

/-- The nodes of a tree, each before its children. -/
def preorder (node : Node) : List Node :=
  node :: node.children.attach.flatMap fun child => child.1.preorder
termination_by sizeOf node
decreasing_by exact sizeOf_child_lt child.2

/-- The nodes of a tree, each before its children, with the nodes around them, nearest first. -/
def visits (around : List Node) (node : Node) : List (List Node × Node) :=
  (around, node) :: node.children.attach.flatMap fun child => child.1.visits (node :: around)
termination_by sizeOf node
decreasing_by exact sizeOf_child_lt child.2

theorem preorder_eq (node : Node) :
    node.preorder = node :: node.children.flatMap preorder := by
  rw [preorder]
  simp

theorem visits_eq (around : List Node) (node : Node) :
    node.visits around = (around, node) :: node.children.flatMap (visits (node :: around)) := by
  rw [visits]
  simp

/-- The nodes visited are those of the tree, in the same order. -/
theorem map_snd_visits (around : List Node) (node : Node) :
    (node.visits around).map Prod.snd = node.preorder := by
  induction node using tree_induction generalizing around with
  | step node children =>
      rw [visits_eq, preorder_eq, List.map_cons, List.map_flatMap]
      congr 1
      exact List.flatMap_congr fun child member => children child member _

/-! ## What a node contributes -/

/-- The name of a contract or library that has one. -/
def scopeName? : Node → Option String
  | contract name _ _ _ => if name = "" then none else some name
  | _ => none

/-- The nearest contract or library with a name; empty when there is none. -/
def nearestScope (around : List Node) : String :=
  (around.findSome? scopeName?).getD ""

/-- The definition of a function with a name. -/
def namedFunction? (owner : String) : Node → Option Definition
  | function name arity visibility mutability body _ =>
      if name = "" then none else some { name, owner, arity, visibility, mutability, body }
  | _ => none

/-- The name and the bases of a contract that is no library and has a name. -/
def namedContract? : Node → Option (String × List String)
  | contract name kind bases _ =>
      if name = "" || kind = libraryKind then none else some (name, bases)
  | _ => none

def namedLibrary? : Node → Option String
  | contract name kind _ _ => if name = "" || kind ≠ libraryKind then none else some name
  | _ => none

def namedStruct? : Node → Option String
  | struct name _ => if name = "" then none else some name
  | _ => none

def namedEvent? : Node → Option String
  | event name _ => if name = "" then none else some name
  | _ => none

/-- Going down one node, the owner is the one that the node gives its children. -/
theorem nearestScope_cons (node : Node) (around : List Node) :
    nearestScope (node :: around) = node.ownerBelow (nearestScope around) := by
  cases node with
  | contract name kind bases members =>
      by_cases unnamed : name = "" <;>
        simp [nearestScope, scopeName?, ownerBelow, ownerWithin, unnamed]
  | _ => rfl

/-- A tree declares what its nodes declare, in pre-order, each inside the nearest scope. -/
theorem declarations_eq_flatMap_visits (around : List Node) (node : Node) :
    node.declarations (nearestScope around) =
      (node.visits around).flatMap fun visit => visit.2.declared (nearestScope visit.1) := by
  induction node using tree_induction generalizing around with
  | step node children =>
      rw [declarations_eq, visits_eq, List.flatMap_cons, List.flatMap_assoc, ← nearestScope_cons]
      congr 1
      exact List.flatMap_congr fun child member => children child member _

/-- The declarations of one kind are those of the nodes of one kind. -/
theorem filterMap_declarations {β : Type} (view : Declaration → Option β)
    (part : String → Node → Option β)
    (own : ∀ owner node, (declared owner node).filterMap view = (part owner node).toList)
    (root : Node) :
    (root.declarations "").filterMap view =
      (root.visits []).filterMap fun visit => part (nearestScope visit.1) visit.2 := by
  have nodes := declarations_eq_flatMap_visits [] root
  rw [show nearestScope [] = "" from rfl] at nodes
  rw [nodes, List.filterMap_flatMap, List.filterMap_eq_flatMap_toList]
  simp only [own]

/-- Where the owner does not matter, the pre-order suffices. -/
theorem filterMap_declarations_preorder {β : Type} (view : Declaration → Option β)
    (part : Node → Option β)
    (own : ∀ owner node, (declared owner node).filterMap view = (part node).toList) (root : Node) :
    (root.declarations "").filterMap view = root.preorder.filterMap part := by
  rw [filterMap_declarations view (fun _ => part) own, ← map_snd_visits [] root,
    List.filterMap_map]
  rfl

/-- What a node declares, by kind. -/
theorem views_declared (owner : String) (node : Node) :
    (node.declared owner).filterMap Declaration.definition? =
        (node.namedFunction? owner).toList ∧
      (node.declared owner).filterMap Declaration.contract? = node.namedContract?.toList ∧
      (node.declared owner).filterMap Declaration.library? = node.namedLibrary?.toList ∧
      (node.declared owner).filterMap Declaration.struct? = node.namedStruct?.toList ∧
      (node.declared owner).filterMap Declaration.event? = node.namedEvent?.toList := by
  cases node with
  | contract name kind bases members =>
      by_cases unnamed : name = ""
      · simp [declared, contractDeclaration, namedFunction?, namedContract?, namedLibrary?,
          namedStruct?, namedEvent?, unnamed]
      · by_cases library : kind = libraryKind
        · rw [declared, contractDeclaration, if_neg unnamed, if_pos library]
          simp [namedFunction?, namedContract?, namedLibrary?, namedStruct?, namedEvent?, unnamed,
            library, Declaration.definition?, Declaration.contract?, Declaration.library?,
            Declaration.struct?, Declaration.event?]
        · rw [declared, contractDeclaration, if_neg unnamed, if_neg library]
          simp [namedFunction?, namedContract?, namedLibrary?, namedStruct?, namedEvent?, unnamed,
            library, Declaration.definition?, Declaration.contract?, Declaration.library?,
            Declaration.struct?, Declaration.event?]
  | function name _ _ _ _ _ | struct name _ | event name _ =>
      by_cases unnamed : name = ""
      · simp [declared, namedFunction?, namedContract?, namedLibrary?, namedStruct?, namedEvent?,
          unnamed]
      · rw [declared, if_neg unnamed]
        simp [namedFunction?, namedContract?, namedLibrary?, namedStruct?, namedEvent?, unnamed,
          Declaration.definition?, Declaration.contract?, Declaration.library?,
          Declaration.struct?, Declaration.event?]
  | _ => exact ⟨rfl, rfl, rfl, rfl, rfl⟩

end Node

/-! ## The table of a tree -/

theorem nodup_eraseDups (names : List String) : names.eraseDups.Nodup := by
  induction size : names.length using Nat.strongRecOn generalizing names with
  | ind _ ih =>
      cases names with
      | nil => exact List.nodup_nil
      | cons first rest =>
          have fewer := List.length_filter_le (fun name => !(name == first)) rest
          rw [List.length_cons] at size
          rw [List.eraseDups_cons]
          refine List.nodup_cons.2 ⟨?_, ih _ (by omega) _ rfl⟩
          simp [List.mem_eraseDups]

namespace SymbolTable

variable (root : Node)

/-- The functions of a tree in pre-order, each with the nearest scope around it. -/
theorem functions_ofTree :
    (ofTree root).functions = (root.visits []).filterMap fun visit =>
      visit.2.namedFunction? (Node.nearestScope visit.1) := by
  rw [ofTree, functions_ofDeclarations]
  exact Node.filterMap_declarations _ _ (fun owner node => (node.views_declared owner).1) root

theorem graph_ofTree :
    (ofTree root).graph = ScopeGraph.ofContracts (root.preorder.filterMap Node.namedContract?) := by
  rw [ofTree, graph_ofDeclarations]
  exact congrArg ScopeGraph.ofContracts <| Node.filterMap_declarations_preorder _ _
    (fun owner node => (node.views_declared owner).2.1) root

theorem libraries_ofTree :
    (ofTree root).libraries = (root.preorder.filterMap Node.namedLibrary?).eraseDups := by
  rw [ofTree, libraries_ofDeclarations]
  exact congrArg List.eraseDups <| Node.filterMap_declarations_preorder _ _
    (fun owner node => (node.views_declared owner).2.2.1) root

theorem structs_ofTree :
    (ofTree root).structs = (root.preorder.filterMap Node.namedStruct?).eraseDups := by
  rw [ofTree, structs_ofDeclarations]
  exact congrArg List.eraseDups <| Node.filterMap_declarations_preorder _ _
    (fun owner node => (node.views_declared owner).2.2.2.1) root

theorem events_ofTree :
    (ofTree root).events = (root.preorder.filterMap Node.namedEvent?).eraseDups := by
  rw [ofTree, events_ofDeclarations]
  exact congrArg List.eraseDups <| Node.filterMap_declarations_preorder _ _
    (fun owner node => (node.views_declared owner).2.2.2.2) root

end SymbolTable

/-- Symbol collection is complete and exact. The functions of a tree are its function nodes with a
name, in pre-order, each owned by the nearest contract or library around it that has a name and each
with its place as its id. The index lists the ids of a name in ascending order, and these are the
ids of the functions of that name. The libraries, structs and events are the names of such nodes
anywhere in the tree, each once. The graph has one entry for each name of a contract that is no
library, with the bases of the last such contract in pre-order. Every owner of a function is among
the scopes, unless it is empty. -/
theorem collection_exact (root : Node) :
    let symbols := SymbolTable.ofTree root
    (symbols.functions = (root.visits []).filterMap fun visit =>
      visit.2.namedFunction? (Node.nearestScope visit.1)) ∧
    (root.visits []).map Prod.snd = root.preorder ∧
    (∀ (place : Nat) (entry : FunctionEntry), symbols.entries[place]? = some entry →
      entry.id = place ∧ symbols.functions[place]? = some entry.definition) ∧
    (∀ name, (symbols.named name).Pairwise (· < ·) ∧
      ∀ id, id ∈ symbols.named name ↔
        ∃ definition, symbols.functions[id]? = some definition ∧ definition.name = name) ∧
    (symbols.libraries.Nodup ∧ ∀ name, name ∈ symbols.libraries ↔
      ∃ node ∈ root.preorder, node.namedLibrary? = some name) ∧
    (symbols.structs.Nodup ∧ ∀ name, name ∈ symbols.structs ↔
      ∃ node ∈ root.preorder, node.namedStruct? = some name) ∧
    (symbols.events.Nodup ∧ ∀ name, name ∈ symbols.events ↔
      ∃ node ∈ root.preorder, node.namedEvent? = some name) ∧
    symbols.graph.scopes.Nodup ∧
    (∀ name, name ∈ symbols.graph.scopes ↔
      ∃ node ∈ root.preorder, ∃ bases, node.namedContract? = some (name, bases)) ∧
    (∀ name bases, symbols.graph.entries.lookup name = some bases ↔
      ScopeGraph.LastDeclared (root.preorder.filterMap Node.namedContract?) name bases) ∧
    ∀ definition ∈ symbols.functions, definition.owner ≠ "" →
      definition.owner ∈ symbols.scopes := by
  intro symbols
  have names : ∀ (view : Node → Option String), (root.preorder.filterMap view).eraseDups.Nodup ∧
      ∀ name, name ∈ (root.preorder.filterMap view).eraseDups ↔
        ∃ node ∈ root.preorder, view node = some name := by
    intro view
    refine ⟨nodup_eraseDups _, fun name => ?_⟩
    rw [List.mem_eraseDups, List.mem_filterMap]
  have consistent : symbols.Consistent := SymbolTable.consistent_ofTree root
  refine ⟨SymbolTable.functions_ofTree root, Node.map_snd_visits [] root, fun place entry found =>
      ⟨consistent.id_of_getElem? found, SymbolTable.function?_eq_some_iff.2 ⟨entry, found, rfl⟩⟩,
    fun name => ⟨consistent.named_ascending name, consistent.mem_named_iff name⟩,
    ?_, ?_, ?_, ?_, ?_, ?_,
    fun definition member inside => SymbolTable.owner_mem_scopes member inside⟩
  · rw [SymbolTable.libraries_ofTree]
    exact names Node.namedLibrary?
  · rw [SymbolTable.structs_ofTree]
    exact names Node.namedStruct?
  · rw [SymbolTable.events_ofTree]
    exact names Node.namedEvent?
  · rw [SymbolTable.graph_ofTree]
    exact ScopeGraph.nodup_scopes_ofContracts _
  · intro name
    rw [SymbolTable.graph_ofTree, ScopeGraph.mem_scopes_ofContracts]
    simp only [List.mem_filterMap]
    exact exists_comm.trans (exists_congr fun node => exists_and_left)
  · intro name bases
    rw [SymbolTable.graph_ofTree, ScopeGraph.lookup_ofContracts_iff]

/-- A unit with functions inside a body, a contract without a name and a library inside a contract,
and with a contract that is declared again. -/
def bazaar : Node :=
  let function (name : String) (body : Option Node) : Node := .function name 0 "" "" body []
  .other "SourceUnit" [
    .contract "Shop" "contract" ["Stall"] [
      function "sell" (some (function "haggle" none)),
      .contract "" "contract" [] [function "hide" none],
      .contract "Tax" Node.libraryKind [] [function "rate" none]],
    function "sell" none,
    .contract "Shop" "interface" ["Market"] []]

theorem bazaar_collected :
    ((SymbolTable.ofTree bazaar).functions.map fun definition =>
        (definition.name, definition.owner)) =
      [("sell", "Shop"), ("haggle", "Shop"), ("hide", "Shop"), ("rate", "Tax"), ("sell", "")] ∧
    (SymbolTable.ofTree bazaar).named "sell" = [0, 4] ∧
    ((SymbolTable.ofTree bazaar).named "sell").Pairwise (· < ·) ∧
    (SymbolTable.ofTree bazaar).functions = ((bazaar.visits []).filterMap fun visit =>
      visit.2.namedFunction? (Node.nearestScope visit.1)) ∧
    "Tax" ∈ (SymbolTable.ofTree bazaar).scopes ∧
    ScopeGraph.LastDeclared (bazaar.preorder.filterMap Node.namedContract?) "Shop" ["Market"] := by
  obtain ⟨functions, -, -, named, -, -, -, -, -, entries, owners⟩ := collection_exact bazaar
  have listed : (⟨"rate", "Tax", 0, "", "", none⟩ : Definition) ∈
      (SymbolTable.ofTree bazaar).functions :=
    List.mem_of_getElem? (i := 3) rfl
  exact ⟨rfl, rfl, (named "sell").1, functions, owners _ listed (by decide),
    (entries "Shop" ["Market"]).1 rfl⟩

end CallDepth
