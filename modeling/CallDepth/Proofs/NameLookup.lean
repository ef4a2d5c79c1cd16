/-
# Name lookup stays within the inheritance closure

From inside a contract or library, a plain name reaches exactly the definitions of that name whose
owner is the scope itself or one of its bases (`mem_visible_iff`), and a member of a library exactly
the definitions of that library (`mem_ownedBy_iff`). Every owner of a function is a declared scope,
so it has a reachable set (`closure_get?_of_declared`), and the case without one, in which all
definitions of the name would count, does not arise.

A call leads nowhere only if its callee can name nothing (`resolve?_eq_none_iff`).
-/
import CallDepth.Proofs.CallGraph
import CallDepth.Proofs.Declarations

namespace CallDepth

namespace SymbolTable

theorem isOwnedBy_iff (symbols : SymbolTable) (owner : String) (id : FunctionId) :
    symbols.isOwnedBy owner id = true ↔
      ∃ definition, symbols.function? id = some definition ∧ definition.owner = owner := by
  simp [isOwnedBy, Option.any_eq_true]

theorem mem_functions_iff_function? (symbols : SymbolTable) (definition : Definition) :
    definition ∈ symbols.functions ↔ ∃ id, symbols.function? id = some definition :=
  List.mem_iff_getElem?

end SymbolTable

namespace SourceUnit

section Candidates

variable (unit : SourceUnit)

theorem isOwnedWithin_iff (scopes : List String) (id : FunctionId) :
    unit.isOwnedWithin scopes id = true ↔
      ∃ definition, unit.symbols.function? id = some definition ∧ definition.owner ∈ scopes := by
  simp [isOwnedWithin, Option.any_eq_true]

/-- The functions of an owner that bear a name. -/
theorem mem_ownedBy_iff (name owner : String) (id : FunctionId) :
    id ∈ unit.ownedBy name owner ↔
      ∃ definition, unit.symbols.function? id = some definition ∧ definition.name = name ∧
        definition.owner = owner := by
  rw [ownedBy, List.mem_filter, unit.consistent.mem_named_iff, SymbolTable.isOwnedBy_iff]
  constructor
  · rintro ⟨⟨definition, found, named⟩, other, same, owned⟩
    obtain rfl := Option.some.inj (found.symm.trans same)
    exact ⟨definition, found, named, owned⟩
  · rintro ⟨definition, found, named, owned⟩
    exact ⟨⟨definition, found, named⟩, definition, found, owned⟩

theorem fitting_eq_nil_iff (argumentCount : Option Nat) (candidates : List FunctionId) :
    unit.fitting argumentCount candidates = [] ↔ candidates = [] := by
  cases argumentCount with
  | none => rfl
  | some count =>
      by_cases empty : (candidates.filter (unit.symbols.hasArity count)).isEmpty
      · simp only [fitting, empty, if_true]
      · have some_ : candidates ≠ [] := fun none => empty (by simp [none])
        simp only [fitting, empty, Bool.false_eq_true, if_false, some_, iff_false]
        simpa using empty

/-- A call leads nowhere only if its callee can name nothing. -/
theorem resolve?_eq_none_iff (site : CallSite) (scope : String) :
    unit.resolve? site scope = none ↔ unit.eligible site.callee scope = [] := by
  have fitting := unit.fitting_eq_nil_iff site.argumentCount (unit.eligible site.callee scope)
  simp only [resolve?_eq_choose?, choose?, Option.or_eq_none_iff, List.head?_eq_none_iff]
  constructor
  · exact fun none => fitting.1 none.2
  · intro empty
    rw [fitting.2 empty]
    exact ⟨List.find?_nil, rfl⟩

/-- A call leads to a definition that its callee can name, and nowhere only if there is none. -/
theorem resolve?_spec {unit : SourceUnit} {site : CallSite} {scope : String}
    {nameable : Definition → Prop}
    (candidates : ∀ id, id ∈ unit.eligible site.callee scope ↔
      ∃ target, unit.symbols.function? id = some target ∧ nameable target) :
    (∀ id, unit.resolve? site scope = some id →
      ∃ target, unit.symbols.function? id = some target ∧ nameable target) ∧
    (unit.resolve? site scope = none → ∀ target ∈ unit.symbols.functions, ¬ nameable target) := by
  refine ⟨fun id resolved => (candidates id).1 (unit.mem_eligible_of_resolve? resolved), ?_⟩
  intro nowhere target listed holds
  obtain ⟨id, found⟩ := (unit.symbols.mem_functions_iff_function? target).1 listed
  have member := (candidates id).2 ⟨target, found, holds⟩
  rw [(unit.resolve?_eq_none_iff site scope).1 nowhere] at member
  cases member

end Candidates

/-! ## Inside a scope -/

variable {symbols : SymbolTable} (consistent : symbols.Consistent)

/-- Every declared scope has a reachable set. -/
theorem closure_get?_of_declared {scope : String} (declared : scope ∈ symbols.scopes) :
    (ofSymbols symbols consistent).closure.get? scope =
      some (symbols.graph.reachableFrom scope) := by
  rw [ofSymbols, Closure.get?_compute, if_pos declared]

/-- Inside a declared scope, the definitions of a name are filtered by the reachable set. -/
theorem visible_of_declared {scope : String} (inside : scope ≠ "")
    (declared : scope ∈ symbols.scopes) (name : String) :
    (ofSymbols symbols consistent).visible name scope =
      (symbols.named name).filter
        ((ofSymbols symbols consistent).isOwnedWithin (symbols.graph.reachableFrom scope)) := by
  have start : scope ∈ symbols.graph.reachableFrom scope :=
    (symbols.graph.mem_reachableFrom_iff scope scope).2 .refl
  have inhabited : (symbols.graph.reachableFrom scope).isEmpty = false :=
    List.isEmpty_eq_false_iff.2 (List.ne_nil_of_mem start)
  rw [visible, closure_get?_of_declared consistent declared]
  simp only [inside, if_false, inhabited, Bool.false_eq_true]
  rfl

/-- Inside a declared scope, a plain name reaches the definitions of the scope and its bases. -/
theorem mem_visible_iff {scope : String} (inside : scope ≠ "")
    (declared : scope ∈ symbols.scopes) (name : String) (id : FunctionId) :
    id ∈ (ofSymbols symbols consistent).visible name scope ↔
      ∃ definition, symbols.function? id = some definition ∧ definition.name = name ∧
        symbols.graph.Inherits scope definition.owner := by
  rw [visible_of_declared consistent inside declared, List.mem_filter, consistent.mem_named_iff,
    isOwnedWithin_iff]
  simp only [ScopeGraph.mem_reachableFrom_iff]
  constructor
  · rintro ⟨⟨definition, found, named⟩, other, same, inherits⟩
    obtain rfl := Option.some.inj (found.symm.trans same)
    exact ⟨definition, found, named, inherits⟩
  · rintro ⟨definition, found, named, inherits⟩
    exact ⟨⟨definition, found, named⟩, definition, found, inherits⟩

theorem eligible_of_library (unit : SourceUnit) {base : Node} {library : String}
    (found : base.identifier?.filter unit.symbols.isLibrary = some library) (name scope : String) :
    unit.eligible (some (.member (some base) name)) scope = unit.ownedBy name library := by
  simp only [eligible, found]

/-- A member of anything but `this` and libraries names no function of the unit. -/
theorem eligible_of_external (unit : SourceUnit) {base : Node}
    (found : base.identifier?.filter unit.symbols.isLibrary = none)
    (external : base.isThis = false) (name scope : String) :
    unit.eligible (some (.member (some base) name)) scope = [] := by
  simp only [eligible, found, external, Bool.false_eq_true, if_false]

theorem eligible_library (unit : SourceUnit) {library : String}
    (declared : library ∈ unit.symbols.libraries) (name scope : String) :
    unit.eligible (some (.member (some (.identifier library)) name)) scope =
      unit.ownedBy name library := by
  have known : unit.symbols.isLibrary library = true := by
    simpa [SymbolTable.isLibrary] using declared
  exact unit.eligible_of_library (Option.filter_eq_some_iff.2 ⟨rfl, known⟩) name scope

end SourceUnit

/-- A function that belongs to a scope belongs to a declared one. -/
theorem SymbolTable.owner_mem_scopes {root : Node} {definition : Definition}
    (member : definition ∈ (SymbolTable.ofTree root).functions) (inside : definition.owner ≠ "") :
    definition.owner ∈ (SymbolTable.ofTree root).scopes := by
  have declared := (SymbolTable.mem_functions_iff _).1 member
  exact (SymbolTable.mem_scopes_iff _).2 ((Node.owner_declared declared).resolve_left inside)

/-- The bases of a scope with a name have names. -/
theorem Node.NamesBases.inherits_ne_empty {root : Node} (names : root.NamesBases)
    {scope name : String} (inside : scope ≠ "")
    (inherits : InheritsIn (root.declarations "") scope name) : name ≠ "" := by
  cases inherits with
  | refl => exact inside
  | tail _ base =>
      rintro rfl
      obtain ⟨declaration, declared, listed⟩ := declared_of_mem_lastBases base
      exact names "" declaration declared listed

/-- Name lookup stays within the inheritance closure. In the unit of any document, every function
that belongs to a contract or library has a reachable set, which holds its owner and not the empty
name, so the definitions of a name are always filtered by it. A call by a plain name leads to a
definition of that name whose owner is the caller's owner or a base of it under the last declaration
of each contract, and never to a free function; it leads nowhere only if there is no such
definition. A call of a member of a library leads to a definition of that library, and nowhere only
if the library has no function of that name. -/
theorem lookup_within_closure (document : Json) :
    let root := Node.ofJson document
    let unit := SourceUnit.ofTree root
    (∀ definition ∈ unit.symbols.functions, definition.owner ≠ "" →
      (∃ reach, unit.closure.get? definition.owner = some reach ∧ definition.owner ∈ reach ∧
        "" ∉ reach ∧ ∀ name, unit.visible name definition.owner =
          (unit.symbols.named name).filter (unit.isOwnedWithin reach)) ∧
      ∀ (site : CallSite) (name : String), site.callee = some (.identifier name) →
        (∀ id, unit.resolve? site definition.owner = some id →
          ∃ target, unit.symbols.function? id = some target ∧ target.name = name ∧
            target.owner ≠ "" ∧
            InheritsIn (root.declarations "") definition.owner target.owner) ∧
        (unit.resolve? site definition.owner = none → ∀ target ∈ unit.symbols.functions,
          target.name = name →
            ¬ InheritsIn (root.declarations "") definition.owner target.owner)) ∧
    ∀ (site : CallSite) (scope library name : String),
      .library library ∈ root.declarations "" →
      site.callee = some (.member (some (.identifier library)) name) →
        (∀ id, unit.resolve? site scope = some id →
          ∃ target, unit.symbols.function? id = some target ∧ target.name = name ∧
            target.owner = library) ∧
        (unit.resolve? site scope = none → ∀ target ∈ unit.symbols.functions,
          target.name = name → target.owner ≠ library) := by
  intro root unit
  have names : root.NamesBases := Node.namesBases_ofJson document
  have inherited : unit.symbols.graph.Inherits = InheritsIn (root.declarations "") :=
    SymbolTable.inherits_ofDeclarations _
  refine ⟨fun definition member inside => ?_, fun site scope library name declared callee => ?_⟩
  · have declared := SymbolTable.owner_mem_scopes member inside
    have visible := SourceUnit.mem_visible_iff unit.consistent inside declared
    rw [inherited] at visible
    refine ⟨⟨_, SourceUnit.closure_get?_of_declared unit.consistent declared, ?_, ?_,
      SourceUnit.visible_of_declared unit.consistent inside declared⟩, ?_⟩
    · exact (ScopeGraph.mem_reachableFrom_iff _ _ _).2 .refl
    · rw [ScopeGraph.mem_reachableFrom_iff, inherited]
      exact fun inherits => names.inherits_ne_empty inside inherits rfl
    · intro site name callee
      have candidates : ∀ id, id ∈ unit.eligible site.callee definition.owner ↔
          ∃ target, unit.symbols.function? id = some target ∧ target.name = name ∧
            InheritsIn (root.declarations "") definition.owner target.owner := by
        rw [callee]
        exact visible name
      obtain ⟨leads, nowhere⟩ := SourceUnit.resolve?_spec candidates
      refine ⟨fun id resolved => ?_, fun none target listed named inherits =>
        nowhere none target listed ⟨named, inherits⟩⟩
      obtain ⟨target, found, named, inherits⟩ := leads id resolved
      exact ⟨target, found, named, names.inherits_ne_empty inside inherits, inherits⟩
  · have known : library ∈ unit.symbols.libraries := (SymbolTable.mem_libraries_iff _).2 declared
    have candidates : ∀ id, id ∈ unit.eligible site.callee scope ↔
        ∃ target, unit.symbols.function? id = some target ∧ target.name = name ∧
          target.owner = library := by
      rw [callee, SourceUnit.eligible_library unit known]
      exact unit.mem_ownedBy_iff name library
    obtain ⟨leads, nowhere⟩ := SourceUnit.resolve?_spec candidates
    exact ⟨leads, fun none target listed named owned => nowhere none target listed ⟨named, owned⟩⟩

/-- A wallet inherits `pay` from an account; the file itself, a shop and a library have a function
of that name, too. -/
def walletDocument : Json :=
  let function (name : String) : Json :=
    .object [("type", .text "FunctionDefinition"), ("name", .text name)]
  let scope (tag name : String) (bases : List Json) (member : String) : Json :=
    .object [("type", .text tag), ("name", .text name), ("baseContracts", .list bases),
      ("subNodes", .list [function member])]
  .object [("type", .text "SourceUnit"), ("children", .list [
    function "pay",
    scope "ContractDefinition" "Shop" [] "pay",
    scope "ContractDefinition" "Account" [] "pay",
    scope "ContractDefinition" "Wallet"
      [.object [("baseName", .object [("namePath", .text "Account")])]] "spend",
    scope "LibraryDefinition" "Bank" [] "pay"])]

def walletUnit : SourceUnit :=
  .ofTree (Node.ofJson walletDocument)

/-- A call of `pay` in the wallet leads to the account, and a call of `Bank.pay` to the bank. -/
theorem wallet_lookup_within_closure :
    (∃ reach, walletUnit.closure.get? "Wallet" = some reach ∧ "Wallet" ∈ reach ∧ "" ∉ reach) ∧
    walletUnit.symbols.named "pay" = [0, 1, 2, 4] ∧
    walletUnit.resolve? ⟨false, some (.identifier "pay"), some 0, []⟩ "Wallet" = some 2 ∧
    (∃ target, walletUnit.symbols.function? 2 = some target ∧ target.owner ≠ "" ∧
      InheritsIn ((Node.ofJson walletDocument).declarations "") "Wallet" target.owner) ∧
    walletUnit.resolve? ⟨false, some (.member (some (.identifier "Bank")) "pay"), some 0, []⟩
      "Wallet" = some 4 ∧
    ∃ target, walletUnit.symbols.function? 4 = some target ∧ target.owner = "Bank" := by
  obtain ⟨inside, library⟩ := lookup_within_closure walletDocument
  have member : (⟨"spend", "Wallet", 0, "", "", none⟩ : Definition) ∈
      walletUnit.symbols.functions :=
    List.mem_of_getElem? (i := 3) rfl
  have plain : walletUnit.resolve? ⟨false, some (.identifier "pay"), some 0, []⟩ "Wallet" =
      some 2 := by
    decide +kernel
  have ofBank : walletUnit.resolve?
      ⟨false, some (.member (some (.identifier "Bank")) "pay"), some 0, []⟩ "Wallet" = some 4 := by
    decide +kernel
  have declared : Declaration.library "Bank" ∈ (Node.ofJson walletDocument).declarations "" :=
    List.mem_of_getElem? (i := 7) rfl
  obtain ⟨⟨reach, known, start, named, -⟩, calls⟩ := inside _ member (by decide)
  obtain ⟨target, found, -, owned, inherits⟩ := (calls _ "pay" rfl).1 2 plain
  obtain ⟨other, otherFound, -, bank⟩ := (library _ "Wallet" "Bank" "pay" declared rfl).1 4 ofBank
  exact ⟨⟨reach, known, start, named⟩, by decide +kernel, plain, ⟨target, found, owned, inherits⟩,
    ofBank, other, otherFound, bank⟩

end CallDepth
