/-
# The choice among overloads

A call can name several definitions. `Nameable` says which, one rule a form of callee, and
`Definition.rank` orders them: first by whether the parameters match the arguments in number, then
by whether the scope itself is the owner, then by their order in the unit.

Resolution takes the least definition in that order. The steps of the choice are two of a kind
(`preferred`): keep the candidates that pass a test, or all of them when none does. Each adds one
component to the rank (`leastFor_preferred_iff`), and the first of ascending ids is the least
(`head?_eq_some_iff_leastFor`).
-/
import CallDepth.Proofs.NameLookup
import Mathlib.Data.Bool.Basic
import Mathlib.Data.Prod.Lex

namespace CallDepth

/-! ## Preferring candidates -/

section Preferred

variable {candidates : List FunctionId} {id : FunctionId}

/-- One of the candidates, with no candidate of a lesser rank. -/
def LeastFor {α : Type} [LE α] (rank : FunctionId → α) (candidates : List FunctionId)
    (id : FunctionId) : Prop :=
  id ∈ candidates ∧ ∀ other ∈ candidates, rank id ≤ rank other

/-- The candidates that pass a test; all of them when none does. -/
def preferred (test : FunctionId → Bool) (candidates : List FunctionId) : List FunctionId :=
  let passing := candidates.filter test
  if passing.isEmpty then candidates else passing

theorem preferred_sublist (test : FunctionId → Bool) (candidates : List FunctionId) :
    (preferred test candidates).Sublist candidates := by
  simp only [preferred]
  split
  · exact .refl _
  · exact List.filter_sublist

theorem head?_preferred (test : FunctionId → Bool) (candidates : List FunctionId) :
    (preferred test candidates).head? = (candidates.find? test).or candidates.head? := by
  rw [← List.head?_filter]
  simp only [preferred]
  split
  · rename_i empty
    rw [List.isEmpty_iff.1 empty]
    rfl
  · rename_i nonempty
    cases passing : candidates.filter test with
    | nil => simp [passing] at nonempty
    | cons first rest => rfl

/-- To prefer by a test is to rank by it first. -/
theorem leastFor_preferred_iff {α : Type} [LE α] (rank : FunctionId → α)
    (test : FunctionId → Bool) :
    LeastFor rank (preferred test candidates) id ↔
      LeastFor (fun id => toLex (!test id, rank id)) candidates id := by
  by_cases none : candidates.filter test = []
  · have fails : ∀ other ∈ candidates, test other = false := by
      simpa using none
    have all : preferred test candidates = candidates := by
      simp [preferred, none]
    rw [all]
    refine and_congr_right fun member => forall₂_congr fun other listed => ?_
    simp [Prod.Lex.toLex_le_toLex, fails id member, fails other listed]
  · have some_ : preferred test candidates = candidates.filter test := by
      simp [preferred, none]
    rw [some_]
    constructor
    · rintro ⟨member, least⟩
      obtain ⟨listed, passes⟩ := List.mem_filter.1 member
      refine ⟨listed, fun other otherListed => ?_⟩
      rw [Prod.Lex.toLex_le_toLex]
      cases otherPasses : test other with
      | true =>
          have below := least other (List.mem_filter.2 ⟨otherListed, otherPasses⟩)
          exact .inr ⟨by simp [passes], below⟩
      | false => exact .inl (by simp [passes])
    · rintro ⟨listed, least⟩
      obtain ⟨best, bestMember⟩ := List.exists_mem_of_ne_nil _ none
      obtain ⟨bestListed, bestPasses⟩ := List.mem_filter.1 bestMember
      have passes : test id = true := by
        have below := least best bestListed
        cases passes : test id with
        | true => rfl
        | false =>
            simp only [Prod.Lex.toLex_le_toLex, bestPasses, passes, Bool.not_true, Bool.not_false,
              Bool.true_eq_false, false_and, or_false] at below
            exact absurd below (by decide)
      refine ⟨List.mem_filter.2 ⟨listed, passes⟩, fun other otherMember => ?_⟩
      obtain ⟨otherListed, otherPasses⟩ := List.mem_filter.1 otherMember
      simpa [Prod.Lex.toLex_le_toLex, passes, otherPasses] using least other otherListed

/-- The first of ascending ids is the least. -/
theorem head?_eq_some_iff_leastFor (ascending : candidates.Pairwise (· < ·)) :
    candidates.head? = some id ↔ LeastFor (fun id => id) candidates id := by
  cases candidates with
  | nil => simp [LeastFor]
  | cons first rest =>
      have later := (List.pairwise_cons.1 ascending).1
      rw [List.head?_cons, Option.some.injEq]
      constructor
      · rintro rfl
        refine ⟨List.mem_cons_self, fun other member => ?_⟩
        rcases List.mem_cons.1 member with rfl | inside
        · exact Nat.le_refl _
        · exact Nat.le_of_lt (later other inside)
      · rintro ⟨member, least⟩
        rcases List.mem_cons.1 member with rfl | inside
        · rfl
        · have below : id ≤ first := least first List.mem_cons_self
          exact absurd (later id inside) (Nat.not_lt.2 below)

end Preferred

/-! ## The definitions a call can name -/

/-- The name that a callee calls. -/
def Node.calledName? : Node → Option String
  | identifier name => some name
  | member _ name => some name
  | _ => none

/-- A callee, from a scope, can name a definition. -/
inductive Nameable (symbols : SymbolTable) (scope : String) : Option Node → Definition → Prop
  /-- A plain name reaches the scope and its bases; outside any known scope, the whole unit. -/
  | plain {name : String} {target : Definition} (named : target.name = name)
      (inherited : scope ≠ "" → scope ∈ symbols.scopes →
        symbols.graph.Inherits scope target.owner) :
      Nameable symbols scope (some (.identifier name)) target
  /-- A member of a library reaches that library. -/
  | ofLibrary {library name : String} {target : Definition} (declared : library ∈ symbols.libraries)
      (named : target.name = name) (owned : target.owner = library) :
      Nameable symbols scope (some (.member (some (.identifier library)) name)) target
  /-- A member of `this` reaches the scope; when the scope has no such member, the whole unit. -/
  | ofThis {base : Node} {name : String} {target : Definition} (this : base.isThis = true)
      (noLibrary : ∀ library ∈ symbols.libraries, base ≠ .identifier library)
      (named : target.name = name)
      (owned : (∃ own ∈ symbols.functions, own.name = name ∧ own.owner = scope) →
        target.owner = scope) :
      Nameable symbols scope (some (.member (some base) name)) target

/-- What a callee can name has the name that is called. -/
theorem Nameable.calledName {symbols : SymbolTable} {scope : String} {callee : Option Node}
    {target : Definition} (nameable : Nameable symbols scope callee target) :
    callee.bind Node.calledName? = some target.name := by
  cases nameable with
  | plain named => exact congrArg some named.symm
  | ofLibrary _ named => exact congrArg some named.symm
  | ofThis _ _ named => exact congrArg some named.symm

/-- Where a definition stands among those that a call can name. -/
def Definition.rank (target : Definition) (argumentCount : Option Nat) (scope : String)
    (id : FunctionId) : Bool ×ₗ Bool ×ₗ FunctionId :=
  toLex (argumentCount.any (· ≠ target.arity), toLex (decide (target.owner ≠ scope), id))

namespace SourceUnit

section Eligible

variable {symbols : SymbolTable} (consistent : symbols.Consistent) (scope name : String)
  (id : FunctionId)

/-- A plain name reaches the functions it can name. -/
theorem mem_visible_iff_nameable :
    id ∈ (ofSymbols symbols consistent).visible name scope ↔
      ∃ target, symbols.function? id = some target ∧
        Nameable symbols scope (some (.identifier name)) target := by
  have rule : ∀ target, Nameable symbols scope (some (.identifier name)) target ↔
      target.name = name ∧ (scope ≠ "" → scope ∈ symbols.scopes →
        symbols.graph.Inherits scope target.owner) := by
    intro target
    constructor
    · rintro ⟨named, inherited⟩
      exact ⟨named, inherited⟩
    · rintro ⟨named, inherited⟩
      exact .plain named inherited
  simp only [rule]
  by_cases inside : scope = ""
  · rw [visible, if_pos inside, (ofSymbols symbols consistent).consistent.mem_named_iff]
    simp [inside, ofSymbols]
  · by_cases declared : scope ∈ symbols.scopes
    · rw [mem_visible_iff consistent inside declared]
      simp [inside, declared]
    · have missing : (ofSymbols symbols consistent).closure.get? scope = none := by
        rw [ofSymbols, Closure.get?_compute, if_neg declared]
      rw [visible, if_neg inside, missing, (ofSymbols symbols consistent).consistent.mem_named_iff]
      simp [declared, ofSymbols]

theorem mem_ofThis_iff :
    id ∈ (ofSymbols symbols consistent).ofThis name scope ↔
      ∃ target, symbols.function? id = some target ∧ target.name = name ∧
        ((∃ own ∈ symbols.functions, own.name = name ∧ own.owner = scope) →
          target.owner = scope) := by
  have owned := (ofSymbols symbols consistent).mem_ownedBy_iff name scope
  by_cases own : ∃ own ∈ symbols.functions, own.name = name ∧ own.owner = scope
  · obtain ⟨target, listed, holds⟩ := own
    obtain ⟨place, found⟩ := (symbols.mem_functions_iff_function? target).1 listed
    have nonempty : ((ofSymbols symbols consistent).ownedBy name scope).isEmpty = false :=
      List.isEmpty_eq_false_iff.2 (List.ne_nil_of_mem ((owned place).2 ⟨target, found, holds⟩))
    simp only [ofThis, nonempty, Bool.false_eq_true, if_false, owned]
    have there : ∃ own ∈ symbols.functions, own.name = name ∧ own.owner = scope :=
      ⟨target, listed, holds⟩
    simp only [there, true_implies]
    rfl
  · have empty : (ofSymbols symbols consistent).ownedBy name scope = [] := by
      rw [List.eq_nil_iff_forall_not_mem]
      intro place member
      obtain ⟨target, found, holds⟩ := (owned place).1 member
      exact own ⟨target, (symbols.mem_functions_iff_function? target).2 ⟨place, found⟩, holds⟩
    simp only [ofThis, empty, List.isEmpty_nil, if_true, own, false_implies, and_true]
    exact consistent.mem_named_iff name id

theorem mem_eligible_member_iff (base : Node) :
    id ∈ (ofSymbols symbols consistent).eligible (some (.member (some base) name)) scope ↔
      ∃ target, symbols.function? id = some target ∧
        Nameable symbols scope (some (.member (some base) name)) target := by
  cases known : base.identifier?.filter symbols.isLibrary with
  | some library =>
      obtain ⟨spelled, declared⟩ := Option.filter_eq_some_iff.1 known
      obtain rfl : base = .identifier library := by
        cases base <;> simp_all [Node.identifier?]
      have listed : library ∈ symbols.libraries := by
        simpa [SymbolTable.isLibrary] using declared
      rw [eligible_library (ofSymbols symbols consistent) listed, mem_ownedBy_iff]
      refine exists_congr fun target => and_congr_right fun _ => ?_
      constructor
      · rintro ⟨named, owned⟩
        exact .ofLibrary listed named owned
      · rintro (_ | ⟨_, named, owned⟩ | ⟨_, noLibrary, _, _⟩)
        · exact ⟨named, owned⟩
        · exact absurd rfl (noLibrary library listed)
  | none =>
      have noLibrary : ∀ library ∈ symbols.libraries, base ≠ .identifier library := by
        rintro library listed rfl
        simp [Node.identifier?, SymbolTable.isLibrary, listed] at known
      have rule : ∀ target, Nameable symbols scope (some (.member (some base) name)) target ↔
          base.isThis = true ∧ target.name = name ∧
            ((∃ own ∈ symbols.functions, own.name = name ∧ own.owner = scope) →
              target.owner = scope) := by
        intro target
        constructor
        · rintro (_ | ⟨listed, _, _⟩ | ⟨this, _, named, owned⟩)
          · exact absurd rfl (noLibrary _ listed)
          · exact ⟨this, named, owned⟩
        · rintro ⟨this, named, owned⟩
          exact .ofThis this noLibrary named owned
      cases this : base.isThis with
      | true =>
          have member := mem_ofThis_iff consistent scope name id
          have chosen :
              (ofSymbols symbols consistent).eligible (some (.member (some base) name)) scope =
              (ofSymbols symbols consistent).ofThis name scope := by
            simp only [eligible, ofSymbols, known, this, if_true]
          rw [chosen, member]
          simp only [rule, this, true_and]
      | false =>
          rw [eligible_of_external (ofSymbols symbols consistent) known this]
          simp [rule, this]

/-- The candidates of a call are the definitions that its callee can name. -/
theorem mem_eligible_iff (callee : Option Node) :
    id ∈ (ofSymbols symbols consistent).eligible callee scope ↔
      ∃ target, symbols.function? id = some target ∧ Nameable symbols scope callee target := by
  have external : ∀ {node? : Option Node},
      (ofSymbols symbols consistent).eligible node? scope = [] →
      (∀ target, ¬ Nameable symbols scope node? target) →
      (id ∈ (ofSymbols symbols consistent).eligible node? scope ↔
        ∃ target, symbols.function? id = some target ∧ Nameable symbols scope node? target) := by
    intro node? none unnameable
    simp [none, unnameable]
  rcases callee with _ | node
  · refine external rfl fun target nameable => ?_
    cases nameable
  · cases node with
    | identifier name => exact mem_visible_iff_nameable consistent scope name id
    | member base? name =>
        cases base? with
        | none =>
            refine external rfl fun target nameable => ?_
            cases nameable
        | some base => exact mem_eligible_member_iff consistent scope name id base
    | _ =>
        refine external rfl fun target nameable => ?_
        cases nameable

end Eligible

/-! ## The choice -/

section Choice

variable (unit : SourceUnit) (argumentCount : Option Nat) (scope : String)

/-- The definition of an id takes as many arguments as the call has, if that is known. -/
def suits (id : FunctionId) : Bool :=
  argumentCount.all fun count => unit.symbols.hasArity count id

/-- The candidates that fit are preferred to the others. -/
theorem fitting_eq_preferred (candidates : List FunctionId) :
    unit.fitting argumentCount candidates =
      preferred (unit.suits argumentCount) candidates := by
  cases argumentCount with
  | none =>
      have all : candidates.filter (unit.suits none) = candidates :=
        List.filter_eq_self.2 fun _ _ => rfl
      simp [fitting, preferred, all]
  | some count => rfl

theorem choose?_eq_head? (candidates : List FunctionId) :
    unit.choose? argumentCount scope candidates =
      (preferred (unit.symbols.isOwnedBy scope)
        (preferred (unit.suits argumentCount) candidates)).head? := by
  rw [choose?, fitting_eq_preferred]
  exact (head?_preferred _ _).symm

/-- The choice among ascending candidates is the one of least rank. -/
theorem choose?_eq_some_iff_leastFor {candidates : List FunctionId}
    (ascending : candidates.Pairwise (· < ·)) (id : FunctionId) :
    unit.choose? argumentCount scope candidates = some id ↔
      LeastFor (fun id => toLex (!unit.suits argumentCount id,
        toLex (!unit.symbols.isOwnedBy scope id, id))) candidates id := by
  have fit := ascending.sublist (preferred_sublist (unit.suits argumentCount) candidates)
  have own := fit.sublist (preferred_sublist (unit.symbols.isOwnedBy scope) _)
  rw [choose?_eq_head?, head?_eq_some_iff_leastFor own, leastFor_preferred_iff,
    leastFor_preferred_iff]

end Choice

/-- The rank of a definition as the choice computes it. -/
theorem rank_eq (unit : SourceUnit) (argumentCount : Option Nat) (scope : String) {id : FunctionId}
    {target : Definition} (found : unit.symbols.function? id = some target) :
    toLex (!unit.suits argumentCount id, toLex (!unit.symbols.isOwnedBy scope id, id)) =
      target.rank argumentCount scope id := by
  have arity : (!unit.suits argumentCount id) = argumentCount.any (· ≠ target.arity) := by
    cases argumentCount with
    | none => rfl
    | some count => simp [suits, SymbolTable.hasArity, found, eq_comm]
  have owner : (!unit.symbols.isOwnedBy scope id) = decide (target.owner ≠ scope) := by
    simp [SymbolTable.isOwnedBy, found]
  rw [arity, owner]
  rfl

end SourceUnit

/-- Overloads are chosen lexicographically. A call leads to at most one definition of the unit,
which has the name called, and nowhere exactly if its callee can name no definition. Otherwise it
leads to the definition of least rank among all that the callee can name: first the number of
parameters counts, unless the call has no argument list, then whether the scope itself is the owner,
then the order of the unit. -/
theorem resolve_least_nameable (root : Node) (site : CallSite) (scope : String) :
    let unit := SourceUnit.ofTree root
    let symbols := SymbolTable.ofTree root
    let count := site.argumentCount
    (unit.resolve site scope).length ≤ 1 ∧
    (∀ id ∈ unit.resolve site scope,
      ∃ target, symbols.functions[id]? = some target ∧
        site.callee.bind Node.calledName? = some target.name) ∧
    (unit.resolve site scope = [] ↔
      ∀ target ∈ symbols.functions, ¬ Nameable symbols scope site.callee target) ∧
    ∀ id, unit.resolve site scope = [id] ↔
      ∃ target, symbols.functions[id]? = some target ∧ Nameable symbols scope site.callee target ∧
        ∀ other rival, symbols.functions[other]? = some rival →
          Nameable symbols scope site.callee rival →
            target.rank count scope id ≤ rival.rank count scope other := by
  intro unit symbols count
  have eligible := fun id => SourceUnit.mem_eligible_iff unit.consistent scope id site.callee
  obtain ⟨name, part⟩ := unit.eligible_sublist site.callee scope
  have ascending := (unit.consistent.named_ascending name).sublist part
  have least := unit.choose?_eq_some_iff_leastFor count scope ascending
  refine ⟨?_, fun id resolved => ?_, ?_, fun id => ?_⟩
  · rw [unit.resolve_eq]
    exact Option.length_toList_le
  · rw [unit.resolve_eq, Option.mem_toList] at resolved
    obtain ⟨target, found, nameable⟩ := (eligible id).1 (unit.mem_eligible_of_resolve? resolved)
    exact ⟨target, found, nameable.calledName⟩
  · rw [unit.resolve_eq, Option.toList_eq_nil_iff, unit.resolve?_eq_none_iff,
      List.eq_nil_iff_forall_not_mem]
    constructor
    · intro none target listed nameable
      obtain ⟨id, found⟩ := (symbols.mem_functions_iff_function? target).1 listed
      exact none id ((eligible id).2 ⟨target, found, nameable⟩)
    · intro none id member
      obtain ⟨target, found, nameable⟩ := (eligible id).1 member
      exact none target ((symbols.mem_functions_iff_function? target).2 ⟨id, found⟩) nameable
  · rw [unit.resolve_eq, Option.toList_eq_singleton_iff, unit.resolve?_eq_choose?]
    refine (least id).trans ⟨?_, ?_⟩
    · rintro ⟨member, below⟩
      obtain ⟨target, found, nameable⟩ := (eligible id).1 member
      refine ⟨target, found, nameable, fun other rival otherFound otherNameable => ?_⟩
      rw [← unit.rank_eq _ _ found, ← unit.rank_eq _ _ otherFound]
      exact below other ((eligible other).2 ⟨rival, otherFound, otherNameable⟩)
    · rintro ⟨target, found, nameable, below⟩
      refine ⟨(eligible id).2 ⟨target, found, nameable⟩, fun other member => ?_⟩
      obtain ⟨rival, otherFound, otherNameable⟩ := (eligible other).1 member
      simp only [unit.rank_eq _ _ found, unit.rank_eq _ _ otherFound]
      exact below other rival otherFound otherNameable

/-- A base and a child that overload a function, and a stranger that has it, too. -/
def courier : Node :=
  let send (arity : Nat) : Node := .function "send" arity "" "" none []
  .other "SourceUnit" [
    .contract "Base" "contract" [] [send 1],
    .contract "Child" "contract" ["Base"] [send 2, send 1],
    .contract "Other" "contract" [] [send 3]]

def courierCall (count : Nat) : CallSite :=
  ⟨false, some (.identifier "send"), some count, []⟩

/-- Arguments decide first, then the owner. Three arguments fit only a definition out of reach. -/
theorem courier_resolves_least :
    (SourceUnit.ofTree courier).resolve (courierCall 1) "Child" = [2] ∧
    (SourceUnit.ofTree courier).resolve (courierCall 3) "Child" = [1] ∧
    (SourceUnit.ofTree courier).resolve (courierCall 1) "Base" = [0] ∧
    Nameable (SymbolTable.ofTree courier) "Child" (some (.identifier "send"))
      ⟨"send", "Child", 1, "", "", none⟩ ∧
    ∀ rival, Nameable (SymbolTable.ofTree courier) "Child" (some (.identifier "send")) rival →
      ∀ other, (SymbolTable.ofTree courier).functions[other]? = some rival →
        Definition.rank ⟨"send", "Child", 1, "", "", none⟩ (some 1) "Child" 2 ≤
          rival.rank (some 1) "Child" other := by
  have resolved : (SourceUnit.ofTree courier).resolve (courierCall 1) "Child" = [2] := by
    decide
  obtain ⟨-, -, -, least⟩ := resolve_least_nameable courier (courierCall 1) "Child"
  obtain ⟨target, found, nameable, below⟩ := (least 2).1 resolved
  obtain rfl : ⟨"send", "Child", 1, "", "", none⟩ = target := Option.some.inj found
  exact ⟨resolved, by decide, by decide, nameable, fun rival rivalNameable other listed =>
    below other rival listed rivalNameable⟩

end CallDepth
