/-
# The inheritance closure

`graph.Inherits s t` says that `t` is the scope `s` or one of its bases, direct or not. The closed
sets are exactly that relation (`mem_reachableFrom_iff`), whatever the declarations are: bases may
repeat, form cycles or be undeclared.

A search marks a name as seen when it puts it on its stack, so no name comes there twice. What a
turn does is said by `turn_cases`; `Traversal` is what every turn keeps, and `remaining` counts the
turns that can still come, so every search ends (`turn_wellFounded`). The search for what a scope
reaches takes as many turns as it finds names (`iterate_stack_eq_nil_iff`).

A graph of declarations has the bases of the last declaration of each scope
(`lookup_ofContracts_iff`). A `Closure` keeps the sets of the scopes it was computed for, and
nothing for others (`Closure.get?_compute`).
-/
import CallDepth.Scope
import Mathlib.Data.List.Induction
import Mathlib.Data.Finset.Card
import Mathlib.Logic.Relation

namespace CallDepth

open Relation

namespace ScopeGraph

/-- The second name is a direct base of the first. -/
def HasBase (graph : ScopeGraph) (scope base : String) : Prop :=
  base ∈ graph.bases scope

/-- The second name is the first, or a base of it, direct or not. -/
def Inherits (graph : ScopeGraph) : String → String → Prop :=
  ReflTransGen graph.HasBase

end ScopeGraph

/-! ## One turn of a search -/

/-- Visiting names puts those that are new, each once, on top of the names seen and of the stack. -/
theorem Search.exists_fresh (names : List String) (search : Search) :
    ∃ fresh, names.foldl visit search = ⟨fresh ++ search.seen, fresh ++ search.stack⟩ ∧
      fresh.Nodup ∧ ∀ name, name ∈ fresh ↔ name ∈ names ∧ name ∉ search.seen := by
  induction names generalizing search with
  | nil => exact ⟨[], rfl, List.nodup_nil, by simp⟩
  | cons first rest ih =>
      rw [List.foldl_cons, visit]
      split
      · rename_i known
        obtain ⟨fresh, visited, distinct, member⟩ := ih search
        refine ⟨fresh, visited, distinct, fun name => ?_⟩
        rw [member, List.mem_cons, or_and_right, or_iff_right]
        rintro ⟨rfl, new⟩
        exact new known
      · rename_i new
        obtain ⟨fresh, visited, distinct, member⟩ :=
          ih ⟨first :: search.seen, first :: search.stack⟩
        have apart : first ∉ fresh := fun inside => ((member first).1 inside).2 List.mem_cons_self
        refine ⟨fresh ++ [first], by simp [visited], ?_, fun name => ?_⟩
        · exact List.nodup_middle.2 (by simpa using ⟨apart, distinct⟩)
        · rw [List.mem_append, member, List.mem_singleton, List.mem_cons, List.mem_cons]
          by_cases same : name = first
          · simp [same, new]
          · simp [same]

namespace ScopeGraph

variable {graph : ScopeGraph} {scope : String}

/-- What a turn does: the name on top gives way to those of its bases that are new. -/
theorem turn_cases (graph : ScopeGraph) (seen : List String) (name : String) (rest : List String) :
    ∃ fresh, graph.turn ⟨seen, name :: rest⟩ = ⟨fresh ++ seen, fresh ++ rest⟩ ∧ fresh.Nodup ∧
      ∀ base, base ∈ fresh ↔ base ∈ graph.bases name ∧ base ∉ seen :=
  Search.exists_fresh (graph.bases name) ⟨seen, rest⟩

theorem turn_of_idle {search : Search} (idle : search.stack = []) : graph.turn search = search := by
  rw [turn, idle]

theorem search_eq_iterate (turns : Nat) (state : Search) :
    graph.search turns state = graph.turn^[turns] state := by
  induction turns generalizing state with
  | zero => rfl
  | succ turns ih =>
      rw [search, Function.iterate_succ_apply]
      split
      · rename_i idle
        have same : graph.turn state = state := turn_of_idle (List.isEmpty_iff.1 idle)
        rw [same, Function.iterate_fixed same]
      · exact ih (graph.turn state)

/-! ## Every search ends -/

def recorded (graph : ScopeGraph) : Finset String :=
  (graph.entries.flatMap (·.2)).toFinset

/-- The turns that can still be taken: the names on the stack, and the bases that were not seen. -/
def remaining (graph : ScopeGraph) (search : Search) : Nat :=
  search.stack.length + (graph.recorded \ search.seen.toFinset).card

theorem mem_recorded_of_mem_bases {name base : String} (listed : base ∈ graph.bases name) :
    base ∈ graph.recorded := by
  rw [bases] at listed
  cases found : graph.entries.lookup name with
  | none => simp [found] at listed
  | some bases =>
      rw [found, Option.getD_some] at listed
      obtain ⟨before, after, entries, -⟩ := List.lookup_eq_some_iff.1 found
      rw [recorded, List.mem_toFinset, List.mem_flatMap]
      exact ⟨(name, bases), by simp [entries], listed⟩

/-- Every turn takes one name off what remains: a base that is pushed is one fewer to be seen. -/
theorem remaining_turn {search : Search} (busy : search.stack ≠ []) :
    graph.remaining (graph.turn search) + 1 = graph.remaining search := by
  obtain ⟨seen, stack⟩ := search
  cases stack with
  | nil => exact absurd rfl busy
  | cons name rest =>
      obtain ⟨fresh, turned, distinct, member⟩ := graph.turn_cases seen name rest
      have pool : fresh.toFinset ⊆ graph.recorded \ seen.toFinset := by
        intro base inside
        obtain ⟨listed, new⟩ := (member base).1 (List.mem_toFinset.1 inside)
        exact Finset.mem_sdiff.2 ⟨mem_recorded_of_mem_bases listed, by simpa using new⟩
      have fewer := Finset.card_sdiff_add_card_eq_card pool
      rw [List.toFinset_card_of_nodup distinct, sdiff_sdiff_left, sup_comm, Finset.sup_eq_union,
        ← List.toFinset_append] at fewer
      simp only [turned, remaining, List.length_append, List.length_cons]
      omega

/-- A turn of a search that has not ended. -/
def Turn (graph : ScopeGraph) (before after : Search) : Prop :=
  before.stack ≠ [] ∧ after = graph.turn before

/-- No search takes turns for ever. -/
theorem turn_wellFounded (graph : ScopeGraph) :
    WellFounded fun after before => graph.Turn before after := by
  refine Subrelation.wf ?_ (measure graph.remaining).wf
  rintro after before ⟨busy, rfl⟩
  have fewer := graph.remaining_turn busy
  exact Nat.lt_of_succ_le fewer.le

theorem search_stack_eq_nil {turns : Nat} {state : Search}
    (enough : graph.remaining state ≤ turns) :
    (graph.search turns state).stack = [] := by
  induction turns generalizing state with
  | zero =>
      rw [remaining] at enough
      exact List.eq_nil_of_length_eq_zero (by rw [search]; omega)
  | succ turns ih =>
      rw [search]
      split
      · rename_i idle
        exact List.isEmpty_iff.1 idle
      · rename_i busy
        have some : state.stack ≠ [] := by simpa using busy
        have fewer := graph.remaining_turn some
        exact ih (by omega)

/-- The state a search starts from: the scope is seen, and its bases are to be read. -/
def launch (scope : String) : Search :=
  ⟨[scope], [scope]⟩

/-- The turns that are allowed empty the stack. -/
theorem reachableFrom_eq (graph : ScopeGraph) (scope : String) :
    graph.search graph.turnBound (launch scope) = ⟨graph.reachableFrom scope, []⟩ := by
  have ended : (graph.search graph.turnBound (launch scope)).stack = [] := by
    apply search_stack_eq_nil
    calc graph.remaining (launch scope)
        ≤ 1 + graph.recorded.card := Nat.add_le_add_left (Finset.card_le_card Finset.sdiff_subset) 1
      _ ≤ graph.turnBound := Nat.add_le_add_left (List.toFinset_card_le _) 1
  rw [reachableFrom, ← launch, ← ended]

/-! ## What a search finds -/

/-- What holds of a search at every turn, with the names whose bases were read so far. -/
structure Traversal (graph : ScopeGraph) (scope : String) (search : Search) (read : List String) :
    Prop where
  start : scope ∈ search.seen
  inherited : ∀ name ∈ search.seen, graph.Inherits scope name
  /-- The names seen are those on the stack and those whose bases were read. -/
  split : search.seen.Perm (search.stack ++ read)
  distinct : search.seen.Nodup
  closed : ∀ name ∈ read, ∀ base ∈ graph.bases name, base ∈ search.seen

/-- A search starts with the scope as the only name, its bases not read. -/
theorem Traversal.launch (graph : ScopeGraph) (scope : String) :
    graph.Traversal scope (launch scope) [] := by
  refine ⟨List.mem_cons_self, fun name member => ?_, .refl _, List.nodup_singleton scope, ?_⟩
  · obtain rfl := List.mem_singleton.1 member
    exact .refl
  · exact fun _ member => nomatch member

/-- A turn reads the bases of one name more. -/
theorem Traversal.turn {seen rest read : List String} {name : String}
    (traversal : graph.Traversal scope ⟨seen, name :: rest⟩ read) :
    graph.Traversal scope (graph.turn ⟨seen, name :: rest⟩) (name :: read) := by
  obtain ⟨fresh, turned, distinct, member⟩ := graph.turn_cases seen name rest
  have top : name ∈ seen := traversal.split.mem_iff.2 (by simp)
  rw [turned]
  refine ⟨List.mem_append_right _ traversal.start, fun other inside => ?_, ?_, ?_, ?_⟩
  · rcases List.mem_append.1 inside with new | known
    · exact (traversal.inherited name top).tail ((member other).1 new).1
    · exact traversal.inherited other known
  · have moved : seen.Perm (rest ++ name :: read) := traversal.split.trans List.perm_middle.symm
    simpa using moved.append_left fresh
  · refine List.nodup_append.2 ⟨distinct, traversal.distinct, ?_⟩
    rintro other new _ known rfl
    exact ((member other).1 new).2 known
  · intro other isRead base listed
    rw [List.mem_append]
    rcases List.mem_cons.1 isRead with rfl | before
    · by_cases known : base ∈ seen
      · exact .inr known
      · exact .inl ((member base).2 ⟨listed, known⟩)
    · exact .inr (traversal.closed other before base listed)

/-- After a number of turns as many names were read, or the search had ended before. -/
theorem exists_traversal (graph : ScopeGraph) (scope : String) (turns : Nat) :
    ∃ read, graph.Traversal scope (graph.turn^[turns] (launch scope)) read ∧ read.length ≤ turns ∧
      ((graph.turn^[turns] (launch scope)).stack ≠ [] → read.length = turns) := by
  induction turns with
  | zero => exact ⟨[], .launch graph scope, le_rfl, fun _ => rfl⟩
  | succ turns ih =>
      obtain ⟨read, traversal, bounded, busy⟩ := ih
      rw [Function.iterate_succ_apply']
      generalize graph.turn^[turns] (launch scope) = state at traversal busy ⊢
      obtain ⟨seen, stack⟩ := state
      cases stack with
      | nil =>
          exact ⟨read, traversal, bounded.trans (Nat.le_succ turns), fun idle => absurd rfl idle⟩
      | cons name rest =>
          have counted : read.length = turns := busy (List.cons_ne_nil name rest)
          exact ⟨name :: read, traversal.turn, by simp [counted], fun _ => by simp [counted]⟩

/-- When the stack is empty, the names seen are those the scope inherits from. -/
theorem Traversal.mem_seen_iff {seen read : List String}
    (traversal : graph.Traversal scope ⟨seen, []⟩ read) (name : String) :
    name ∈ seen ↔ graph.Inherits scope name := by
  constructor
  · exact traversal.inherited name
  · intro inherits
    induction inherits with
    | refl => exact traversal.start
    | tail _ base ih => exact traversal.closed _ (traversal.split.mem_iff.1 ih) _ base

theorem exists_traversal_reachableFrom (graph : ScopeGraph) (scope : String) :
    ∃ read, graph.Traversal scope ⟨graph.reachableFrom scope, []⟩ read := by
  obtain ⟨read, traversal, -⟩ := graph.exists_traversal scope graph.turnBound
  rw [← search_eq_iterate, reachableFrom_eq] at traversal
  exact ⟨read, traversal⟩

/-- No name is found twice. -/
theorem nodup_reachableFrom (graph : ScopeGraph) (scope : String) :
    (graph.reachableFrom scope).Nodup :=
  (graph.exists_traversal_reachableFrom scope).choose_spec.distinct

/-- The reachable names of a scope are the scope and all its bases. -/
theorem mem_reachableFrom_iff (graph : ScopeGraph) (scope name : String) :
    name ∈ graph.reachableFrom scope ↔ graph.Inherits scope name :=
  (graph.exists_traversal_reachableFrom scope).choose_spec.mem_seen_iff name

/-- A search that has ended has found what the scope reaches. -/
theorem iterate_eq_of_stack_eq_nil {turns : Nat}
    (ended : (graph.turn^[turns] (launch scope)).stack = []) :
    graph.turn^[turns] (launch scope) = ⟨graph.reachableFrom scope, []⟩ := by
  have final := graph.reachableFrom_eq scope
  rw [search_eq_iterate] at final
  rcases Nat.le_total turns graph.turnBound with early | late
  · rw [← final, ← Nat.sub_add_cancel early, Function.iterate_add_apply,
      Function.iterate_fixed (turn_of_idle ended)]
  · rw [← Nat.sub_add_cancel late, Function.iterate_add_apply, final,
      Function.iterate_fixed (turn_of_idle rfl)]

/-- Every name that is found is read in one turn, so there are as many turns as names. -/
theorem iterate_stack_eq_nil_iff (turns : Nat) :
    (graph.turn^[turns] (launch scope)).stack = [] ↔
      (graph.reachableFrom scope).length ≤ turns := by
  obtain ⟨read, traversal, bounded, busy⟩ := graph.exists_traversal scope turns
  have counted := traversal.split.length_eq
  rw [List.length_append] at counted
  constructor
  · intro ended
    rw [iterate_eq_of_stack_eq_nil ended] at counted
    simp only [List.length_nil] at counted
    omega
  · intro enough
    by_contra pending
    have found : (graph.turn^[turns] (launch scope)).seen ⊆ graph.reachableFrom scope :=
      fun name seen => (graph.mem_reachableFrom_iff scope name).2 (traversal.inherited name seen)
    have fewer := (traversal.distinct.subperm found).length_le
    have some := List.length_pos_of_ne_nil pending
    have reads := busy pending
    omega

/-- The search for what a scope reaches takes a turn for every name it finds. -/
theorem iterate_reachableFrom (graph : ScopeGraph) (scope : String) :
    graph.turn^[(graph.reachableFrom scope).length] (launch scope) =
      ⟨graph.reachableFrom scope, []⟩ :=
  iterate_eq_of_stack_eq_nil ((iterate_stack_eq_nil_iff _).2 le_rfl)

/-! ## Graphs of declarations -/

def ofContracts (contracts : List (String × List String)) : ScopeGraph :=
  contracts.foldl (fun graph (name, bases) => graph.add name bases) {}

/-- The bases of a scope under its last declaration. -/
def LastDeclared (declarations : List (String × List String)) (scope : String)
    (bases : List String) : Prop :=
  ∃ before after, declarations = before ++ (scope, bases) :: after ∧
    ∀ later ∈ after, later.1 ≠ scope

theorem ofContracts_concat (contracts : List (String × List String)) (name : String)
    (bases : List String) :
    ofContracts (contracts ++ [(name, bases)]) = (ofContracts contracts).add name bases := by
  simp [ofContracts]

theorem lookup_ofContracts (contracts : List (String × List String)) (scope : String) :
    (ofContracts contracts).entries.lookup scope = contracts.reverse.lookup scope := by
  induction contracts using List.reverseRecOn with
  | nil => rfl
  | append_singleton contracts contract ih =>
      obtain ⟨name, bases⟩ := contract
      rw [ofContracts_concat, add, Assoc.lookup_put, ih, List.reverse_concat, Assoc.lookup_cons]

/-- The last declaration of a contract counts. -/
theorem bases_ofContracts (contracts : List (String × List String)) (scope : String) :
    (ofContracts contracts).bases scope = (contracts.reverse.lookup scope).getD [] := by
  rw [bases, lookup_ofContracts]

/-- The entry of a scope holds the bases of its last declaration. -/
theorem lookup_ofContracts_iff {contracts : List (String × List String)} {scope : String}
    {bases : List String} :
    (ofContracts contracts).entries.lookup scope = some bases ↔
      LastDeclared contracts scope bases := by
  rw [lookup_ofContracts, List.lookup_eq_some_iff]
  constructor
  · rintro ⟨after, before, same, away⟩
    refine ⟨before.reverse, after.reverse, ?_, fun later member => ?_⟩
    · simpa using congrArg List.reverse same
    · exact Ne.symm (by simpa using away later (List.mem_reverse.1 member))
  · rintro ⟨before, after, rfl, away⟩
    refine ⟨after.reverse, before.reverse, by simp, fun later member => ?_⟩
    simpa using Ne.symm (away later (List.mem_reverse.1 member))

/-- The second name is a base of the first under the last declaration of the first. -/
def LastBase (declarations : List (String × List String)) (scope base : String) : Prop :=
  ∃ bases, LastDeclared declarations scope bases ∧ base ∈ bases

theorem hasBase_ofContracts (contracts : List (String × List String)) :
    (ofContracts contracts).HasBase = LastBase contracts := by
  funext scope base
  rw [HasBase, bases, eq_iff_iff, LastBase]
  simp only [← lookup_ofContracts_iff]
  cases (ofContracts contracts).entries.lookup scope <;> simp

theorem mem_scopes_add (graph : ScopeGraph) (name : String) (bases : List String)
    (scope : String) :
    scope ∈ (graph.add name bases).scopes ↔ scope ∈ graph.scopes ∨ scope = name := by
  unfold scopes add
  rw [Assoc.keys_put]
  split
  · rename_i known
    constructor
    · exact .inl
    · rintro (member | rfl)
      · exact member
      · simpa using known
  · simp

theorem mem_scopes_ofContracts (contracts : List (String × List String)) (scope : String) :
    scope ∈ (ofContracts contracts).scopes ↔ ∃ bases, (scope, bases) ∈ contracts := by
  induction contracts using List.reverseRecOn with
  | nil => simp [ofContracts, scopes, Assoc.keys]
  | append_singleton contracts contract ih =>
      obtain ⟨name, bases⟩ := contract
      rw [ofContracts_concat, mem_scopes_add, ih]
      simp [exists_or]

theorem nodup_scopes_add {graph : ScopeGraph} (distinct : graph.scopes.Nodup) (name : String)
    (bases : List String) : (graph.add name bases).scopes.Nodup :=
  Assoc.nodup_keys_put distinct name bases

/-- Every scope has one entry. -/
theorem nodup_scopes_ofContracts (contracts : List (String × List String)) :
    (ofContracts contracts).scopes.Nodup := by
  induction contracts using List.reverseRecOn with
  | nil => exact List.nodup_nil
  | append_singleton contracts contract ih =>
      rw [ofContracts_concat]
      exact nodup_scopes_add ih _ _

end ScopeGraph

namespace Closure

theorem get?_extend (graph : ScopeGraph) (closure : Closure) (first scope : String) :
    (closure.extend graph first).get? scope =
      (closure.get? scope).or
        (if scope = first then some (graph.reachableFrom scope) else none) := by
  rw [extend]
  split
  · rename_i known
    by_cases here : scope = first
    · subst here
      rw [Option.or_of_isSome known]
    · simp [here]
  · rename_i new
    rw [get?, get?, Assoc.lookup_put]
    by_cases here : scope = first
    · subst here
      rw [get?, Option.not_isSome_iff_eq_none] at new
      simp [new]
    · simp [here]

/-- A closure has exactly the scopes it was computed for. -/
theorem get?_compute (graph : ScopeGraph) (scopes : List String) (scope : String) :
    (compute graph scopes).get? scope =
      if scope ∈ scopes then some (graph.reachableFrom scope) else none := by
  have extended : ∀ closure : Closure, (scopes.foldl (extend graph) closure).get? scope =
      (closure.get? scope).or
        (if scope ∈ scopes then some (graph.reachableFrom scope) else none) := by
    induction scopes with
    | nil => simp
    | cons first rest ih =>
        intro closure
        rw [List.foldl_cons, ih, get?_extend, Option.or_assoc]
        by_cases here : scope = first <;> simp [here]
  exact extended {}

end Closure

/-- Reachability is the closure of inheritance. However scopes are declared, once or again, with
bases that repeat, name the scope itself, form cycles or are not declared, every search of the graph
ends. The search for what a scope reaches, declared or not, reads every name it finds in one turn
and ends after these turns with nothing left to read. It finds every name once, and it finds exactly
the scope itself and what one or more steps to a direct base lead to, where each scope has the bases
of its last declaration. A closure keeps that set for the scopes it was computed for, in whatever
order they are listed and however often, and nothing for any other. -/
theorem reachable_is_closure (declarations : List (String × List String)) :
    let graph := ScopeGraph.ofContracts declarations
    (WellFounded fun after before => graph.Turn before after) ∧
    (∀ scope : String,
      (∀ turns, (graph.turn^[turns] ⟨[scope], [scope]⟩).stack = [] ↔
        (graph.reachableFrom scope).length ≤ turns) ∧
      graph.turn^[(graph.reachableFrom scope).length] ⟨[scope], [scope]⟩ =
        ⟨graph.reachableFrom scope, []⟩ ∧
      (graph.reachableFrom scope).Nodup ∧
      ∀ name, name ∈ graph.reachableFrom scope ↔
        name = scope ∨ TransGen (ScopeGraph.LastBase declarations) scope name) ∧
    ∀ (scopes : List String) (scope : String),
      (Closure.compute graph scopes).get? scope =
        if scope ∈ scopes then some (graph.reachableFrom scope) else none := by
  intro graph
  refine ⟨graph.turn_wellFounded, fun scope => ?_, Closure.get?_compute graph⟩
  refine ⟨ScopeGraph.iterate_stack_eq_nil_iff, graph.iterate_reachableFrom scope,
    graph.nodup_reachableFrom scope, fun name => ?_⟩
  rw [graph.mem_reachableFrom_iff, ScopeGraph.Inherits, ScopeGraph.hasBase_ofContracts,
    reflTransGen_iff_eq_or_transGen]

example : (ScopeGraph.ofContracts
    [("A", ["B"]), ("B", ["C", "B", "A"]), ("A", ["B", "D"])]).reachableFrom "A" =
      ["C", "D", "B", "A"] := by
  decide

end CallDepth
