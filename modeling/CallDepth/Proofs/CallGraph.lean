/-
# The call graph of a unit

`unit.Calls f g` says that some call in the body of `f` leads, from the owner of `f`, to `g`.
`unit.Reaches` is its reflexive and transitive closure. A function lies on a cycle when it reaches
itself by at least one call, and two functions lie on a common cycle when each reaches the other so.

Calls lead to definitions of the unit only (`Calls.defined`), since resolution chooses among the
definitions of a name.
-/
import CallDepth.Proofs.Measure
import Mathlib.Logic.Relation

namespace CallDepth

open Relation

namespace SourceUnit

variable (unit : SourceUnit)

/-- The functions that calls in the body of a function lead to, in evaluation order. -/
def callees (id : FunctionId) : List FunctionId :=
  match unit.symbols.function? id with
  | none => []
  | some definition => unit.targets definition.owner definition.calls

/-- Some call in the body of the first function leads to the second. -/
def Calls (caller callee : FunctionId) : Prop :=
  ∃ definition site, unit.symbols.function? caller = some definition ∧
    site ∈ definition.calls ∧ unit.resolve? site definition.owner = some callee

/-- The first function leads to the second by calls, or they are the same. -/
def Reaches : FunctionId → FunctionId → Prop :=
  ReflTransGen unit.Calls

/-- A function leads back to itself by at least one call. -/
def OnCycle (id : FunctionId) : Prop :=
  TransGen unit.Calls id id

/-- Each of two functions leads to the other by at least one call. -/
def OnCommonCycle (first second : FunctionId) : Prop :=
  TransGen unit.Calls first second ∧ TransGen unit.Calls second first

variable {unit}

theorem mem_callees_iff {caller callee : FunctionId} :
    callee ∈ unit.callees caller ↔ unit.Calls caller callee := by
  unfold callees Calls targets
  cases unit.symbols.function? caller with
  | none => simp
  | some definition => simp

instance (caller callee : FunctionId) : Decidable (unit.Calls caller callee) :=
  decidable_of_iff (callee ∈ unit.callees caller) mem_callees_iff

theorem mem_targets_iff_calls {caller callee : FunctionId} {definition : Definition}
    (found : unit.symbols.function? caller = some definition) :
    callee ∈ unit.targets definition.owner definition.calls ↔ unit.Calls caller callee := by
  rw [← mem_callees_iff, callees, found]

/-- What is called is a function of the unit. -/
theorem Calls.defined {caller callee : FunctionId} (called : unit.Calls caller callee) :
    ∃ definition, unit.symbols.function? callee = some definition := by
  obtain ⟨definition, site, -, -, resolved⟩ := called
  exact unit.function?_of_resolve? resolved

theorem Calls.lt_length {caller callee : FunctionId} (called : unit.Calls caller callee) :
    callee < unit.symbols.functions.length := by
  obtain ⟨definition, found⟩ := called.defined
  exact (List.getElem?_eq_some_iff.1 found).1

theorem Reaches.lt_length {id other : FunctionId} (reaches : unit.Reaches id other)
    (inside : id < unit.symbols.functions.length) : other < unit.symbols.functions.length := by
  cases reaches with
  | refl => exact inside
  | tail _ called => exact called.lt_length

/-- A list of functions that holds the callees of its members holds all that they reach. -/
theorem Reaches.mem_of_closed {ids : List FunctionId} {id other : FunctionId}
    (reaches : unit.Reaches id other)
    (closed : ∀ caller ∈ ids, ∀ callee ∈ unit.callees caller, callee ∈ ids) (member : id ∈ ids) :
    other ∈ ids := by
  induction reaches with
  | refl => exact member
  | tail _ called ih => exact closed _ ih _ (mem_callees_iff.2 called)

/-- A callee that leads back to its caller lies on a common cycle with it. -/
theorem Calls.onCommonCycle {caller callee : FunctionId} (called : unit.Calls caller callee)
    (back : unit.Reaches callee caller) : unit.OnCommonCycle caller callee := by
  refine ⟨.single called, ?_⟩
  rcases reflTransGen_iff_eq_or_transGen.1 back with same | path
  · subst same
    exact .single called
  · exact path

theorem OnCommonCycle.onCycle {first second : FunctionId}
    (common : unit.OnCommonCycle first second) : unit.OnCycle first ∧ unit.OnCycle second :=
  ⟨common.1.trans common.2, common.2.trans common.1⟩

end SourceUnit

end CallDepth
