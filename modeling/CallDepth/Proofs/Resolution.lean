/-
# The function a call leads to

Narrowing candidates down to one returns as soon as one is left. It comes to one preference:
`SourceUnit.choose?` takes, among the candidates that fit the arguments, the first of the scope
itself, else the first (`pickOne_eq`). So a call leads to at most one function, `resolve?`.

The candidates are some of the definitions that the index has for a name, in their order
(`eligible_sublist`). As the index is in step with the functions, these are the definitions of that
name (`Consistent.mem_named_iff`), in ascending order (`Consistent.named_ascending`).
-/
import CallDepth.SourceUnit

namespace CallDepth

namespace SymbolTable

variable {symbols : SymbolTable}

theorem function?_eq_some_iff {id : FunctionId} {definition : Definition} :
    symbols.function? id = some definition ↔
      ∃ entry, symbols.entries[id]? = some entry ∧ entry.definition = definition := by
  rw [function?, functions, List.getElem?_map, Option.map_eq_some_iff]

/-- The id of a function is its place. -/
theorem Consistent.id_of_getElem? (consistent : symbols.Consistent) {place : Nat}
    {entry : FunctionEntry} (found : symbols.entries[place]? = some entry) : entry.id = place := by
  have id : (symbols.entries.map (·.id))[place]? = some entry.id := by
    rw [List.getElem?_map, found, Option.map_some]
  rw [consistent.numbered, List.getElem?_eq_some_iff] at id
  obtain ⟨inside, same⟩ := id
  rw [List.getElem_range] at same
  exact same.symm

/-- The ids of a name are those of the definitions of that name. -/
theorem Consistent.mem_named_iff (consistent : symbols.Consistent) (name : String)
    (id : FunctionId) :
    id ∈ symbols.named name ↔
      ∃ definition, symbols.function? id = some definition ∧ definition.name = name := by
  simp only [consistent.indexed, List.mem_map, List.mem_filter, decide_eq_true_eq,
    function?_eq_some_iff]
  constructor
  · rintro ⟨entry, ⟨member, same⟩, rfl⟩
    obtain ⟨place, found⟩ := List.getElem?_of_mem member
    exact ⟨entry.definition, ⟨entry, consistent.id_of_getElem? found ▸ found, rfl⟩, same⟩
  · rintro ⟨_, ⟨entry, found, rfl⟩, same⟩
    exact ⟨entry, ⟨List.mem_of_getElem? found, same⟩, consistent.id_of_getElem? found⟩

/-- The ids of a name are listed in ascending order. -/
theorem Consistent.named_ascending (consistent : symbols.Consistent) (name : String) :
    (symbols.named name).Pairwise (· < ·) := by
  have part : (symbols.named name).Sublist (List.range symbols.entries.length) := by
    rw [consistent.indexed, ← consistent.numbered]
    exact List.filter_sublist.map _
  exact List.pairwise_lt_range.sublist part

end SymbolTable

namespace SourceUnit

variable (unit : SourceUnit)

/-! ## One candidate -/

/-- The candidates that fit a number of arguments; all of them when none fits. -/
def fitting (argumentCount : Option Nat) (candidates : List FunctionId) : List FunctionId :=
  match argumentCount with
  | none => candidates
  | some count =>
      let exact := candidates.filter (unit.symbols.hasArity count)
      if exact.isEmpty then candidates else exact

/-- The best candidate: of those that fit, the first of the scope itself, else the first. -/
def choose? (argumentCount : Option Nat) (scope : String) (candidates : List FunctionId) :
    Option FunctionId :=
  let fit := unit.fitting argumentCount candidates
  (fit.find? (unit.symbols.isOwnedBy scope)).or fit.head?

/-- The function of the unit that a call from a scope leads to. -/
def resolve? (site : CallSite) (scope : String) : Option FunctionId :=
  (unit.resolve site scope).head?

theorem ownFirst_eq (scope : String) (candidates : List FunctionId) :
    unit.ownFirst scope candidates =
      ((candidates.find? (unit.symbols.isOwnedBy scope)).or candidates.head?).toList := by
  rw [ownFirst]
  cases candidates.find? (unit.symbols.isOwnedBy scope) with
  | some id => rfl
  | none => cases candidates <;> rfl

/-- A single candidate is chosen, whether or not it fits. -/
theorem choose?_singleton (argumentCount : Option Nat) (scope : String) (only : FunctionId) :
    unit.choose? argumentCount scope [only] = some only := by
  have fit : unit.fitting argumentCount [only] = [only] := by
    cases argumentCount with
    | none => rfl
    | some count => cases fits : unit.symbols.hasArity count only <;> simp [fitting, fits]
  rw [choose?, fit]
  cases own : unit.symbols.isOwnedBy scope only <;> simp [own]

/-- Narrowing down is one choice, whatever ends it early. -/
theorem pickOne_eq (argumentCount : Option Nat) (scope : String) (candidates : List FunctionId) :
    unit.pickOne argumentCount scope candidates =
      (unit.choose? argumentCount scope candidates).toList := by
  unfold pickOne
  split
  · rename_i few
    match candidates, few with
    | [], _ => cases argumentCount <;> rfl
    | [only], _ => rw [choose?_singleton, Option.toList_some]
  · cases argumentCount with
    | none => exact unit.ownFirst_eq scope candidates
    | some count =>
        simp only [choose?, fitting]
        generalize candidates.filter (unit.symbols.hasArity count) = exact
        match exact with
        | [] => exact unit.ownFirst_eq scope candidates
        | [only] => cases own : unit.symbols.isOwnedBy scope only <;> simp [own]
        | first :: second :: rest => simp [ownFirst_eq]

/-- The cascade over candidates comes to one choice among them. -/
theorem resolve?_eq_choose? (site : CallSite) (scope : String) :
    unit.resolve? site scope =
      unit.choose? site.argumentCount scope (unit.eligible site.callee scope) := by
  rw [resolve?, resolve, pickOne_eq, Option.head?_toList]

/-- A call leads to one function or none. -/
theorem resolve_eq (site : CallSite) (scope : String) :
    unit.resolve site scope = (unit.resolve? site scope).toList := by
  rw [resolve?_eq_choose?, resolve, pickOne_eq]

/-! ## Candidates -/

/-- The definitions a callee can name are some of the definitions of a name, in their order. -/
theorem eligible_sublist (callee : Option Node) (scope : String) :
    ∃ name, (unit.eligible callee scope).Sublist (unit.symbols.named name) := by
  unfold eligible
  split
  · rename_i name
    refine ⟨name, ?_⟩
    simp only [visible]
    split
    · exact .refl _
    · split
      · exact .refl _
      · split
        · exact .refl _
        · exact List.filter_sublist
  · rename_i base name
    refine ⟨name, ?_⟩
    split
    · exact List.filter_sublist
    · split
      · simp only [ofThis]
        split
        · exact .refl _
        · exact List.filter_sublist
      · exact List.nil_sublist _
  · exact ⟨"", List.nil_sublist _⟩

theorem named_of_mem_eligible {callee : Option Node} {scope : String} {id : FunctionId}
    (member : id ∈ unit.eligible callee scope) : ∃ name, id ∈ unit.symbols.named name :=
  (unit.eligible_sublist callee scope).imp fun _ part => part.subset member

theorem mem_of_mem_fitting {argumentCount : Option Nat} {candidates : List FunctionId}
    {id : FunctionId} (member : id ∈ unit.fitting argumentCount candidates) : id ∈ candidates := by
  unfold fitting at member
  cases argumentCount with
  | none => exact member
  | some count =>
      simp only at member
      split at member
      · exact member
      · exact List.mem_filter.1 member |>.1

theorem mem_of_choose? {argumentCount : Option Nat} {scope : String}
    {candidates : List FunctionId} {id : FunctionId}
    (chosen : unit.choose? argumentCount scope candidates = some id) : id ∈ candidates := by
  unfold choose? at chosen
  rcases Option.or_eq_some_iff.1 chosen with found | ⟨-, first⟩
  · exact unit.mem_of_mem_fitting (List.mem_of_find?_eq_some found)
  · exact unit.mem_of_mem_fitting (List.mem_of_head? first)

/-- A call leads to one of its candidates. -/
theorem mem_eligible_of_resolve? {site : CallSite} {scope : String} {id : FunctionId}
    (resolved : unit.resolve? site scope = some id) : id ∈ unit.eligible site.callee scope :=
  unit.mem_of_choose? (unit.resolve?_eq_choose? site scope ▸ resolved)

/-- A call leads to a definition of the unit. -/
theorem function?_of_resolve? {site : CallSite} {scope : String} {id : FunctionId}
    (resolved : unit.resolve? site scope = some id) :
    ∃ definition, unit.symbols.function? id = some definition := by
  obtain ⟨name, named⟩ := unit.named_of_mem_eligible (unit.mem_eligible_of_resolve? resolved)
  obtain ⟨definition, found, -⟩ := (unit.consistent.mem_named_iff name id).1 named
  exact ⟨definition, found⟩

end SourceUnit

end CallDepth
