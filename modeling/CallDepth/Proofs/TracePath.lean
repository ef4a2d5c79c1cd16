/-
# Traces are paths of the program

Every trace that is kept belongs to a path through the program (`trace_is_path`). A `Visit` is a
call together with the function in whose body it stands, and `Path` gives a visit to each link of a
trace:

* the visited call has the label, the weight and the mark of the link (`Fits`);
* below a link that goes on with its arguments or its callee expression, the next call stands
  inside these and in the same function; below one that goes on with its callee, the next call
  stands in the function that the call leads to (`Continues`);
* a recursive call at the end names a function that the last call leads to, on a common cycle with
  the function of that call (`Returns`).

The links of a callee are those remembered for it, so `History` carries the paths from callees to
callers. A recursive call is told for a callee that leads back to its caller.
-/
import CallDepth.Proofs.Run

namespace CallDepth

open Relation

/-- A call in the body of a function. -/
structure Visit where
  caller : FunctionId
  site : CallSite

namespace SourceUnit

/-- The call of a visit leads to a function. -/
def LeadsTo (unit : SourceUnit) (visit : Visit) (callee : FunctionId) : Prop :=
  ∃ definition, unit.symbols.function? visit.caller = some definition ∧
    unit.resolve? visit.site definition.owner = some callee

/-- A visit stands in the body of its function, and a link describes its call as seen from there. -/
def Fits (unit : SourceUnit) (visit : Visit) (link : Link) : Prop :=
  ∃ definition, unit.symbols.function? visit.caller = some definition ∧
    visit.site ∈ definition.calls ∧
    link.label = visit.site.label ∧
    link.weight = unit.weight visit.site (unit.resolve? visit.site definition.owner).isSome ∧
    link.callee = (unit.resolve? visit.site definition.owner).map fun _ => userDefined

/-- A trace that goes on with a branch of a visited call goes on with the next visit. -/
def Continues (unit : SourceUnit) (visit : Visit) (via : Branch) (next : Visit) : Prop :=
  match via with
  | .args => next.caller = visit.caller ∧ next.site ∈ visit.site.operands.flatMap Node.calls
  | .expr => next.caller = visit.caller ∧ next.site ∈ visit.site.callee.toList.flatMap Node.calls
  | .callee => unit.LeadsTo visit next.caller

/-- The call of a visit leads to a function of a name and an owner, and that one leads back. -/
def Returns (unit : SourceUnit) (visit : Visit) (function owner : String) : Prop :=
  ∃ id definition, unit.symbols.function? id = some definition ∧ definition.name = function ∧
    definition.owner = owner ∧ unit.LeadsTo visit id ∧ unit.Reaches id visit.caller ∧
    unit.OnCommonCycle visit.caller id

/-- A trace follows visits, one for each of its links. -/
inductive Path (unit : SourceUnit) : List Visit → Trace → Prop where
  | last {visit : Visit} {link : Link} (fits : unit.Fits visit link) :
      Path unit [visit] (.call link .empty)
  | recursion {visit : Visit} {link : Link} {function owner : String}
      (fits : unit.Fits visit link) (via : link.via = .callee)
      (returns : unit.Returns visit function owner) :
      Path unit [visit] (.call link (.recursion function owner))
  | call {visit next : Visit} {rest : List Visit} {link : Link} {below : Trace}
      (fits : unit.Fits visit link) (continues : unit.Continues visit link.via next)
      (path : Path unit (next :: rest) below) :
      Path unit (visit :: next :: rest) (.call link below)

/-- A trace is empty or a path that begins with one of some calls in the body of a function. -/
def Routed (unit : SourceUnit) (id : FunctionId) (sites : List CallSite) (trace : Trace) : Prop :=
  trace = .empty ∨ ∃ site ∈ sites, ∃ rest, unit.Path (⟨id, site⟩ :: rest) trace

/-- What a caller is told of a callee: a path of the callee, or that the callee leads back. -/
def Told (unit : SourceUnit) (caller callee : FunctionId) (trace : Trace) : Prop :=
  (∃ sites, unit.Routed callee sites trace) ∨
    ∃ definition, unit.symbols.function? callee = some definition ∧
      trace = .recursion definition.name definition.owner ∧ unit.Reaches callee caller

variable {unit : SourceUnit} {id : FunctionId}

theorem Routed.mono {sites more : List CallSite} {trace : Trace} (subset : sites ⊆ more)
    (routed : unit.Routed id sites trace) : unit.Routed id more trace := by
  rcases routed with none | ⟨site, member, rest, path⟩
  · exact .inl none
  · exact .inr ⟨site, subset member, rest, path⟩

/-- A link goes on top of a path whose visits continue its own. -/
theorem Routed.extend {sites : List CallSite} {visit : Visit} {link : Link} {below : Trace}
    (routed : unit.Routed id sites below) (fits : unit.Fits visit link)
    (continues : ∀ site ∈ sites, unit.Continues visit link.via ⟨id, site⟩) :
    ∃ rest, unit.Path (visit :: rest) (.call link below) := by
  rcases routed with rfl | ⟨site, member, rest, path⟩
  · exact ⟨[], .last fits⟩
  · exact ⟨_, .call fits (continues site member) path⟩

/-- A link that goes on with its callee goes on top of what is told of the callee. -/
theorem Told.extend {definition : Definition} {site : CallSite} {link : Link} {callee : FunctionId}
    {below : Trace} (told : unit.Told id callee below)
    (found : unit.symbols.function? id = some definition) (inside : site ∈ definition.calls)
    (resolved : unit.resolve? site definition.owner = some callee)
    (fits : unit.Fits ⟨id, site⟩ link) (via : link.via = .callee) :
    ∃ rest, unit.Path (⟨id, site⟩ :: rest) (.call link below) := by
  have leads : unit.LeadsTo ⟨id, site⟩ callee := ⟨definition, found, resolved⟩
  rcases told with ⟨sites, routed⟩ | ⟨reached, named, rfl, back⟩
  · refine routed.extend fits fun _ _ => ?_
    rw [via]
    exact leads
  · have calls : unit.Calls id callee := ⟨definition, site, found, inside, resolved⟩
    exact ⟨[], .recursion fits via
      ⟨callee, reached, named, rfl, rfl, leads, back, calls.onCommonCycle back⟩⟩

end SourceUnit

namespace Analyzer

variable {analyzer : Analyzer} {id : FunctionId} {definition : Definition}
variable {outcomes : FunctionId → Outcome}

/-- The link of a call describes it as seen from its function. -/
theorem callLink_fits (outcomes : FunctionId → Outcome)
    (found : analyzer.unit.symbols.function? id = some definition)
    {site : CallSite} (inside : site ∈ definition.calls) (args expr : Outcome) :
    analyzer.unit.Fits ⟨id, site⟩ (analyzer.callLink site args expr
      ((analyzer.unit.resolve? site definition.owner).map outcomes)) := by
  refine ⟨definition, found, inside, rfl, ?_, ?_⟩
  · simp [callLink]
  · cases analyzer.unit.resolve? site definition.owner <;> rfl

/-- The trace of a call is a path when the traces of its parts are. -/
theorem call_routed (found : analyzer.unit.symbols.function? id = some definition)
    {site : CallSite} (inside : site ∈ definition.calls)
    (told : ∀ callee, analyzer.unit.Calls id callee →
      analyzer.unit.Told id callee (outcomes callee).trace)
    {args expr : Outcome}
    (argsRouted : analyzer.unit.Routed id (site.operands.flatMap Node.calls) args.trace)
    (exprRouted : analyzer.unit.Routed id (site.callee.toList.flatMap Node.calls) expr.trace) :
    ∃ rest, analyzer.unit.Path (⟨id, site⟩ :: rest)
      (.call
        (analyzer.callLink site args expr
          ((analyzer.unit.resolve? site definition.owner).map outcomes))
        (analyzer.callRest site args expr
          ((analyzer.unit.resolve? site definition.owner).map outcomes)).trace) := by
  have fits := callLink_fits outcomes found inside args expr
  unfold callRest
  cases via : (analyzer.callLink site args expr
    ((analyzer.unit.resolve? site definition.owner).map outcomes)).via with
  | args =>
      refine argsRouted.extend fits fun next member => ?_
      rw [via]
      exact ⟨rfl, member⟩
  | expr =>
      refine exprRouted.extend fits fun next member => ?_
      rw [via]
      exact ⟨rfl, member⟩
  | callee =>
      cases resolved : analyzer.unit.resolve? site definition.owner with
      | none =>
          rw [resolved] at fits
          exact ⟨[], .last fits⟩
      | some callee =>
          rw [resolved] at fits via
          exact (told callee ⟨definition, site, found, inside, resolved⟩).extend found inside
            resolved fits via

theorem deepest_measure_routed {nodes : List Node}
    (inside : nodes.flatMap Node.calls ⊆ definition.calls)
    (each : ∀ node ∈ nodes, node.calls ⊆ definition.calls → analyzer.unit.Routed id node.calls
      (analyzer.measure definition outcomes node).outcome.trace) :
    analyzer.unit.Routed id (nodes.flatMap Node.calls)
      (Walk.deepest (nodes.map (analyzer.measure definition outcomes))).outcome.trace := by
  refine deepest_measure_holds
    (motive := fun outcome => analyzer.unit.Routed id (nodes.flatMap Node.calls) outcome.trace)
    (.inl rfl) fun node member => ?_
  have subset : node.calls ⊆ nodes.flatMap Node.calls := fun site called =>
    List.mem_flatMap.2 ⟨node, member, called⟩
  exact (each node member fun site called => inside (subset called)).mono subset

/-- The trace of a node is a path that starts with one of its calls. -/
theorem measure_routed (traced : analyzer.options.trace = true)
    (found : analyzer.unit.symbols.function? id = some definition)
    (told : ∀ callee, analyzer.unit.Calls id callee →
      analyzer.unit.Told id callee (outcomes callee).trace)
    (node : Node) (inside : node.calls ⊆ definition.calls) :
    analyzer.unit.Routed id node.calls
      (analyzer.measure definition outcomes node).outcome.trace := by
  induction node using Node.children_induction with
  | site site operands callee =>
      rw [Node.calls_site, List.append_subset, List.append_subset] at inside
      obtain ⟨⟨args, expr⟩, self⟩ := inside
      obtain ⟨rest, path⟩ := call_routed found (self List.mem_cons_self) told
        (deepest_measure_routed args operands) (deepest_measure_routed expr callee)
      rw [measure_site, measureCall_outcome _ _ traced]
      refine .inr ⟨site, ?_, rest, path⟩
      simp [Node.calls_site]
  | plain node plain children =>
      rw [Node.calls_of_plain plain] at inside ⊢
      rw [measure_of_plain _ _ _ plain]
      exact deepest_measure_routed inside children

theorem History.routed (traced : analyzer.options.trace = true)
    {memo : List (FunctionId × Outcome)} {log : List CallEvent}
    (history : analyzer.History memo log) {outcome : Outcome}
    (found : memo.lookup id = some outcome) :
    ∃ sites, analyzer.unit.Routed id sites outcome.trace := by
  refine history.remembered_induction
    (motive := fun id outcome => ∃ sites, analyzer.unit.Routed id sites outcome.trace) ?_ found
  intro older id _ earlier back
  have told : ∀ callee, analyzer.unit.Calls id callee →
      analyzer.unit.Told id callee (analyzer.presumed older callee).trace := by
    intro callee calls
    cases known : older.lookup callee with
    | some outcome => exact presumed_of_found known ▸ .inl (earlier callee outcome known)
    | none =>
        obtain ⟨reached, named⟩ := calls.defined
        rw [presumed_of_missing known]
        exact .inr ⟨reached, named, by simp [recursive, traced, named], back callee calls known⟩
  refine conclude_holds
    (motive := fun outcome => ∃ sites, analyzer.unit.Routed id sites outcome.trace)
    ⟨[], .inl rfl⟩ fun definition node defined body => ⟨node.calls, ?_⟩
  refine measure_routed traced defined told node ?_
  simp [Definition.calls, body]

/-- Traces are paths of the program. When traces are kept, every trace that is remembered for a
function after any measurements is empty or follows visits, the first of them in the function. -/
theorem trace_is_path (analyzer : Analyzer) (traced : analyzer.options.trace = true)
    (ids : List FunctionId) (id : FunctionId) (outcome : Outcome)
    (found : (analyzer.after ids).outcome? id = some outcome)
    (nonempty : outcome.trace ≠ .empty) :
    ∃ site rest, analyzer.unit.Path (⟨id, site⟩ :: rest) outcome.trace := by
  obtain ⟨sites, routed⟩ := (after_settled ids).history.routed traced found
  obtain ⟨site, -, rest, path⟩ := routed.resolve_left nonempty
  exact ⟨site, rest, path⟩

theorem parity_trace_is_path :
    parity.options.trace = true ∧ (parity.after [0]).outcome? 0 = some parityEven ∧
      parityEven.trace ≠ .empty ∧
      ∃ site rest, parity.unit.Path (⟨0, site⟩ :: rest) parityEven.trace := by
  have remembered : (parity.after [0]).outcome? 0 = some parityEven := by decide +kernel
  have nonempty : parityEven.trace ≠ .empty := by decide
  exact ⟨rfl, remembered, nonempty, trace_is_path parity rfl [0] 0 parityEven remembered nonempty⟩

end Analyzer

end CallDepth
