/-
# When a trace is kept

The first of equally deep siblings counts, with its trace. A node without calls and a call that
costs nothing are equally deep, so a free call behind a node without calls leaves no trace, and its
function is shown as one without calls (`gate_shown_without_calls`).

What holds is this. A function of positive depth has a trace. A function of depth 0 has one exactly
when the first thing in its body is a call, where first means the first child of the first child,
and so on (`Node.leadsWithCall`). A function without calls has none (`trace_kept_iff`).
-/
import CallDepth.Proofs.Coverage
import CallDepth.Proofs.ZeroDepth
import CallDepth.Report.DeepestTrace

namespace CallDepth

namespace Outcome

theorem foldl_deeper_of_le {first : Outcome} {rest : List Outcome}
    (bounded : ∀ outcome ∈ rest, outcome.depth ≤ first.depth) :
    rest.foldl deeper first = first := by
  induction rest with
  | nil => rfl
  | cons second rest ih =>
      obtain ⟨here, later⟩ := List.forall_mem_cons.1 bounded
      have kept : first.deeper second = first := if_neg (by omega)
      rw [List.foldl_cons, kept, ih later]

/-- Among outcomes of depth 0 the first one counts. -/
theorem deepest_eq_head {outcomes : List Outcome} (zero : (deepest outcomes).depth = 0) :
    deepest outcomes = outcomes.headD floor := by
  cases outcomes with
  | nil => rfl
  | cons first rest =>
      have all := (depth_deepest_le_iff (first :: rest) 0).1 (by omega)
      apply foldl_deeper_of_le
      intro outcome member
      have := all outcome (List.mem_cons_of_mem first member)
      omega

end Outcome

namespace Node

/-- The first thing in a node is a call: the node is one, or its first child leads with one. -/
def leadsWithCall : Node → Bool :=
  fold (fun _ _ _ => true) fun children => children.headD false

theorem leadsWithCall_site (site : CallSite) : site.node.leadsWithCall = true :=
  fold_site _ _ site

theorem leadsWithCall_of_plain {node : Node} (plain : node.callSite? = none) :
    node.leadsWithCall = (node.children.map leadsWithCall).headD false :=
  fold_of_plain _ _ plain

theorem leadsWithCall_eq_false {node : Node} (silent : node.calls = []) :
    node.leadsWithCall = false := by
  induction node using children_induction with
  | site site operands callee =>
      rw [calls_site] at silent
      simp at silent
  | plain node plain children =>
      rw [calls_of_plain plain] at silent
      rw [leadsWithCall_of_plain plain]
      cases inside : node.children with
      | nil => rfl
      | cons first rest =>
          rw [inside, List.flatMap_cons, List.append_eq_nil_iff] at silent
          exact children first (by simp [inside]) silent.1

end Node

def Definition.leadsWithCall (definition : Definition) : Bool :=
  definition.body.any Node.leadsWithCall

theorem Definition.leadsWithCall_eq_false {definition : Definition}
    (silent : definition.calls = []) : definition.leadsWithCall = false := by
  unfold calls at silent
  unfold leadsWithCall
  cases body : definition.body with
  | none => rfl
  | some node =>
      rw [body] at silent
      exact node.leadsWithCall_eq_false silent

namespace Analyzer

variable {analyzer : Analyzer} {caller : Definition} {outcomes : FunctionId → Outcome}

/-- Siblings leave no trace exactly when all are of depth 0 and the first leaves none. -/
theorem deepest_trace_eq_empty_iff {nodes : List Node}
    (each : ∀ node ∈ nodes, (analyzer.measure caller outcomes node).outcome.trace = .empty ↔
      (analyzer.measure caller outcomes node).outcome.depth = 0 ∧ node.leadsWithCall = false) :
    (Walk.deepest (nodes.map (analyzer.measure caller outcomes))).outcome.trace = .empty ↔
      (Walk.deepest (nodes.map (analyzer.measure caller outcomes))).outcome.depth = 0 ∧
        (nodes.map Node.leadsWithCall).headD false = false := by
  have bare := deepest_measure_holds
    (motive := fun outcome => outcome.trace = .empty → outcome.depth = 0) (fun _ => rfl)
    fun node member empty => ((each node member).1 empty).1
  -- At depth 0 nothing is deeper than the first sibling, and at any other depth there is a trace.
  by_cases zero : (Walk.deepest (nodes.map (analyzer.measure caller outcomes))).outcome.depth = 0
  · have chosen : (Walk.deepest (nodes.map (analyzer.measure caller outcomes))).outcome = _ :=
      Outcome.deepest_eq_head zero
    rw [chosen] at zero ⊢
    cases nodes with
    | nil => simp [Outcome.floor]
    | cons first rest => exact each first List.mem_cons_self
  · constructor
    · intro empty
      exact absurd (bare empty) zero
    · rintro ⟨depth, -⟩
      exact absurd depth zero

/-- A node has no trace exactly when it has depth 0 and does not lead with a call. -/
theorem measure_trace_eq_empty_iff (traced : analyzer.options.trace = true) (node : Node) :
    (analyzer.measure caller outcomes node).outcome.trace = .empty ↔
      (analyzer.measure caller outcomes node).outcome.depth = 0 ∧ node.leadsWithCall = false := by
  induction node using Node.children_induction with
  | site site operands callee =>
      rw [measure_site, measureCall_outcome _ _ traced, Node.leadsWithCall_site]
      simp
  | plain node plain children =>
      rw [measure_of_plain _ _ _ plain, Node.leadsWithCall_of_plain plain]
      exact deepest_trace_eq_empty_iff children

theorem conclude_trace_eq_empty_iff (traced : analyzer.options.trace = true) {id : FunctionId}
    {definition : Definition} (defined : analyzer.unit.symbols.function? id = some definition)
    (memo : List (FunctionId × Outcome)) :
    (analyzer.conclude memo id).outcome.trace = .empty ↔
      (analyzer.conclude memo id).outcome.depth = 0 ∧ definition.leadsWithCall = false := by
  rw [conclude_of_found defined, measureBody, walkBody, Definition.leadsWithCall]
  cases definition.body with
  | none => exact ⟨fun _ => ⟨rfl, rfl⟩, fun _ => rfl⟩
  | some body => exact measure_trace_eq_empty_iff traced body

theorem conclude_depth_eq_zero {id : FunctionId} {definition : Definition}
    (defined : analyzer.unit.symbols.function? id = some definition)
    (silent : definition.calls = []) (memo : List (FunctionId × Outcome)) :
    (analyzer.conclude memo id).outcome.depth = 0 := by
  rw [conclude_depth defined, SourceUnit.bodyDepth_eq_zero_iff, silent]
  intro site member
  cases member

section Rows

variable {id : FunctionId} {definition : Definition} {row : FunctionDepth}
  (defined : analyzer.unit.symbols.function? id = some definition)
  (measured : analyzer.measureAll.1[id]? = some row)

include defined measured

/-- The rows of an analysis hold measures of bodies. -/
theorem exists_conclude_of_row :
    ∃ memo, row = definition.measured (analyzer.conclude memo id).outcome := by
  rw [measureAll_row, defined, Option.map_some, Option.some.injEq] at measured
  -- Whenever the row was computed, its outcome comes from one evaluation of the body, against the
  -- outcomes remembered then.
  obtain ⟨settled, -, remembered⟩ := (after_settled (List.range id)).depth id
  obtain ⟨older, -, -, -, origin, -⟩ := settled.history.origin remembered
  refine ⟨older, ?_⟩
  rw [← measured, origin]

theorem row_trace_eq_empty_iff (traced : analyzer.options.trace = true) :
    row.trace = .empty ↔ row.depth = 0 ∧ definition.leadsWithCall = false := by
  obtain ⟨memo, rfl⟩ := exists_conclude_of_row defined measured
  exact conclude_trace_eq_empty_iff traced defined memo

theorem row_depth_eq_zero (silent : definition.calls = []) : row.depth = 0 := by
  obtain ⟨memo, rfl⟩ := exists_conclude_of_row defined measured
  exact conclude_depth_eq_zero defined silent memo

end Rows

end Analyzer

/-! ## What is shown -/

theorem Link.head?_line (link : Link) : link.line.toList.head? = some '•' := by
  unfold line
  simp only [String.toList_append, List.head?_append]
  rfl

theorem head?_intercalate {first : String} {c : Char} (starts : first.toList.head? = some c)
    (separator : String) (rest : List String) :
    (separator.intercalate (first :: rest)).toList.head? = some c := by
  cases rest with
  | nil => simpa using starts
  | cons second rest => simp [starts]

/-- The text of a chain begins with the sign of its first link. -/
theorem Trace.head?_render {trace : Trace} (nonempty : trace ≠ .empty) :
    trace.render.toList.head? = some '•' ∨ trace.render.toList.head? = some '↪' := by
  have outermost : indentation 0 = "" := rfl
  cases trace with
  | empty => exact absurd rfl nonempty
  | call link below =>
      left
      rw [render, lines, outermost, String.empty_append]
      exact head?_intercalate link.head?_line _ _
  | recursion function owner =>
      right
      rw [render, lines, outermost, String.empty_append]
      apply head?_intercalate
      simp

/-- A trace row is shown as having no calls exactly when its trace is empty. -/
theorem TraceRow.render_eq_noCalls_iff (row : TraceRow) :
    row.render = row.title ++ "\n" ++ "(no calls)" ↔ row.trace = .empty := by
  constructor
  · intro shown
    by_contra nonempty
    have chain : row.trace.isEmpty = false := by
      cases kept : row.trace with
      | empty => exact absurd kept nonempty
      | _ => rfl
    rw [render, chain, if_neg Bool.false_ne_true, String.append_right_inj] at shown
    have starts := Trace.head?_render nonempty
    rw [shown] at starts
    revert starts
    decide
  · intro empty
    rw [render, empty]
    rfl

/-- When a trace is kept. If traces are asked for, a function has one exactly when its depth is
positive or the first thing in its body is a call. So a function without calls has none, and free
calls leave none behind a node without calls. Whenever a row of the function is picked, it is shown
as one without calls if it has no trace, and only then. -/
theorem trace_kept_iff (options : Options) (traced : options.trace = true) (root : Node)
    (id : FunctionId) (definition : Definition) (row : FunctionDepth)
    (defined : (SourceUnit.ofTree root).symbols.function? id = some definition)
    (measured : (analyze options root).rows[id]? = some row) :
    (row.trace ≠ .empty ↔ 0 < row.depth ∨ definition.leadsWithCall = true) ∧
    (definition.calls = [] → row.trace = .empty) ∧
    ∀ (file target : String) (traces : List TraceRow),
      pickTrace? (some target) traces = some (row.traceRow file) →
      (renderTrace (some target) traces =
        (row.traceRow file).title ++ "\n" ++ "(no calls)" ↔ row.trace = .empty) := by
  let analyzer : Analyzer := ⟨SourceUnit.ofTree root, options⟩
  have listed : analyzer.measureAll.1[id]? = some row := measured
  have kept : row.trace = .empty ↔ row.depth = 0 ∧ definition.leadsWithCall = false :=
    Analyzer.row_trace_eq_empty_iff defined listed traced
  refine ⟨?_, fun silent => ?_, fun file target traces picked => ?_⟩
  · rw [ne_eq, kept, not_and_or, Bool.not_eq_false, Nat.pos_iff_ne_zero]
  · have zero := Analyzer.row_depth_eq_zero defined listed silent
    exact kept.2 ⟨zero, definition.leadsWithCall_eq_false silent⟩
  · have shown : renderTrace (some target) traces = (row.traceRow file).render := by
      rw [renderTrace, picked]
    rw [shown]
    exact (row.traceRow file).render_eq_noCalls_iff

/-- Two functions that declare something and make a free call, in the one order and in the other. -/
def turnstile : Node :=
  let declaration : Node := .other "VariableDeclarationStatement" [.elementaryType "uint256"]
  let check : Node := .call false (some (.identifier "require")) (some 1) [.identifier "open"]
  .contract "Turnstile" "contract" [] [
    .function "enter" 0 "public" "" (some (.other "Block" [check, declaration])) [],
    .function "leave" 0 "public" "" (some (.other "Block" [declaration, check])) []]

def turnstileEnter : FunctionDepth where
  contract := "Turnstile"
  function := "enter"
  visibility := "public"
  mutability := ""
  depth := 0
  trace := .call ⟨"require", 0, ⟨0, 0, 0⟩, .callee, none⟩ .empty

/-- The trace of `enter` is kept for the call in front, and so it is shown. -/
theorem turnstile_trace_kept :
    ∃ definition,
      (SourceUnit.ofTree turnstile).symbols.function? 0 = some definition ∧
      (analyze { trace := true } turnstile).rows[0]? = some turnstileEnter ∧
      (turnstileEnter.trace ≠ .empty ↔
        0 < turnstileEnter.depth ∨ definition.leadsWithCall = true) ∧
      (definition.calls = [] → turnstileEnter.trace = .empty) ∧
      renderTrace (some "enter") [turnstileEnter.traceRow "Turnstile.json"] ≠
        (turnstileEnter.traceRow "Turnstile.json").title ++ "\n" ++ "(no calls)" := by
  have measured : (analyze { trace := true } turnstile).rows[0]? = some turnstileEnter := by
    decide +kernel
  obtain ⟨kept, silent, shown⟩ :=
    trace_kept_iff { trace := true } rfl turnstile 0 _ turnstileEnter rfl measured
  have nonempty : turnstileEnter.trace ≠ .empty := by decide
  have picked : pickTrace? (some "enter") [turnstileEnter.traceRow "Turnstile.json"] =
      some (turnstileEnter.traceRow "Turnstile.json") := by
    decide
  exact ⟨_, rfl, measured, kept, silent, fun same => nonempty ((shown _ _ _ picked).1 same)⟩

/-- A function that declares something and then makes a free call. -/
def gate : Document where
  file := "Gate.json"
  value := .object [("type", .text "ContractDefinition"), ("name", .text "Gate"),
    ("kind", .text "contract"), ("subNodes", .list [.object [
      ("type", .text "FunctionDefinition"), ("name", .text "enter"), ("parameters", .list []),
      ("body", .object [("type", .text "Block"), ("statements", .list [
        .object [("type", .text "VariableDeclarationStatement"), ("variables", .list [])],
        .object [("type", .text "ExpressionStatement"), ("expression", .object [
          ("type", .text "FunctionCall"),
          ("expression", .object [("type", .text "Identifier"), ("name", .text "require")]),
          ("arguments", .list [.object [("type", .text "Identifier"),
            ("name", .text "open")]])])]])])]])]

/-- The function calls `require`, has no trace, and is shown as one without calls. -/
theorem gate_shown_without_calls :
    (∃ root, Node.ofRoot gate.value = .ok root ∧
      ((SourceUnit.ofTree root).symbols.function? 0).map
        (fun definition => definition.calls.map CallSite.label) = some ["require"]) ∧
    (Report.ofDocuments { trace := true } [gate]).traces =
      [⟨"Gate.json", "Gate", "enter", 0, .empty⟩] ∧
    renderTrace (some "enter") (Report.ofDocuments { trace := true } [gate]).traces =
      "Trace for Gate.enter in Gate.json (depth 0)\n(no calls)" :=
  ⟨⟨_, rfl, by decide +kernel⟩, by decide +kernel, by decide +kernel⟩

end CallDepth
