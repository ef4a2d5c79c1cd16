/-
# Options do not change results

Traces and narration are made in the same walk that decides the depths. They have no say in it: two
analyzers of one unit, with any options, run in step (`Analyzer.inStep_of_sameUnit`). Outcomes agree
in their depth, and in their trace if both analyzers keep traces or neither does. So rows and
failures of a report are the same under all settings, and its traces depend only on whether traces
are kept.
-/
import CallDepth.Proofs.Lockstep
import CallDepth.Report.Basic

namespace CallDepth

namespace Analyzer

/-- Both analyzers keep traces, or neither does. -/
def SameTraces (first second : Analyzer) : Prop :=
  first.options.trace = second.options.trace

variable {first second : Analyzer}

section Walks

variable (sameUnit : first.unit = second.unit) (caller : Definition)

theorem deepest_measure_agrees {outcomes others : FunctionId → Outcome} {nodes : List Node}
    (each : ∀ node ∈ nodes, (first.measure caller outcomes node).outcome.Agrees
      (SameTraces first second) (second.measure caller others node).outcome) :
    (Walk.deepest (nodes.map (first.measure caller outcomes))).outcome.Agrees
      (SameTraces first second)
      (Walk.deepest (nodes.map (second.measure caller others))).outcome := by
  refine Outcome.agrees_deepest ?_
  simp only [List.map_map, List.forall₂_map_left_iff, List.forall₂_map_right_iff]
  exact List.forall₂_same.2 each

include sameUnit

theorem measureCall_agrees (site : CallSite) {args otherArgs expr otherExpr : Walk}
    {callee otherCallee : Option Outcome}
    (argsAgree : args.outcome.Agrees (SameTraces first second) otherArgs.outcome)
    (exprAgree : expr.outcome.Agrees (SameTraces first second) otherExpr.outcome)
    (calleeAgree : Option.Rel (Outcome.Agrees (SameTraces first second)) callee otherCallee) :
    (first.measureCall caller site args expr callee).outcome.Agrees (SameTraces first second)
      (second.measureCall caller site otherArgs otherExpr otherCallee).outcome := by
  obtain ⟨reached, resolved⟩ := Outcome.agrees_getD calleeAgree
  constructor
  · simp only [measureCall, sameUnit, argsAgree.depth, exprAgree.depth, reached.depth, resolved]
  · intro same
    have marks : (callee.map fun _ => userDefined) = otherCallee.map fun _ => userDefined := by
      cases calleeAgree <;> rfl
    have kept : first.options.trace = second.options.trace := same
    simp only [measureCall, sameUnit, argsAgree.eq same, exprAgree.eq same, reached.eq same,
      resolved, marks, kept]

/-- Under outcomes that agree, the measures of a node agree. -/
theorem measure_agrees {outcomes others : FunctionId → Outcome}
    (agree : ∀ id, (outcomes id).Agrees (SameTraces first second) (others id)) (node : Node) :
    (first.measure caller outcomes node).outcome.Agrees (SameTraces first second)
      (second.measure caller others node).outcome := by
  induction node using Node.children_induction with
  | site site operands callee =>
      rw [measure_site, measure_site, sameUnit]
      refine measureCall_agrees sameUnit caller site
        (deepest_measure_agrees caller operands)
        (deepest_measure_agrees caller callee) ?_
      cases second.unit.resolve? site caller.owner with
      | none => exact .none
      | some id => exact .some (agree id)
  | plain node plain children =>
      rw [measure_of_plain _ _ _ plain, measure_of_plain _ _ _ plain]
      exact deepest_measure_agrees caller children

omit caller

theorem recursive_agrees (id : FunctionId) :
    (first.recursive id).Agrees (SameTraces first second) (second.recursive id) := by
  refine ⟨rfl, fun same => ?_⟩
  have kept : first.options.trace = second.options.trace := same
  simp only [recursive, kept, sameUnit]

theorem presumed_agrees {memo others : List (FunctionId × Outcome)}
    (agree : MemosAgree (SameTraces first second) memo others) (id : FunctionId) :
    (first.presumed memo id).Agrees (SameTraces first second) (second.presumed others id) := by
  have known := agree.lookup id
  unfold presumed
  generalize memo.lookup id = found at known ⊢
  generalize others.lookup id = other at known ⊢
  cases known with
  | none => exact recursive_agrees sameUnit id
  | some agrees => exact agrees

/-- Options do not change what the measure of a body comes to. -/
theorem conclude_agrees {memo others : List (FunctionId × Outcome)}
    (agree : MemosAgree (SameTraces first second) memo others) (id : FunctionId) :
    (first.conclude memo id).outcome.Agrees (SameTraces first second)
      (second.conclude others id).outcome := by
  cases found : second.unit.symbols.function? id with
  | none =>
      simp only [conclude, sameUnit, found]
      exact .refl _
  | some definition =>
      rw [conclude_of_found found, conclude_of_found (sameUnit ▸ found)]
      unfold measureBody walkBody
      cases definition.body with
      | none => exact .refl _
      | some body => exact measure_agrees sameUnit definition (presumed_agrees sameUnit agree) body

end Walks

section Runs

variable (sameUnit : first.unit = second.unit)
include sameUnit

/-- Analyzers of one unit run in step, whatever their options. -/
theorem inStep_of_sameUnit : first.InStep (SameTraces first second) second where
  length := by rw [sameUnit]
  callees := fun id => by rw [sameUnit]
  conclude := fun agree id => conclude_agrees sameUnit agree id

theorem depth_agrees {engine other : Engine}
    (agree : engine.Agrees (SameTraces first second) other) (id : FunctionId) :
    (first.depth engine id).1.Agrees (SameTraces first second) (second.depth other id).1 ∧
      (first.depth engine id).2.Agrees (SameTraces first second) (second.depth other id).2 :=
  (inStep_of_sameUnit sameUnit).depth_agrees agree id

theorem after_agrees (ids : List FunctionId) :
    (first.after ids).Agrees (SameTraces first second) (second.after ids) :=
  (inStep_of_sameUnit sameUnit).after_agrees ids

end Runs

/-! ## Without traces -/

/-- Without traces no outcome has one. -/
theorem measure_trace_eq_empty {analyzer : Analyzer} (untraced : analyzer.options.trace = false)
    (caller : Definition) (outcomes : FunctionId → Outcome) (node : Node) :
    (analyzer.measure caller outcomes node).outcome.trace = .empty := by
  induction node using Node.children_induction with
  | site site operands callee => simp [measure_site, measureCall, untraced]
  | plain node plain children =>
      rw [measure_of_plain _ _ _ plain]
      exact deepest_measure_holds (motive := fun outcome => outcome.trace = .empty) rfl children

/-- An analyzer that keeps no traces remembers none. -/
theorem History.trace_eq_empty {analyzer : Analyzer} (untraced : analyzer.options.trace = false)
    {memo : List (FunctionId × Outcome)} {log : List CallEvent}
    (history : analyzer.History memo log) {id : FunctionId} {outcome : Outcome}
    (found : memo.lookup id = some outcome) : outcome.trace = .empty :=
  history.remembered_induction (motive := fun _ outcome => outcome.trace = .empty)
    (fun _ _ _ _ _ => conclude_holds (motive := fun outcome => outcome.trace = .empty) rfl
      fun definition node _ _ => measure_trace_eq_empty untraced definition _ node) found

end Analyzer

/-! ## Rows and reports -/

section Rows

variable (first second : Options) (root : Node)

/-- Two analyses of a tree give the same rows up to traces. -/
theorem analyze_row_agrees (id : Nat) :
    ∃ (definition? : Option Definition) (outcome other : Outcome),
      (analyze first root).rows[id]? = definition?.map (Definition.measured · outcome) ∧
      (analyze second root).rows[id]? = definition?.map (Definition.measured · other) ∧
      outcome.Agrees (first.trace = second.trace) other := by
  let analyzer : Analyzer := ⟨.ofTree root, first⟩
  let other : Analyzer := ⟨.ofTree root, second⟩
  have sameUnit : analyzer.unit = other.unit := rfl
  exact ⟨_, _, _, analyzer.measureAll_row id, other.measureAll_row id,
    (Analyzer.inStep_of_sameUnit sameUnit).row_agrees id⟩

theorem analyze_rows_eq (file : String) :
    (analyze first root).rows.map (·.row file) = (analyze second root).rows.map (·.row file) := by
  refine List.ext_getElem? fun id => ?_
  obtain ⟨definition?, outcome, other, row, otherRow, agrees⟩ :=
    analyze_row_agrees first second root id
  rw [List.getElem?_map, List.getElem?_map, row, otherRow]
  cases definition? with
  | none => rfl
  | some definition =>
      simp [Definition.measured, FunctionDepth.row, agrees.depth]

theorem analyze_rows_eq_of_traces (same : first.trace = second.trace) :
    (analyze first root).rows = (analyze second root).rows := by
  refine List.ext_getElem? fun id => ?_
  obtain ⟨definition?, outcome, other, row, otherRow, agrees⟩ :=
    analyze_row_agrees first second root id
  rw [row, otherRow, agrees.eq same]

end Rows

/-- The reports of a document under two settings have the same rows and failures, and the same
traces if both keep traces or neither does. -/
theorem Document.report_agrees (first second : Settings) (document : Document) :
    (document.report first).rows = (document.report second).rows ∧
      (document.report first).failures = (document.report second).failures ∧
      (first.trace = second.trace →
        (document.report first).traces = (document.report second).traces) := by
  unfold Document.report Document.analyze
  cases Node.ofRoot document.value with
  | error error => exact ⟨rfl, rfl, fun _ => rfl⟩
  | ok root =>
      have rows := analyze_rows_eq first.toOptions second.toOptions root document.file
      refine ⟨rows, rfl, fun same => ?_⟩
      simp only [Except.map, same, analyze_rows_eq_of_traces _ _ root same]

/-- Batches have the same rows and failures under all settings. -/
theorem Report.ofDocuments_agrees (first second : Settings) (documents : List Document) :
    (Report.ofDocuments first documents).rows = (Report.ofDocuments second documents).rows ∧
      (Report.ofDocuments first documents).failures =
        (Report.ofDocuments second documents).failures ∧
      (first.trace = second.trace →
        (Report.ofDocuments first documents).traces =
          (Report.ofDocuments second documents).traces) := by
  have each := Document.report_agrees first second
  simp only [Report.ofDocuments_eq_concat, Report.concat, List.flatMap_map]
  refine ⟨?_, ?_, fun same => ?_⟩
  · exact congrArg (documents.flatMap ·) (funext fun document => (each document).1)
  · exact congrArg (documents.flatMap ·) (funext fun document => (each document).2.1)
  · exact congrArg (documents.flatMap ·) (funext fun document => (each document).2.2 same)

/-- Options change no result. On one unit and for any measurements, two analyzers give the same
depths and complete equally many definitions, whatever they narrate; the outcomes are the same when
both keep traces or neither does, and without traces they have none. Reports under any two settings
have the same rows and the same failures, and the same traces when both keep traces or neither does.
-/
theorem results_independent_of_options (first second : Analyzer)
    (sameUnit : first.unit = second.unit) :
    (∀ ids id, (first.depth (first.after ids) id).1.depth =
      (second.depth (second.after ids) id).1.depth) ∧
    (∀ ids, (first.after ids).completed = (second.after ids).completed) ∧
    (first.options.trace = second.options.trace → ∀ ids id,
      (first.depth (first.after ids) id).1 = (second.depth (second.after ids) id).1) ∧
    (first.options.trace = false → ∀ ids id outcome,
      (first.after ids).outcome? id = some outcome ∨
        (first.depth (first.after ids) id).1 = outcome → outcome.trace = .empty) ∧
    ∀ (settings others : Settings) (documents : List Document),
      (Report.ofDocuments settings documents).rows = (Report.ofDocuments others documents).rows ∧
      (Report.ofDocuments settings documents).failures =
        (Report.ofDocuments others documents).failures ∧
      (settings.trace = others.trace → (Report.ofDocuments settings documents).traces =
        (Report.ofDocuments others documents).traces) := by
  have outcomes : ∀ ids id, (first.depth (first.after ids) id).1.Agrees
      (first.options.trace = second.options.trace) (second.depth (second.after ids) id).1 :=
    fun ids id => (Analyzer.depth_agrees sameUnit (Analyzer.after_agrees sameUnit ids) id).1
  refine ⟨fun ids id => (outcomes ids id).depth,
    fun ids => (Analyzer.after_agrees sameUnit ids).completed,
    fun same ids id => (outcomes ids id).eq same, ?_, Report.ofDocuments_agrees⟩
  rintro untraced ids id outcome (remembered | rfl)
  · exact (Analyzer.after_settled ids).history.trace_eq_empty untraced remembered
  · obtain ⟨settled, -, remembered⟩ := (Analyzer.after_settled ids).depth id
    exact settled.history.trace_eq_empty untraced remembered

/-- The functions of `parity` with the calls of `odd` narrated. -/
def Analyzer.parityNarrated : Analyzer where
  unit := parity.unit
  options := { trace := true, verbose := true, target := some "odd" }

/-- A document with one function, which hashes, and one that is no source unit. -/
def hashingDocuments : List Document :=
  [⟨"hash.json", .object [("type", .text "SourceUnit"), ("children", .list [
      .object [("type", .text "FunctionDefinition"), ("name", .text "seal"),
        ("body", .object [("type", .text "FunctionCall"),
          ("expression", .object [("type", .text "Identifier"), ("name", .text "sha256")]),
          ("arguments", .list [])])]])]⟩,
    ⟨"list.json", .list []⟩]

/-- The narration of `odd` changes the log and nothing else; nor does it matter what is shown. -/
theorem parity_independent_of_options :
    Analyzer.parity.unit = Analyzer.parityNarrated.unit ∧
      (Analyzer.parity.after [0]).log ≠ (Analyzer.parityNarrated.after [0]).log ∧
      Analyzer.parity.options.trace = Analyzer.parityNarrated.options.trace ∧
      (Analyzer.parity.depth (Analyzer.parity.after [1]) 0).1 =
        (Analyzer.parityNarrated.depth (Analyzer.parityNarrated.after [1]) 0).1 ∧
      (Analyzer.parity.after [0]).completed = (Analyzer.parityNarrated.after [0]).completed ∧
      (Report.ofDocuments { verbose := true, minDepth := 7 } hashingDocuments).rows =
        (Report.ofDocuments { trace := true } hashingDocuments).rows ∧
      (Report.ofDocuments { verbose := true, minDepth := 7 } hashingDocuments).failures =
        (Report.ofDocuments { trace := true } hashingDocuments).failures ∧
      (Report.ofDocuments { trace := true } hashingDocuments).rows.length = 1 ∧
      (Report.ofDocuments { trace := true } hashingDocuments).failures.length = 1 := by
  obtain ⟨-, completed, outcomes, -, reports⟩ :=
    results_independent_of_options Analyzer.parity Analyzer.parityNarrated rfl
  obtain ⟨rows, failures, -⟩ :=
    reports { verbose := true, minDepth := 7 } { trace := true } hashingDocuments
  exact ⟨rfl, by decide +kernel, rfl, outcomes rfl [1] 0, completed [0], rows, failures,
    by decide +kernel, by decide +kernel⟩

end CallDepth
