/-
# Batches of documents

The report of a batch is the reports of its documents, one after another (`ofDocuments_append`). A
document that is refused adds one failure (`report_of_error`), and any other adds one row for each
function of its tree that has a name, in the order of the tree (`rows_report_of_ok`).

Traces and rows are lists of their own, and only one of them is searched for the deepest trace of a
function. They run side by side (`headings_ofDocuments`), so what is picked among the traces is told
by the rows: `FirstDeepest` says which index that is, and `pickTraceBy?_eq_some_iff` that the scan
finds it.
-/
import CallDepth.Proofs.Coverage
import CallDepth.Proofs.SymbolCollection
import CallDepth.Report.DeepestTrace
import Mathlib.Data.List.Induction

namespace CallDepth

/-! ## The first of the deepest -/

section Deepest

variable {α : Type} {name : α → String} {depth : α → Nat} {target : String} {items : List α}
  {index : Nat} {item : α}

/-- At an index stands the first of the deepest items that bear a name. -/
structure FirstDeepest (name : α → String) (depth : α → Nat) (target : String) (items : List α)
    (index : Nat) (item : α) : Prop where
  found : items[index]? = some item
  named : name item = target
  deepest : ∀ other ∈ items, name other = target → depth other ≤ depth item
  first : ∀ other ∈ items.take index, name other = target → depth other < depth item

namespace FirstDeepest

theorem mem (pick : FirstDeepest name depth target items index item) : item ∈ items :=
  List.mem_of_getElem? pick.found

theorem index_le {other : Nat} {rival : α} (pick : FirstDeepest name depth target items index item)
    (second : FirstDeepest name depth target items other rival) : index ≤ other := by
  by_contra later
  have earlier : rival ∈ items.take index := by
    refine List.mem_of_getElem? (i := other) ?_
    rw [List.getElem?_take_of_lt (by omega)]
    exact second.found
  have less := pick.first rival earlier second.named
  have most := second.deepest item pick.mem pick.named
  omega

/-- There is one first of the deepest. -/
theorem unique {other : Nat} {rival : α} (pick : FirstDeepest name depth target items index item)
    (second : FirstDeepest name depth target items other rival) : item = rival := by
  have same : index = other := Nat.le_antisymm (pick.index_le second) (second.index_le pick)
  subst same
  exact Option.some.inj (pick.found.symm.trans second.found)

/-- Further items change nothing if none of them is named and deeper. -/
theorem append (pick : FirstDeepest name depth target items index item) {more : List α}
    (shallow : ∀ other ∈ more, name other = target → depth other ≤ depth item) :
    FirstDeepest name depth target (items ++ more) index item where
  found := by
    obtain ⟨inside, -⟩ := List.getElem?_eq_some_iff.1 pick.found
    rw [List.getElem?_append_left inside]
    exact pick.found
  named := pick.named
  deepest := fun other member =>
    (List.mem_append.1 member).elim (pick.deepest other) (shallow other)
  first := by
    obtain ⟨inside, -⟩ := List.getElem?_eq_some_iff.1 pick.found
    rw [List.take_append_of_le_length (Nat.le_of_lt inside)]
    exact pick.first

/-- A named item at the end is the pick if all named items before it are less deep. -/
theorem concat (named : name item = target)
    (less : ∀ other ∈ items, name other = target → depth other < depth item) :
    FirstDeepest name depth target (items ++ [item]) items.length item where
  found := List.getElem?_concat_length
  named
  deepest := by
    intro other member bears
    rcases List.mem_append.1 member with earlier | last
    · exact Nat.le_of_lt (less other earlier bears)
    · rw [List.mem_singleton.1 last]
  first := by
    rw [List.take_left' rfl]
    exact less

/-- Only names and depths matter. -/
theorem map_iff {β : Type} (name : α → String) (depth : α → Nat) (key : β → α) {others : List β}
    {other : β} (found : others[index]? = some other) :
    FirstDeepest name depth target (others.map key) index (key other) ↔
      FirstDeepest (name ∘ key) (depth ∘ key) target others index other := by
  constructor
  · intro pick
    refine ⟨found, pick.named, List.forall_mem_map.1 pick.deepest, ?_⟩
    have first := pick.first
    rw [← List.map_take] at first
    exact List.forall_mem_map.1 first
  · intro pick
    refine ⟨?_, pick.named, List.forall_mem_map.2 pick.deepest, ?_⟩
    · rw [List.getElem?_map, found, Option.map_some]
    · rw [← List.map_take]
      exact List.forall_mem_map.2 pick.first

end FirstDeepest

/-- A scan has come to the first of the deepest items that bear a name, or there are none. -/
def Picked (name : α → String) (depth : α → Nat) (target : String) (items : List α) :
    Option α → Prop
  | none => ∀ item ∈ items, name item ≠ target
  | some item => ∃ index, FirstDeepest name depth target items index item

/-- One item more: it is the pick only if it bears the name and is deeper than the pick so far. -/
theorem Picked.step {best : Option α} (picked : Picked name depth target items best) (item : α) :
    Picked name depth target (items ++ [item])
      (if name item = target then
        some (best.elim item fun found => if depth item ≤ depth found then found else item)
      else best) := by
  split
  · rename_i named
    cases best with
    | none =>
        exact ⟨_, .concat named fun other member bears => absurd bears (picked other member)⟩
    | some found =>
        obtain ⟨index, pick⟩ := picked
        rw [Option.elim_some]
        split
        · rename_i shallow
          exact ⟨index, pick.append (by simpa using fun _ => shallow)⟩
        · rename_i deeper
          refine ⟨_, .concat named fun other member bears => ?_⟩
          have most := pick.deepest other member bears
          omega
  · rename_i unnamed
    cases best with
    | none =>
        intro other member
        rcases List.mem_append.1 member with earlier | last
        · exact picked other earlier
        · rwa [List.mem_singleton.1 last]
    | some found =>
        obtain ⟨index, pick⟩ := picked
        exact ⟨index, pick.append (by simpa using fun bears => absurd bears unnamed)⟩

end Deepest

section Pick

variable {α : Type} (row : α → TraceRow) (target : String)

/-- One more item is picked if it bears the name and is deeper than what was picked so far. -/
theorem pickTraceBy?_concat (items : List α) (item : α) :
    pickTraceBy? row target (items ++ [item]) =
      if (row item).function = target then
        some ((pickTraceBy? row target items).elim item fun found =>
          if (row item).depth ≤ (row found).depth then found else item)
      else pickTraceBy? row target items := by
  unfold pickTraceBy?
  rw [List.filter_append, List.foldl_append]
  by_cases named : (row item).function = target
  · simp only [List.filter_cons, named, decide_true, if_true, List.filter_nil, List.foldl_cons,
      List.foldl_nil]
    split
    · rename_i nothing
      rw [nothing, Option.elim_none]
    · rename_i found
      rw [found, Option.elim_some]
      split <;> rfl
  · simp [named]

/-- The scan over all items. -/
theorem picked_pickTraceBy? (items : List α) :
    Picked (fun item => (row item).function) (fun item => (row item).depth) target items
      (pickTraceBy? row target items) := by
  induction items using List.reverseRecOn with
  | nil => exact List.forall_mem_nil _
  | append_singleton items item ih =>
      rw [pickTraceBy?_concat]
      exact ih.step item

variable {row target} {items : List α}

theorem pickTraceBy?_eq_none_iff :
    pickTraceBy? row target items = none ↔ ∀ item ∈ items, (row item).function ≠ target := by
  have picked := picked_pickTraceBy? row target items
  constructor
  · intro nothing
    rwa [nothing] at picked
  · intro unnamed
    cases found : pickTraceBy? row target items with
    | none => rfl
    | some item =>
        rw [found] at picked
        obtain ⟨index, pick⟩ := picked
        exact absurd pick.named (unnamed item pick.mem)

/-- The scan finds the first of the deepest items that bear the name. -/
theorem pickTraceBy?_eq_some_iff {item : α} :
    pickTraceBy? row target items = some item ↔
      ∃ index, FirstDeepest (fun item => (row item).function) (fun item => (row item).depth) target
        items index item := by
  have picked := picked_pickTraceBy? row target items
  constructor
  · intro found
    rwa [found] at picked
  · rintro ⟨index, pick⟩
    cases found : pickTraceBy? row target items with
    | none => exact absurd pick.named (pickTraceBy?_eq_none_iff.1 found item pick.mem)
    | some other =>
        rw [found] at picked
        obtain ⟨otherIndex, second⟩ := picked
        rw [second.unique pick]

end Pick

/-! ## Reports -/

/-- An analysis has a row for each function of the tree, in order. -/
theorem analyze_rows_of_functions (options : Options) (root : Node) :
    ∃ outcomes : List Outcome, outcomes.length = (SymbolTable.ofTree root).functions.length ∧
      (analyze options root).rows =
        List.zipWith Definition.measured (SymbolTable.ofTree root).functions outcomes := by
  obtain ⟨outcomes, length, rows⟩ := Analyzer.exists_measureFrom_rows ⟨.ofTree root, options⟩ {} 0
    (SymbolTable.ofTree root).functions
  refine ⟨outcomes, length, ?_⟩
  rw [← rows]
  exact congrArg Prod.fst (Analyzer.measureAll_eq_measureFrom _)

/-- What a row tells as well as the trace row beside it. -/
def DepthRow.heading (row : DepthRow) : String × String × String × Nat :=
  (row.file, row.contract, row.function, row.depth)

def TraceRow.heading (row : TraceRow) : String × String × String × Nat :=
  (row.file, row.contract, row.function, row.depth)

namespace Document

variable {settings : Settings} {document : Document}

theorem report_of_error {error : Node.RootError}
    (refused : Node.ofRoot document.value = .error error) :
    document.report settings = { failures := [⟨document.file, error.message⟩] } := by
  rw [report, analyze, refused]
  rfl

theorem report_of_ok {root : Node} (accepted : Node.ofRoot document.value = .ok root) :
    document.report settings =
      { rows := (CallDepth.analyze settings.toOptions root).rows.map (·.row document.file)
        traces :=
          if settings.trace then
            (CallDepth.analyze settings.toOptions root).rows.map (·.traceRow document.file)
          else [] } := by
  rw [report, analyze, accepted]
  rfl

/-- A document that is read has no failure and one row for each function of its tree, in order. -/
theorem rows_report_of_ok {root : Node} (accepted : Node.ofRoot document.value = .ok root) :
    (document.report settings).failures = [] ∧
      ∃ outcomes : List Outcome, outcomes.length = (SymbolTable.ofTree root).functions.length ∧
        (document.report settings).rows =
          List.zipWith (fun definition outcome => (definition.measured outcome).row document.file)
            (SymbolTable.ofTree root).functions outcomes := by
  obtain ⟨outcomes, length, rows⟩ := analyze_rows_of_functions settings.toOptions root
  rw [report_of_ok accepted]
  refine ⟨rfl, outcomes, length, ?_⟩
  simp only [rows, List.map_zipWith]

/-- A document has its traces beside its rows. -/
theorem headings_report (asked : settings.trace = true) (document : Document) :
    (document.report settings).traces.map TraceRow.heading =
      (document.report settings).rows.map DepthRow.heading := by
  cases root? : Node.ofRoot document.value with
  | error error =>
      rw [report_of_error root?]
      rfl
  | ok root =>
      rw [report_of_ok root?]
      simp only [asked, if_true, List.map_map]
      rfl

end Document

namespace Report

variable {settings : Settings}

/-- The report of two batches is their reports, one after the other. -/
theorem ofDocuments_append (first second : List Document) :
    ofDocuments settings (first ++ second) =
      concat [ofDocuments settings first, ofDocuments settings second] := by
  simp [ofDocuments_eq_concat, concat]

theorem ofDocuments_singleton (document : Document) :
    ofDocuments settings [document] = document.report settings := by
  simp [ofDocuments_eq_concat, concat]

/-- A batch has its traces beside its rows. -/
theorem headings_ofDocuments (asked : settings.trace = true) (documents : List Document) :
    (ofDocuments settings documents).traces.map TraceRow.heading =
      (ofDocuments settings documents).rows.map DepthRow.heading := by
  induction documents with
  | nil => rfl
  | cons document rest ih =>
      rw [← List.singleton_append, ofDocuments_append, ofDocuments_singleton]
      have beside := document.headings_report asked
      simp [concat, beside, ih]

end Report

section Aligned

variable {traces : List TraceRow} {rows : List DepthRow}
  (aligned : traces.map TraceRow.heading = rows.map DepthRow.heading)

include aligned

theorem heading_eq_of_aligned {index : Nat} {trace : TraceRow} {row : DepthRow}
    (left : traces[index]? = some trace) (right : rows[index]? = some row) :
    trace.heading = row.heading := by
  have both := congrArg (·[index]?) aligned
  simp only [List.getElem?_map, left, right, Option.map_some] at both
  exact Option.some.inj both

/-- The first of the deepest traces stands beside the first of the deepest rows. -/
theorem firstDeepest_iff_of_aligned {target : String} {index : Nat} {trace : TraceRow}
    {row : DepthRow} (left : traces[index]? = some trace) (right : rows[index]? = some row) :
    FirstDeepest TraceRow.function TraceRow.depth target traces index trace ↔
      FirstDeepest DepthRow.function DepthRow.depth target rows index row := by
  let name (heading : String × String × String × Nat) : String := heading.2.2.1
  let depth (heading : String × String × String × Nat) : Nat := heading.2.2.2
  calc FirstDeepest TraceRow.function TraceRow.depth target traces index trace
    _ ↔ FirstDeepest name depth target (traces.map TraceRow.heading) index trace.heading :=
        (FirstDeepest.map_iff name depth TraceRow.heading left).symm
    _ ↔ FirstDeepest name depth target (rows.map DepthRow.heading) index row.heading := by
        rw [aligned, heading_eq_of_aligned aligned left right]
    _ ↔ FirstDeepest DepthRow.function DepthRow.depth target rows index row :=
        FirstDeepest.map_iff name depth DepthRow.heading right

theorem pickTrace?_eq_none_iff_of_aligned {target : String} :
    pickTrace? (some target) traces = none ↔ ∀ row ∈ rows, row.function ≠ target := by
  have names : traces.map TraceRow.function = rows.map DepthRow.function := by
    have projected := congrArg (List.map fun heading => heading.2.2.1) aligned
    rwa [List.map_map, List.map_map] at projected
  show pickTraceBy? id target traces = none ↔ _
  rw [pickTraceBy?_eq_none_iff]
  show (∀ trace ∈ traces, trace.function ≠ target) ↔ _
  rw [← List.forall_mem_map (P := fun name => name ≠ target), names, List.forall_mem_map]

theorem pickTrace?_eq_some_iff_of_aligned {target : String} {trace : TraceRow} :
    pickTrace? (some target) traces = some trace ↔
      ∃ index row, traces[index]? = some trace ∧
        FirstDeepest DepthRow.function DepthRow.depth target rows index row := by
  show pickTraceBy? id target traces = some trace ↔ _
  rw [pickTraceBy?_eq_some_iff]
  constructor
  · rintro ⟨index, pick⟩
    have beside : (rows[index]?).map DepthRow.heading = some trace.heading := by
      rw [← List.getElem?_map, ← aligned, List.getElem?_map, pick.found, Option.map_some]
    obtain ⟨row, found, -⟩ := Option.map_eq_some_iff.1 beside
    exact ⟨index, row, pick.found, (firstDeepest_iff_of_aligned aligned pick.found found).1 pick⟩
  · rintro ⟨index, row, found, pick⟩
    exact ⟨index, (firstDeepest_iff_of_aligned aligned found pick.found).2 pick⟩

end Aligned

/-- What the report of a batch is made of. The report of two batches in a row is that of the first
and then that of the second, in all three lists. A document adds exactly one failure if it is
refused; if not, it adds no failure and exactly one row for each function of its tree that has a
name, in the order of the tree. When traces are asked for, they stand beside the rows and tell of
the same files, contracts, functions and depths. So the trace that is picked for a name is the one
beside the first of the deepest rows of that name, and there is none only if no row has the name. -/
theorem batch_is_concatenation (settings : Settings) :
    (∀ first second : List Document,
      let whole := Report.ofDocuments settings (first ++ second)
      let left := Report.ofDocuments settings first
      let right := Report.ofDocuments settings second
      whole.rows = left.rows ++ right.rows ∧ whole.traces = left.traces ++ right.traces ∧
        whole.failures = left.failures ++ right.failures) ∧
    (∀ document : Document,
      let report := Report.ofDocuments settings [document]
      (∀ error, Node.ofRoot document.value = .error error →
        report = { failures := [⟨document.file, error.message⟩] }) ∧
      ∀ root, Node.ofRoot document.value = .ok root →
        let functions := (root.visits []).filterMap fun visit =>
          visit.2.namedFunction? (Node.nearestScope visit.1)
        report.failures = [] ∧
          ∃ outcomes : List Outcome, outcomes.length = functions.length ∧
            report.rows = List.zipWith
              (fun function outcome => (function.measured outcome).row document.file)
              functions outcomes) ∧
    (settings.trace = true → ∀ documents : List Document,
      let report := Report.ofDocuments settings documents
      report.traces.length = report.rows.length ∧
      (∀ (index : Nat) trace row, report.traces[index]? = some trace →
        report.rows[index]? = some row →
        trace.file = row.file ∧ trace.contract = row.contract ∧
          trace.function = row.function ∧ trace.depth = row.depth) ∧
      ∀ target,
        (pickTrace? (some target) report.traces = none ↔
          ∀ row ∈ report.rows, row.function ≠ target) ∧
        ∀ trace, pickTrace? (some target) report.traces = some trace ↔
          ∃ index row, report.traces[index]? = some trace ∧
            FirstDeepest DepthRow.function DepthRow.depth target report.rows index row) := by
  refine ⟨?homomorphism, ?documents, ?traces⟩
  case homomorphism =>
    intro first second whole left right
    have parts : whole = .concat [left, right] := Report.ofDocuments_append first second
    rw [parts]
    simp [Report.concat]
  case documents =>
    intro document report
    have alone : report = document.report settings := Report.ofDocuments_singleton document
    refine ⟨fun error refused => alone.trans (Document.report_of_error refused), ?_⟩
    intro root accepted functions
    have listed : functions = (SymbolTable.ofTree root).functions :=
      (SymbolTable.functions_ofTree root).symm
    rw [alone, listed]
    exact Document.rows_report_of_ok accepted
  case traces =>
    intro asked documents report
    have aligned := Report.headings_ofDocuments asked documents
    refine ⟨?_, ?_, fun target => ⟨pickTrace?_eq_none_iff_of_aligned aligned,
      fun trace => pickTrace?_eq_some_iff_of_aligned aligned⟩⟩
    · simpa using congrArg List.length aligned
    · intro index trace row left right
      have same := heading_eq_of_aligned aligned left right
      simpa [TraceRow.heading, DepthRow.heading] using same

/-- Three documents: a lighthouse that blinks, a text that is no document, and a pier that blinks
twice, once as deep as the lighthouse. -/
def harbor : List Document :=
  let blink (callees : List String) : Json :=
    .object [("type", .text "FunctionDefinition"), ("name", .text "blink"),
      ("body", .list (callees.map fun callee => .object [("type", .text "FunctionCall"),
        ("expression", .object [("type", .text "Identifier"), ("name", .text callee)])]))]
  let contract (name : String) (members : List Json) : Json :=
    .object [("type", .text "ContractDefinition"), ("name", .text name), ("parts", .list members)]
  [⟨"Lighthouse.json", contract "Lighthouse" [blink ["lamp"]]⟩, ⟨"Chart.json", .text "harbor"⟩,
    ⟨"Pier.json", contract "Pier" [blink [], blink ["lamp"]]⟩]

def harborSettings : Settings :=
  { trace := true }

theorem harbor_is_concatenation :
    let report := Report.ofDocuments harborSettings harbor
    harborSettings.trace = true ∧
    report.rows.map (fun row => (row.file, row.function, row.depth)) =
      [("Lighthouse.json", "blink", 1), ("Pier.json", "blink", 0), ("Pier.json", "blink", 1)] ∧
    report.failures.map (·.file) = ["Chart.json"] ∧
    report.traces.length = report.rows.length ∧
    (∀ trace, pickTrace? (some "blink") report.traces = some trace ↔
      ∃ index row, report.traces[index]? = some trace ∧
        FirstDeepest DepthRow.function DepthRow.depth "blink" report.rows index row) ∧
    (pickTrace? (some "blink") report.traces).map (·.file) = some "Lighthouse.json" :=
  have batch := (batch_is_concatenation harborSettings).2.2 rfl harbor
  ⟨rfl, by decide +kernel, by decide +kernel, batch.1, (batch.2.2 "blink").2, by decide +kernel⟩

end CallDepth
