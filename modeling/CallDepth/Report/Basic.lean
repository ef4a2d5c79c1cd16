/-
# Reports

A report covers a batch of documents: a row per function and, when traces are asked for, a trace per
function, both in the order of the documents; and a failure per document that is no source unit.
`Report.ofDocuments` goes through the documents and adds to one report what each comes to.

Documents do not influence each other, so the report of a batch is the reports of its documents one
after another (`Report.ofDocuments_eq_concat`).
-/
import CallDepth.Analysis

namespace CallDepth

/-- What to keep and what to show. -/
structure Settings extends Options where
  /-- Rows below this depth are not shown in the table; reports keep them. -/
  minDepth : Nat := 0
deriving DecidableEq, Repr, Inhabited

/-- A JSON document under the name of its file. -/
structure Document where
  file : String
  value : Json
deriving Repr, Inhabited

/-- The depth of one function of a file. -/
structure DepthRow where
  file : String
  contract : String
  function : String
  visibility : String
  mutability : String
  depth : Nat
deriving DecidableEq, Repr, Inhabited

/-- The deepest path of one function of a file. -/
structure TraceRow where
  file : String
  contract : String
  function : String
  depth : Nat
  trace : Trace
deriving DecidableEq, Repr, Inhabited

structure Failure where
  file : String
  reason : String
deriving DecidableEq, Repr, Inhabited

/-- What a batch of documents comes to. -/
structure Report where
  rows : List DepthRow := []
  traces : List TraceRow := []
  failures : List Failure := []
deriving DecidableEq, Repr, Inhabited

def FunctionDepth.row (measured : FunctionDepth) (file : String) : DepthRow where
  file := file
  contract := measured.contract
  function := measured.function
  visibility := measured.visibility
  mutability := measured.mutability
  depth := measured.depth

def FunctionDepth.traceRow (measured : FunctionDepth) (file : String) : TraceRow where
  file := file
  contract := measured.contract
  function := measured.function
  depth := measured.depth
  trace := measured.trace

namespace Document

def analyze (options : Options) (document : Document) : Except Node.RootError Analysis :=
  (Node.ofRoot document.value).map (CallDepth.analyze options)

def log (options : Options) (document : Document) : List Event :=
  match document.analyze options with
  | .error _ => []
  | .ok analysis => analysis.events

end Document

namespace Report

variable (settings : Settings)

/-- Add a measured function of a file, with its trace when traces are asked for. -/
def pushRow (file : String) (report : Report) (measured : FunctionDepth) : Report where
  rows := report.rows ++ [measured.row file]
  traces := if settings.trace then report.traces ++ [measured.traceRow file] else report.traces
  failures := report.failures

/-- Add what a document comes to: its functions, or one failure. -/
def push (report : Report) (document : Document) : Report :=
  match document.analyze settings.toOptions with
  | .error error => { report with failures := report.failures ++ [⟨document.file, error.message⟩] }
  | .ok analysis => analysis.rows.foldl (pushRow settings document.file) report

def ofDocuments (documents : List Document) : Report :=
  documents.foldl (push settings) {}

def isEmpty (report : Report) : Bool :=
  report.rows.isEmpty

/-- The log of a batch: those of the documents, then the documents that were left out, then the
totals. The documents are analyzed side by side, so the order in which their logs stand here is one
of many; each log is in order. -/
def log (documents : List Document) : List Event :=
  let report := ofDocuments settings documents
  documents.flatMap (·.log settings.toOptions) ++
    report.failures.map (fun failure => .skipped failure.file failure.reason) ++
    [.finished documents.length report.rows.length report.failures.length]

end Report

/-! ## Document by document -/

/-- What a document alone comes to. -/
def Document.report (settings : Settings) (document : Document) : Report :=
  match document.analyze settings.toOptions with
  | .error error => { failures := [⟨document.file, error.message⟩] }
  | .ok analysis =>
      { rows := analysis.rows.map (·.row document.file)
        traces := if settings.trace then analysis.rows.map (·.traceRow document.file) else [] }

namespace Report

def concat (reports : List Report) : Report where
  rows := reports.flatMap (·.rows)
  traces := reports.flatMap (·.traces)
  failures := reports.flatMap (·.failures)

variable (settings : Settings)

theorem foldl_pushRow (file : String) (report : Report) (rows : List FunctionDepth) :
    rows.foldl (pushRow settings file) report =
      { rows := report.rows ++ rows.map (·.row file)
        traces := report.traces ++ if settings.trace then rows.map (·.traceRow file) else []
        failures := report.failures } := by
  induction rows generalizing report with
  | nil => simp
  | cons row rest ih =>
      rw [List.foldl_cons, ih]
      cases traced : settings.trace <;> simp [pushRow, traced]

/-- What a document adds to a report is its own. -/
theorem push_eq_concat (report : Report) (document : Document) :
    push settings report document = concat [report, document.report settings] := by
  rw [push, Document.report]
  split
  next => simp [concat]
  next => simp [foldl_pushRow, concat]

/-- The report of a batch is the reports of its documents, one after another. -/
theorem ofDocuments_eq_concat (documents : List Document) :
    ofDocuments settings documents = concat (documents.map (·.report settings)) := by
  -- From any report on, the reports of the documents follow it.
  have pushed : ∀ report : Report, documents.foldl (push settings) report =
      concat (report :: documents.map (·.report settings)) := by
    induction documents with
    | nil => simp [concat]
    | cons document rest ih =>
        intro report
        rw [List.foldl_cons, ih, push_eq_concat]
        simp [concat]
  rw [ofDocuments, pushed]
  simp [concat]

end Report

end CallDepth
