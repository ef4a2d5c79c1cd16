/-
# The deepest trace of a function

`pickTrace?` picks, among the trace rows of one function name, the first of the deepest ones;
`renderTrace` is its text, or a line that says why there is none.
-/
import CallDepth.Report.Basic

namespace CallDepth

/-- The first of the deepest items whose trace rows bear a function name. -/
def pickTraceBy? {α : Type} (row : α → TraceRow) (target : String) (items : List α) : Option α :=
  (items.filter fun item => (row item).function = target).foldl
    (fun best item => match best with
      | none => some item
      | some found => if (row item).depth ≤ (row found).depth then some found else some item)
    none

def pickTrace? (target : Option String) (rows : List TraceRow) : Option TraceRow :=
  target.bind fun name => pickTraceBy? id name rows

namespace TraceRow

/-- The line that introduces a trace. -/
def title (row : TraceRow) : String :=
  "Trace for " ++ (if row.contract = "" then "<no contract>" else row.contract) ++ "." ++
    row.function ++ " in " ++ row.file ++ " (depth " ++ toString row.depth ++ ")"

def render (row : TraceRow) : String :=
  row.title ++ "\n" ++ if row.trace.isEmpty then "(no calls)" else row.trace.render

end TraceRow

def renderTrace (target : Option String) (rows : List TraceRow) : String :=
  match target with
  | none =>
      "Trace mode is on but no target function was given (set --target-func or TARGET_FUNC)."
  | some name =>
      match pickTrace? target rows with
      | none => "No function named '" ++ name ++ "' found."
      | some row => row.render

end CallDepth
