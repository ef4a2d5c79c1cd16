/-
# Exporting reports

The report files go into an output directory, which is created as needed: the depth records always,
the trace records when traces were asked for.
-/
import CallDepth.Report.Records
import CallDepth.SourceFiles

namespace CallDepth

inductive ExportError where
  | directory (path : String) (cause : SystemError)
  | file (path : String) (cause : SystemError)
deriving DecidableEq, Repr, Inhabited

namespace ExportError

def message : ExportError → String
  | directory path _ => "Failed to create output directory " ++ path
  | file path _ => "Failed to write " ++ path

def cause : ExportError → SystemError
  | directory _ cause => cause
  | file _ cause => cause

end ExportError

/-- The report files: their names and texts. -/
def Report.files (report : Report) (withTraces : Bool) : List (String × String) :=
  (depthsFile, DepthRow.writeAll report.rows) ::
    if withTraces then [(tracesFile, TraceRow.writeAll report.traces)] else []

namespace FileSystem

variable {m : Type → Type} [Monad m] (system : FileSystem m)

/-- Write texts to files of a directory, one after another, up to the first that fails; the paths
written. -/
def writeAll (directory : String) : List (String × String) → m (Except ExportError (List String))
  | [] => return .ok []
  | (name, text) :: rest => do
      let path := joinPath directory name
      match ← system.writeFile path text.toUTF8 with
      | some cause => return .error (.file path cause)
      | none => return (← writeAll directory rest).map (path :: ·)

/-- Write the report files into a directory; the paths written. -/
def writeReport (report : Report) (withTraces : Bool) (directory : String) :
    m (Except ExportError (List String)) := do
  match ← system.makeDirectories directory with
  | some cause => return .error (.directory directory cause)
  | none => system.writeAll directory (report.files withTraces)

end FileSystem

namespace FileTree

def writeAll (tree : FileTree) (directory : String) (files : List (String × String)) :
    FileTree × Except ExportError (List String) :=
  ((fileSystem.writeAll directory files).run tree).run.swap

def writeReport (tree : FileTree) (report : Report) (withTraces : Bool) (directory : String) :
    FileTree × Except ExportError (List String) :=
  ((fileSystem.writeReport report withTraces directory).run tree).run.swap

theorem writeAll_nil (tree : FileTree) (directory : String) :
    tree.writeAll directory [] = (tree, .ok []) :=
  rfl

theorem writeAll_cons (tree : FileTree) (directory name text : String)
    (rest : List (String × String)) :
    tree.writeAll directory ((name, text) :: rest) =
      match tree.writeFile (joinPath directory name) text.toUTF8 with
      | .error cause => (tree, .error (.file (joinPath directory name) cause))
      | .ok written =>
          ((written.writeAll directory rest).1,
            (written.writeAll directory rest).2.map (joinPath directory name :: ·)) := by
  rw [writeAll, FileSystem.writeAll]
  cases written : tree.writeFile (joinPath directory name) text.toUTF8 with
  | error cause => simp [-String.toUTF8_eq_toByteArray, written]
  | ok later => simp [-String.toUTF8_eq_toByteArray, written, writeAll]

theorem writeReport_eq (tree : FileTree) (report : Report) (withTraces : Bool)
    (directory : String) :
    tree.writeReport report withTraces directory =
      match tree.makeDirectories directory with
      | (made, some cause) => (made, .error (.directory directory cause))
      | (made, none) => made.writeAll directory (report.files withTraces) := by
  rw [writeReport, FileSystem.writeReport]
  cases made : tree.makeDirectories directory with
  | mk later fault => cases fault <;> simp [made, writeAll]

@[simp]
theorem run_writeReport (tree : FileTree) (report : Report) (withTraces : Bool)
    (directory : String) :
    (fileSystem.writeReport report withTraces directory).run tree =
      pure (tree.writeReport report withTraces directory).swap :=
  rfl

end FileTree

end CallDepth
