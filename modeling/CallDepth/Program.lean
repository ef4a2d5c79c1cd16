/-
# The program

One run: load the documents of a directory, analyze them, write the report files and show the table,
the paths written and, with traces, the deepest trace of the target. Without any function nothing is
written.

`runProgramOn` is the whole program with its command line, on any file system. `Job.run` and
`runProgram` are runs on a file tree.
-/
import CallDepth.CommandLine
import CallDepth.Report.DeepestTrace
import CallDepth.Report.Export
import CallDepth.Report.Table

namespace CallDepth

/-- What a run of the program shows. -/
structure Output where
  exitCode : Nat
  stdout : String := ""
  /-- The text of an error. -/
  stderr : Option String := none
deriving DecidableEq, Repr, Inhabited

/-- A run on a file tree: what it shows and the tree it leaves behind. -/
structure RunResult extends Output where
  tree : FileTree
deriving Inhabited

/-- A cause, with its first line and the lines that follow indented. -/
def indented (first rest cause : String) : String :=
  first ++ ("\n" ++ rest).intercalate (cause.splitOn "\n") ++ "\n"

/-- The text of a fatal error and of what caused it, from the nearest cause to the farthest. Several
causes are numbered. -/
def fatalText (context : String) (causes : List String) : String :=
  let lines := match causes with
    | [cause] => indented "    " "    " cause
    | _ => String.join (causes.zipIdx.map fun (cause, number) =>
        indented ("    " ++ toString number ++ ": ") "       " cause)
  "Error: " ++ context ++ "\n\nCaused by:\n" ++ lines

/-- The report of loaded documents; files that are no documents fail first. -/
def Loaded.report (loaded : Loaded) (settings : Settings) : Report :=
  let report := Report.ofDocuments settings loaded.documents
  { report with failures := loaded.failures ++ report.failures }

namespace Job

def emptyText : String := "No functions found.\n"

/-- The text of a run that cannot read its directory. -/
def loadFailure (job : Job) (error : LoadError) : String :=
  fatalText ("Cannot analyze " ++ job.directory) (error.message :: error.cause?.toList)

def outputDirectory (job : Job) : String :=
  job.output.getD job.directory

/-- The output of a run that wrote its reports. -/
def text (job : Job) (report : Report) (written : List String) : String :=
  renderTable job.settings.minDepth report.rows ++ "\n" ++
    String.join (written.map fun path => "Wrote " ++ path ++ "\n") ++
    if job.settings.trace then
      "\n" ++ renderTrace job.settings.target report.traces ++ "\n"
    else ""

section

variable {m : Type → Type} [Monad m]

def runOn (explain : ByteArray → String) (system : FileSystem m) (job : Job) : m Output := do
  match ← system.load explain job.directory with
  | .error error => return { exitCode := 1, stderr := some (job.loadFailure error) }
  | .ok loaded =>
      let report := loaded.report job.settings
      if report.isEmpty then return { exitCode := 0, stdout := emptyText }
      else match ← system.writeReport report job.settings.trace job.outputDirectory with
        | .error error =>
            return { exitCode := 1, stderr := some (fatalText error.message [error.cause.message]) }
        | .ok written => return { exitCode := 0, stdout := job.text report written }

end

def run (explain : ByteArray → String) (job : Job) (tree : FileTree) : RunResult :=
  let (output, tree) := ((job.runOn explain FileTree.fileSystem).run tree).run
  { output with tree }

/-- A run on a tree, without the state that is passed along. -/
theorem run_eq (explain : ByteArray → String) (job : Job) (tree : FileTree) :
    job.run explain tree =
      match tree.load explain job.directory with
      | .error error => { exitCode := 1, stderr := some (job.loadFailure error), tree }
      | .ok loaded =>
          let report := loaded.report job.settings
          if report.isEmpty then { exitCode := 0, stdout := emptyText, tree }
          else match tree.writeReport report job.settings.trace job.outputDirectory with
            | (tree, .error error) =>
                { exitCode := 1, stderr := some (fatalText error.message [error.cause.message]),
                  tree }
            | (tree, .ok written) =>
                { exitCode := 0, stdout := job.text report written, tree } := by
  rw [run, runOn]
  cases found : tree.load explain job.directory with
  | error error => simp [found]
  | ok loaded =>
      by_cases empty : (loaded.report job.settings).isEmpty = true
      · simp [found, empty]
      · cases exported : tree.writeReport (loaded.report job.settings) job.settings.trace
            job.outputDirectory with
        | mk later result => cases result <;> simp [found, empty, exported]

end Job

def versionText : String := "sol_depth 0.1.0\n"

/-- The text of a refused command line. -/
def refusalText (error : UsageError) : String :=
  "error: " ++ error.message ++ "\n\nFor more information, try '--help'.\n"

/-- The program with its arguments and environment on a file system. -/
def runProgramOn {m : Type → Type} [Monad m] (explain : ByteArray → String)
    (system : FileSystem m) (arguments : List String) (environment : List (String × String)) :
    m Output :=
  match Request.parse arguments environment with
  | .error error => return { exitCode := 2, stderr := some (refusalText error) }
  | .ok .help => return { exitCode := 0, stdout := helpText environment }
  | .ok .version => return { exitCode := 0, stdout := versionText }
  | .ok (.run job) => job.runOn explain system

def runProgram (explain : ByteArray → String) (arguments : List String)
    (environment : List (String × String)) (tree : FileTree) : RunResult :=
  let (output, tree) :=
    ((runProgramOn explain FileTree.fileSystem arguments environment).run tree).run
  { output with tree }

/-- Only a run looks at the tree. -/
theorem runProgram_eq (explain : ByteArray → String) (arguments : List String)
    (environment : List (String × String)) (tree : FileTree) :
    runProgram explain arguments environment tree =
      match Request.parse arguments environment with
      | .error error => { exitCode := 2, stderr := some (refusalText error), tree }
      | .ok .help => { exitCode := 0, stdout := helpText environment, tree }
      | .ok .version => { exitCode := 0, stdout := versionText, tree }
      | .ok (.run job) => job.run explain tree := by
  rw [runProgram, runProgramOn]
  cases Request.parse arguments environment with
  | error error => rfl
  | ok request => cases request <;> rfl

end CallDepth
