/-
# Source files

The documents of a directory are its files with the extension `json`, but for the two report files,
in the order of their names. Each of them becomes a document or, when it cannot be read, is empty or
is no JSON, a failure. Files that the path of the directory cannot reach, because the whole path
would be refused, are passed over.

What a JSON reader says of a text that is no document is left to the reader: all that depends on it
takes it as `explain`.
-/
import CallDepth.FileSystem
import CallDepth.Json.Reader
import CallDepth.Report.Basic

namespace CallDepth

def depthsFile : String := "depths.json"

def tracesFile : String := "depth_traces.json"

/-- Why something could not be loaded, with the cause below where there is one. -/
inductive LoadError where
  | directoryNotFound (path : String)
  | notListed (path : String) (cause : SystemError)
  | notOpened (path : String) (cause : SystemError)
  | notMapped (path : String) (cause : SystemError)
  | emptyFile (path : String)
  | invalidJson (path cause : String)
deriving DecidableEq, Repr, Inhabited

namespace LoadError

/-- The text of a load error without its cause. -/
def message : LoadError → String
  | directoryNotFound path => "Directory not found: " ++ path
  | notListed path _ => "Failed to list directory " ++ path
  | notOpened path _ => "Failed to open " ++ path
  | notMapped path _ => "Failed to map " ++ path
  | emptyFile path => path ++ " is empty"
  | invalidJson path _ => "Invalid JSON in " ++ path

def cause? : LoadError → Option String
  | notListed _ cause | notOpened _ cause | notMapped _ cause => some cause.message
  | invalidJson _ cause => some cause
  | directoryNotFound _ | emptyFile _ => none

/-- The text of a load error and, after a colon, of its cause. -/
def reason (error : LoadError) : String :=
  match error.cause? with
  | none => error.message
  | some cause => error.message ++ ": " ++ cause

end LoadError

/-- The name ends in `.json` with something before it. -/
def hasJsonExtension (name : String) : Bool :=
  ".json".toList.isSuffixOf name.toList && name ≠ ".json"

/-- A file of this name is read as a document. -/
def isSource (name : String) : Bool :=
  hasJsonExtension name && name ≠ depthsFile && name ≠ tracesFile

/-- The files of a directory to read as documents, in the order of their names. -/
def sources {α : Type} (directory : String) (files : List (String × α)) : List (String × α) :=
  let read := files.filter fun (name, _) =>
    isSource name && (pathFault? (joinPath directory name)).isNone
  read.mergeSort fun first second => first.1 ≤ second.1

/-- Documents, and the files that are none. -/
structure Loaded where
  documents : List Document := []
  failures : List Failure := []
deriving Repr, Inhabited

section Reading

variable (explain : ByteArray → String)

/-- The document in a file, from what reading the file gave. -/
def decode (path : String) : Except SystemError ByteArray → Except LoadError Json
  | .error cause => .error (.notOpened path cause)
  | .ok content =>
      if content.isEmpty then .error (.emptyFile path)
      else match Json.readDocument? content with
        | none => .error (.invalidJson path (explain content))
        | some value => .ok value

namespace Loaded

/-- Add a file of a directory: a document or a failure. -/
def push (directory : String) (loaded : Loaded) (file : String × Except SystemError ByteArray) :
    Loaded :=
  match decode explain (joinPath directory file.1) file.2 with
  | .ok value => { loaded with documents := loaded.documents ++ [⟨file.1, value⟩] }
  | .error error => { loaded with failures := loaded.failures ++ [⟨file.1, error.reason⟩] }

/-- The documents and failures among the files of a directory. -/
def ofFiles (directory : String) (files : List (String × Except SystemError ByteArray)) :
    Loaded :=
  (sources directory files).foldl (push explain directory) {}

end Loaded

def FileSystem.load {m : Type → Type} [Monad m] (system : FileSystem m) (path : String) :
    m (Except LoadError Loaded) := do
  if ← system.isDirectory path then
    match ← system.filesIn path with
    | .error cause => return .error (.notListed path cause)
    | .ok files => return .ok (Loaded.ofFiles explain path files)
  else return .error (.directoryNotFound path)

namespace FileTree

def load (tree : FileTree) (path : String) : Except LoadError Loaded :=
  ((fileSystem.load explain path).run tree).run.1

/-- Loading leaves the tree alone, and a directory that is there can be listed. -/
theorem run_load_eq (tree : FileTree) (path : String) :
    (fileSystem.load explain path).run tree =
      pure (match tree.directory? path with
        | none => .error (.directoryNotFound path)
        | some place => .ok (Loaded.ofFiles explain path ((tree.filesIn place).map readable)),
        tree) := by
  rw [FileSystem.load]
  cases found : tree.directory path with
  | error cause => simp [directory?, found, Except.toOption]
  | ok place => simp [directory?, found, Except.toOption, Except.map]

theorem load_eq (tree : FileTree) (path : String) :
    tree.load explain path =
      match tree.directory? path with
      | none => .error (.directoryNotFound path)
      | some place => .ok (Loaded.ofFiles explain path ((tree.filesIn place).map readable)) := by
  rw [load, run_load_eq, Id.run_pure]

@[simp]
theorem run_load (tree : FileTree) (path : String) :
    (fileSystem.load explain path).run tree = pure (tree.load explain path, tree) := by
  rw [load, run_load_eq, Id.run_pure]

/-- The paths of the files of a directory to read as documents. -/
def sourcePaths (tree : FileTree) (path : String) : Except LoadError (List String) :=
  match tree.directory path with
  | .error cause => .error (.notListed path cause)
  | .ok place => .ok ((sources path (tree.filesIn place)).map fun file => joinPath path file.1)

def readDocument (tree : FileTree) (path : String) : Except LoadError Json :=
  match tree.locate path with
  | .error cause => .error (.notOpened path cause)
  | .ok place =>
      match tree.get? place with
      | none => .error (.notOpened path .notFound)
      | some .directory => .error (.notMapped path .noDevice)
      | some (.file content) => decode explain path (.ok content)

end FileTree

end Reading

end CallDepth
