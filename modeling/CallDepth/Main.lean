/-
# The executable

`runProgramOn` with the arguments, the environment and the files of the machine.
-/
import CallDepth.Program

namespace CallDepth.Main

/-- The environment variables the program looks at. -/
def variableNames : List String :=
  ["AST_DIR", "TRACE", "TARGET_FUNC", "MIN_DEPTH", "DEBUG_CALLS"]

def environment : IO (List (String × String)) :=
  variableNames.filterMapM fun name => do
    return (← IO.getEnv name).map (name, ·)

/-- What the machine said, in the words of `SystemError` where it has them. -/
def systemError : IO.Error → SystemError
  | .noFileOrDirectory .. => .notFound
  | .alreadyExists .. => .alreadyExists
  | .inappropriateType _ 21 _ => .isDirectory
  | .inappropriateType .. => .notDirectory
  | error => .other (toString error)

def attempt {α : Type} (action : IO α) : IO (Except SystemError α) := do
  try
    return .ok (← action)
  catch error =>
    return .error (systemError error)

def fault? (action : IO Unit) : IO (Option SystemError) := do
  match ← attempt action with
  | .error error => return some error
  | .ok () => return none

def fileSystem : FileSystem IO where
  isDirectory path := do
    ((← IO.currentDir) / path).isDir
  filesIn path := attempt do
    (← ((← IO.currentDir) / path).readDir).toList.filterMapM fun entry => do
      -- Only sources are loaded, so the contents of other files are left alone.
      if isSource entry.fileName && !(← entry.path.isDir) then
        return some (entry.fileName, ← attempt (IO.FS.readBinFile entry.path))
      else return none
  makeDirectories path := fault? (IO.FS.createDirAll path)
  writeFile path content := fault? (IO.FS.writeBinFile path content)

/-- The reader of documents accepts or refuses a text, and has no more to say of it. -/
def explain (_ : ByteArray) : String :=
  "not a JSON document"

end CallDepth.Main

/-- The program: its arguments to its exit code. -/
def main (arguments : List String) : IO UInt32 := do
  let output ← CallDepth.runProgramOn CallDepth.Main.explain CallDepth.Main.fileSystem arguments
    (← CallDepth.Main.environment)
  IO.print output.stdout
  (← IO.getStderr).putStr (output.stderr.getD "")
  return output.exitCode.toUInt32
