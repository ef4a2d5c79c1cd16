/-
# File systems

What the program asks of the files around it: a few operations, each of which may run in any monad.
The program is written once against them. `FileTree.fileSystem` answers from a file tree that is
passed along as a state.
-/
import CallDepth.FileTree

namespace CallDepth

structure FileSystem (m : Type → Type) where
  isDirectory : String → m Bool
  /-- The files directly in the directory of a path, each with its content if it can be read. -/
  filesIn : String → m (Except SystemError (List (String × Except SystemError ByteArray)))
  /-- Create the directory of a path and those around it; what went wrong. -/
  makeDirectories : String → m (Option SystemError)
  /-- Create or replace the file of a path; what went wrong. -/
  writeFile : String → ByteArray → m (Option SystemError)

namespace FileTree

/-- A file with its content, which can be read. -/
def readable (file : String × ByteArray) : String × Except SystemError ByteArray :=
  (file.1, .ok file.2)

def fileSystem : FileSystem (StateM FileTree) where
  isDirectory path := do
    let tree ← get
    return (tree.directory? path).isSome
  filesIn path := do
    let tree ← get
    return (tree.directory path).map fun place => (tree.filesIn place).map readable
  makeDirectories path := modifyGet fun tree => (tree.makeDirectories path).swap
  writeFile path content := modifyGet fun tree =>
    match tree.writeFile path content with
    | .error error => (some error, tree)
    | .ok written => (none, written)

section Run

variable (tree : FileTree) (path : String)

@[simp]
theorem run_isDirectory :
    (fileSystem.isDirectory path).run tree = pure ((tree.directory? path).isSome, tree) :=
  rfl

@[simp]
theorem run_filesIn :
    (fileSystem.filesIn path).run tree =
      pure ((tree.directory path).map fun place => (tree.filesIn place).map readable, tree) :=
  rfl

@[simp]
theorem run_makeDirectories :
    (fileSystem.makeDirectories path).run tree = pure (tree.makeDirectories path).swap :=
  rfl

@[simp]
theorem run_writeFile (content : ByteArray) :
    (fileSystem.writeFile path content).run tree =
      pure (match tree.writeFile path content with
        | .error error => (some error, tree)
        | .ok written => (none, written)) :=
  rfl

end Run

end FileTree

end CallDepth
