/-
# File trees

A tree of directories and files, without links, and the working directory of who looks at it. A
place in the tree is the list of names that leads to it from the root, and the root itself is a
directory that is always there.

A path text names a place by its components. It starts at the root when its first character is a
slash, and at the working directory otherwise. `locate` follows the components one by one: `.` and
empty components stay, `..` goes up and stays at the root, and every step needs a directory to start
from. Names and paths have a greatest length, and no path holds the null character.

* `makeDirectories` creates the directories of a path that are missing.
* `writeFile` creates or replaces a file in an existing directory.
-/
import CallDepth.Assoc

namespace CallDepth

/-- The names that lead from the root of a tree to a place in it. -/
abbrev Place := List String

inductive Entry where
  | directory
  | file (content : ByteArray)
deriving Inhabited

/-- Directories and files by their places. -/
structure FileTree where
  entries : List (Place × Entry) := []
  /-- Where a path without a slash at its head starts. -/
  workingDirectory : Place := []
deriving Inhabited

/-- Why the file system refuses something. -/
inductive SystemError where
  | notFound
  | alreadyExists
  | notDirectory
  | isDirectory
  | noDevice
  | nameTooLong
  | nullInName
  /-- Anything else, in the words of the system. -/
  | other (text : String)
deriving DecidableEq, Repr, Inhabited

def SystemError.message : SystemError → String
  | notFound => "No such file or directory (os error 2)"
  | alreadyExists => "File exists (os error 17)"
  | notDirectory => "Not a directory (os error 20)"
  | isDirectory => "Is a directory (os error 21)"
  | noDevice => "No such device (os error 19)"
  | nameTooLong => "File name too long (os error 36)"
  | nullInName => "file name contained an unexpected NUL byte"
  | other text => text

def nameLimit : Nat := 255

def pathLimit : Nat := 4095

/-- Why a path is refused before anything is looked up. -/
def pathFault? (path : String) : Option SystemError :=
  if path.toList.contains '\x00' then some .nullInName
  else if pathLimit < path.utf8ByteSize then some .nameTooLong
  else none

def joinPath (path name : String) : String :=
  if path = "" || path.toList.getLast? = some '/' then path ++ name else path ++ "/" ++ name

/-- The components of a path: what stands between its slashes. -/
def pathComponents (path : String) : List String :=
  (path.toList.splitOn '/').map String.ofList

namespace FileTree

def get? (tree : FileTree) (place : Place) : Option Entry :=
  if place = [] then some .directory else tree.entries.lookup place

def isDirectory (tree : FileTree) (place : Place) : Bool :=
  match tree.get? place with
  | some .directory => true
  | _ => false

def put (tree : FileTree) (place : Place) (entry : Entry) : FileTree :=
  { tree with entries := Assoc.put tree.entries place entry }

/-- Nothing changes but what stands at the place. -/
theorem get?_put (tree : FileTree) (place : Place) (entry : Entry) (spot : Place)
    (inside : place ≠ []) :
    (tree.put place entry).get? spot = if spot = place then some entry else tree.get? spot := by
  by_cases here : spot = place
  · simp [put, get?, here, inside, Assoc.lookup_put]
  · simp [put, get?, here, Assoc.lookup_put]

def erase (tree : FileTree) (place : Place) : FileTree :=
  { tree with entries := tree.entries.filter (·.1 ≠ place) }

/-- The files directly in a directory, by name. -/
def filesIn (tree : FileTree) (place : Place) : List (String × ByteArray) :=
  tree.entries.filterMap fun (spot, entry) =>
    match entry, spot.getLast? with
    | .file content, some name => if spot.dropLast = place then some (name, content) else none
    | _, _ => none

/-- Follow components from a place. -/
def follow (tree : FileTree) (here : Place) : List String → Except SystemError Place
  | [] => .ok here
  | component :: rest =>
      if tree.isDirectory here then
        if component = "" || component = "." then tree.follow here rest
        else if component = ".." then tree.follow here.dropLast rest
        else if nameLimit < component.utf8ByteSize then .error .nameTooLong
        else tree.follow (here ++ [component]) rest
      else if (tree.get? here).isSome then .error .notDirectory
      else .error .notFound

def start (tree : FileTree) (path : String) : Place :=
  if path.toList.head? = some '/' then [] else tree.workingDirectory

/-- The place a path names; nothing need stand there. -/
def locate (tree : FileTree) (path : String) : Except SystemError Place :=
  match pathFault? path with
  | some error => .error error
  | none =>
      if path = "" then .error .notFound
      else tree.follow (tree.start path) (pathComponents path)

/-- What stands where a path leads. -/
def find? (tree : FileTree) (path : String) : Option Entry :=
  match tree.locate path with
  | .error _ => none
  | .ok place => tree.get? place

/-- The place of the directory a path names, or why there is none. -/
def directory (tree : FileTree) (path : String) : Except SystemError Place :=
  match tree.locate path with
  | .error error => .error error
  | .ok place =>
      if tree.isDirectory place then .ok place
      else if (tree.get? place).isSome then .error .notDirectory
      else .error .notFound

def directory? (tree : FileTree) (path : String) : Option Place :=
  (tree.directory path).toOption

/-- Create one directory inside an existing one; its components are followed from a place. -/
def makeDirectory (tree : FileTree) (start : Place) (components : List String) :
    Except SystemError FileTree :=
  match tree.follow start components.dropLast with
  | .error error => .error error
  | .ok parent =>
      let name := components.getLast?.getD "."
      if tree.isDirectory parent then
        if name = "." || name = ".." || (tree.get? (parent ++ [name])).isSome then
          .error .alreadyExists
        else if nameLimit < name.utf8ByteSize then .error .nameTooLong
        else .ok (tree.put (parent ++ [name]) .directory)
      else if (tree.get? parent).isSome then .error .notDirectory
      else .error .notFound

/-- The components lead from a place to a directory. -/
def leadsToDirectory (tree : FileTree) (start : Place) (components : List String) : Bool :=
  match tree.follow start components with
  | .error _ => false
  | .ok place => tree.isDirectory place

def withoutDots (components : List String) : List String :=
  (components.reverse.dropWhile (· = ".")).reverse

/-- The components of the directory around: without the last name, and without final dots. -/
def around (components : List String) : List String :=
  withoutDots (withoutDots components).dropLast

/-- Create a directory and, as needed, those around it; for at most a number of levels. The tree is
given back also after an error. -/
def makeAll (tree : FileTree) (start : Place) (components : List String) :
    Nat → FileTree × Option SystemError
  | 0 => (tree, some .notFound)
  | levels + 1 =>
      if components = [] then (tree, none)
      else match tree.makeDirectory start components with
        | .ok made => (made, none)
        | .error .notFound =>
            match tree.makeAll start (around components) levels with
            | (outer, some error) => (outer, some error)
            | (outer, none) =>
                match outer.makeDirectory start components with
                | .ok made => (made, none)
                | .error error =>
                    (outer, if outer.leadsToDirectory start components then none else some error)
        | .error error =>
            (tree, if tree.leadsToDirectory start components then none else some error)

/-- Create the directory of a path and all directories around it that are missing. -/
def makeDirectories (tree : FileTree) (path : String) : FileTree × Option SystemError :=
  match pathFault? path with
  | some error => (tree, some error)
  | none =>
      let components := (pathComponents path).filter (· ≠ "")
      tree.makeAll (tree.start path) components (components.length + 1)

def writeFile (tree : FileTree) (path : String) (content : ByteArray) :
    Except SystemError FileTree :=
  match tree.locate path with
  | .error error => .error error
  | .ok place =>
      if tree.isDirectory place then .error .isDirectory
      else if tree.isDirectory place.dropLast then .ok (tree.put place (.file content))
      else if (tree.get? place.dropLast).isSome then .error .notDirectory
      else .error .notFound

end FileTree

end CallDepth
