/-
# Paths and writes in file trees

Where a path leads depends on the directories of a tree alone, and only through their presence: a
path that leads somewhere leads there in every tree with at least these directories
(`follow_of_keeps`).

* `makeDirectory_eq_ok` and `writeFile_eq_ok_iff` say what a successful write changes: one place,
  where nothing stood before, or a file.
* `makeAll_leads`: directories that were created are there afterwards, and `makeAll_of_leads`:
  creating directories that are there changes nothing.
* `put_eq_self`: putting what is there changes nothing.
-/
import CallDepth.FileTree
import Mathlib.Data.List.Basic

namespace CallDepth

namespace Assoc

variable {κ α : Type} [BEq κ] [LawfulBEq κ]

theorem put_eq_self {entries : List (κ × α)} {key : κ} {value : α}
    (found : entries.lookup key = some value) : put entries key value = entries := by
  induction entries with
  | nil => cases found
  | cons entry rest ih =>
      obtain ⟨k, v⟩ := entry
      rw [lookup_cons] at found
      by_cases here : k = key
      · subst here
        simp only [beq_self_eq_true, if_true, Option.some.injEq] at found
        simp [put, found]
      · have away : ¬ key = k := fun same => here same.symm
        simp only [beq_iff_eq, away, if_false] at found
        simp [put, here, ih found]

theorem put_of_missing {entries : List (κ × α)} {key : κ} (value : α)
    (missing : entries.lookup key = none) :
    put entries key value = entries ++ [(key, value)] := by
  induction entries with
  | nil => rfl
  | cons entry rest ih =>
      obtain ⟨k, v⟩ := entry
      rw [lookup_cons] at missing
      by_cases here : key = k
      · simp [here] at missing
      · have away : ¬ k = key := fun same => here same.symm
        simp only [beq_iff_eq, here, if_false] at missing
        simp [put, away, ih missing]

/-- What a view passes over at a key, before and after, does not show in it. -/
theorem filterMap_put {β : Type} (view : κ × α → Option β) {entries : List (κ × α)} {key : κ}
    {value : α} (after : view (key, value) = none)
    (before : ∀ old, entries.lookup key = some old → view (key, old) = none) :
    (put entries key value).filterMap view = entries.filterMap view := by
  induction entries with
  | nil => simp [put, after]
  | cons entry rest ih =>
      obtain ⟨k, v⟩ := entry
      by_cases here : k = key
      · subst here
        have old : view (k, v) = none := before v (by simp)
        simp [put, after, old]
      · have away : ¬ key = k := fun same => here same.symm
        have rest_eq := ih fun old found => before old (by simp [lookup_cons, away, found])
        simp [put, here, List.filterMap_cons, rest_eq]

end Assoc

/-! ## Paths -/

/-- A name that an entry of a directory can have. -/
structure IsEntryName (name : String) : Prop where
  noSlash : '/' ∉ name.toList
  ne_empty : name ≠ ""
  ne_dot : name ≠ "."
  ne_dots : name ≠ ".."
  short : name.utf8ByteSize ≤ nameLimit

theorem pathComponents_of_noSlash {name : String} (noSlash : '/' ∉ name.toList) :
    pathComponents name = [name] := by
  simp [pathComponents, List.splitOn_eq_singleton noSlash]

theorem pathComponents_append_slash (path name : String) :
    pathComponents (path ++ "/" ++ name) = pathComponents path ++ pathComponents name := by
  have slash : (path ++ "/" ++ name).toList = path.toList ++ '/' :: name.toList := by
    simp [String.toList_append]
  rw [pathComponents, slash, List.splitOn_append_cons_self, List.map_append]
  rfl

theorem pathFault?_eq_none_iff {path : String} :
    pathFault? path = none ↔ '\x00' ∉ path.toList ∧ path.utf8ByteSize ≤ pathLimit := by
  rw [pathFault?]
  by_cases null : '\x00' ∈ path.toList
  · simp [null]
  · by_cases long : pathLimit < path.utf8ByteSize
    · simp [null, long]
    · simp [null, long, Nat.not_lt.1 long]

/-- A path to a name in a directory ends in this name. -/
theorem pathComponents_joinPath (directory : String) {name : String}
    (noSlash : '/' ∉ name.toList) :
    ∃ before, pathComponents (joinPath directory name) = before ++ [name] := by
  rw [joinPath]
  split
  next direct =>
    rw [Bool.or_eq_true, decide_eq_true_eq, decide_eq_true_eq] at direct
    rcases direct with rfl | slash
    · exact ⟨[], by simp [pathComponents_of_noSlash noSlash]⟩
    · -- The slash at the end of the directory divides it from the name.
      obtain ⟨start, ends⟩ := List.getLast?_eq_some_iff.1 slash
      have path : directory = String.ofList start ++ "/" := by
        rw [← String.toList_inj, ends]
        simp [String.toList_append]
      refine ⟨pathComponents (String.ofList start), ?_⟩
      rw [path, pathComponents_append_slash, pathComponents_of_noSlash noSlash]
  next =>
    exact ⟨pathComponents directory, by
      rw [pathComponents_append_slash, pathComponents_of_noSlash noSlash]⟩

namespace FileTree

variable {tree later : FileTree}

/-! ## Places -/

theorem isDirectory_iff {place : Place} :
    tree.isDirectory place = true ↔ tree.get? place = some .directory := by
  rw [isDirectory]
  split
  next found => simp [found]
  next other => simpa using other

theorem not_isDirectory_of_missing {place : Place} (missing : tree.get? place = none) :
    tree.isDirectory place = false := by
  simp [isDirectory, missing]

theorem isDirectory_root (tree : FileTree) : tree.isDirectory [] = true := by
  simp [isDirectory, get?]

theorem ne_root_of_not_isDirectory {place : Place} (away : tree.isDirectory place = false) :
    place ≠ [] := by
  rintro rfl
  rw [isDirectory_root] at away
  cases away

theorem put_eq_self {place : Place} {entry : Entry} (inside : place ≠ [])
    (found : tree.get? place = some entry) : tree.put place entry = tree := by
  rw [get?, if_neg inside] at found
  rw [put, Assoc.put_eq_self found]

/-- Every directory of the one tree is a directory of the other, and paths start at the same
places. -/
structure KeepsDirectories (tree later : FileTree) : Prop where
  workingDirectory : later.workingDirectory = tree.workingDirectory
  isDirectory : ∀ place, tree.isDirectory place = true → later.isDirectory place = true

theorem KeepsDirectories.refl (tree : FileTree) : tree.KeepsDirectories tree :=
  ⟨rfl, fun _ known => known⟩

theorem KeepsDirectories.trans {middle : FileTree} (first : tree.KeepsDirectories middle)
    (second : middle.KeepsDirectories later) : tree.KeepsDirectories later :=
  ⟨second.workingDirectory.trans first.workingDirectory,
    fun place known => second.isDirectory place (first.isDirectory place known)⟩

theorem KeepsDirectories.start_eq (keeps : tree.KeepsDirectories later) (path : String) :
    later.start path = tree.start path := by
  rw [start, start, keeps.workingDirectory]

/-- A file that replaces no directory keeps all directories, and so does a new directory. -/
theorem keepsDirectories_put {place : Place} {entry : Entry}
    (away : tree.isDirectory place = false) : tree.KeepsDirectories (tree.put place entry) := by
  refine ⟨rfl, fun spot known => ?_⟩
  have other : spot ≠ place := by
    rintro rfl
    rw [away] at known
    cases known
  rw [isDirectory_iff] at known ⊢
  rw [get?_put _ _ _ _ (ne_root_of_not_isDirectory away), if_neg other, known]

/-! ## The files of a directory -/

/-- What an entry is to a directory: one of its files, or nothing. -/
def fileIn (place : Place) (item : Place × Entry) : Option (String × ByteArray) :=
  match item.2, item.1.getLast? with
  | .file content, some name => if item.1.dropLast = place then some (name, content) else none
  | _, _ => none

theorem filesIn_eq (tree : FileTree) (place : Place) :
    tree.filesIn place = tree.entries.filterMap (fileIn place) :=
  rfl

theorem fileIn_directory (place spot : Place) : fileIn place (spot, .directory) = none :=
  rfl

theorem fileIn_file (place parent : Place) (name : String) (content : ByteArray) :
    fileIn place (parent ++ [name], .file content) =
      if parent = place then some (name, content) else none := by
  simp [fileIn]

theorem fileIn_eq_some_iff {place spot : Place} {entry : Entry} {file : String × ByteArray} :
    fileIn place (spot, entry) = some file ↔
      spot = place ++ [file.1] ∧ entry = .file file.2 := by
  obtain ⟨name, content⟩ := file
  cases entry with
  | directory => simp [fileIn_directory]
  | file bytes =>
      rcases List.eq_nil_or_concat' spot with rfl | ⟨parent, last, rfl⟩
      · simp [fileIn]
      · rw [fileIn_file]
        by_cases here : parent = place <;> simp [here]

theorem name_of_fileIn {place parent : Place} {name : String} {entry : Entry}
    {file : String × ByteArray} (found : fileIn place (parent ++ [name], entry) = some file) :
    file.1 = name := by
  have last := congrArg List.getLast? (fileIn_eq_some_iff.1 found).1
  simpa using last.symm

/-- What is put where the files of a directory that matter neither were nor are leaves these. -/
theorem filter_filesIn_put (keep : String × ByteArray → Bool) (place : Place) {spot : Place}
    {entry : Entry} (after : (fileIn place (spot, entry)).filter keep = none)
    (before : ∀ old, tree.entries.lookup spot = some old →
      (fileIn place (spot, old)).filter keep = none) :
    ((tree.put spot entry).filesIn place).filter keep = (tree.filesIn place).filter keep := by
  rw [filesIn_eq, filesIn_eq, List.filter_filterMap, List.filter_filterMap]
  exact Assoc.filterMap_put _ after before

theorem mem_entries_of_filesIn {place : Place} {file : String × ByteArray}
    (listed : file ∈ tree.filesIn place) :
    (place ++ [file.1], .file file.2) ∈ tree.entries := by
  rw [filesIn_eq, List.mem_filterMap] at listed
  obtain ⟨⟨spot, entry⟩, member, found⟩ := listed
  obtain ⟨rfl, rfl⟩ := fileIn_eq_some_iff.1 found
  exact member

/-- A new file comes after the other files of its directory. -/
theorem filesIn_put_of_missing {place : Place} {name : String} (content : ByteArray)
    (missing : tree.get? (place ++ [name]) = none) :
    (tree.put (place ++ [name]) (.file content)).filesIn place =
      tree.filesIn place ++ [(name, content)] := by
  rw [get?, if_neg (by simp)] at missing
  rw [filesIn_eq, filesIn_eq, put, Assoc.put_of_missing _ missing, List.filterMap_append]
  simp [fileIn_file]

theorem ne_of_mem_filesIn {place : Place} {name : String} {file : String × ByteArray}
    (missing : tree.get? (place ++ [name]) = none) (listed : file ∈ tree.filesIn place) :
    file.1 ≠ name := by
  rintro rfl
  rw [get?, if_neg (by simp)] at missing
  exact Assoc.not_mem_keys_of_lookup missing (List.mem_map_of_mem (mem_entries_of_filesIn listed))

/-- Where every place has one entry, every name of a directory has one file. -/
theorem names_filesIn_nodup (distinct : (Assoc.keys tree.entries).Nodup) (place : Place) :
    ((tree.filesIn place).map Prod.fst).Nodup := by
  rw [filesIn_eq, List.Nodup, List.pairwise_map, List.pairwise_filterMap]
  rw [Assoc.keys, List.Nodup, List.pairwise_map] at distinct
  refine distinct.imp fun apart file found other found' same => apart ?_
  rw [(fileIn_eq_some_iff.1 found).1, (fileIn_eq_some_iff.1 found').1, same]

/-! ## Following components -/

/-- Components are followed one after another. -/
theorem follow_append (tree : FileTree) (here : Place) (first second : List String) :
    tree.follow here (first ++ second) =
      (tree.follow here first).bind fun middle => tree.follow middle second := by
  induction first generalizing here with
  | nil => rfl
  | cons component rest ih =>
      simp only [List.cons_append, follow]
      split
      · split
        · exact ih here
        · split
          · exact ih here.dropLast
          · split
            · rfl
            · exact ih (here ++ [component])
      · split <;> rfl

theorem follow_concat_eq_ok {here place : Place} {before : List String} {last : String}
    (led : tree.follow here (before ++ [last]) = .ok place) :
    ∃ parent, tree.follow here before = .ok parent ∧ tree.follow parent [last] = .ok place := by
  rw [follow_append] at led
  cases first : tree.follow here before with
  | error error =>
      rw [first] at led
      cases led
  | ok parent =>
      rw [first] at led
      exact ⟨parent, rfl, led⟩

/-- A step is taken from a directory. -/
theorem isDirectory_of_follow {here place : Place} {component : String} {rest : List String}
    (led : tree.follow here (component :: rest) = .ok place) : tree.isDirectory here = true := by
  rw [follow] at led
  split at led
  next known => exact known
  next => split at led <;> cases led

/-- A name, unlike the components with a meaning of their own, leads one level down. -/
theorem follow_name {here : Place} {name : String} (known : tree.isDirectory here = true)
    (ne_empty : name ≠ "") (ne_dot : name ≠ ".") (ne_dots : name ≠ "..") :
    tree.follow here [name] =
      if nameLimit < name.utf8ByteSize then .error .nameTooLong else .ok (here ++ [name]) := by
  simp [follow, known, ne_empty, ne_dot, ne_dots]

theorem follow_entryName {here : Place} {name : String} (entryName : IsEntryName name)
    (known : tree.isDirectory here = true) : tree.follow here [name] = .ok (here ++ [name]) := by
  rw [follow_name known entryName.ne_empty entryName.ne_dot entryName.ne_dots,
    if_neg (Nat.not_lt.2 entryName.short)]

/-- Components lead to the same place in a tree with more directories. -/
theorem follow_of_keeps (keeps : tree.KeepsDirectories later) {components : List String}
    {here place : Place} (led : tree.follow here components = .ok place) :
    later.follow here components = .ok place := by
  induction components generalizing here with
  | nil => exact led
  | cons component rest ih =>
      have known := isDirectory_of_follow led
      rw [follow, if_pos known] at led
      rw [follow, if_pos (keeps.isDirectory here known)]
      split at led
      next stays => rw [if_pos stays, ih led]
      next moves =>
        rw [if_neg moves]
        split at led
        next up => rw [if_pos up, ih led]
        next down =>
          rw [if_neg down]
          split at led
          next => cases led
          next short => rw [if_neg short, ih led]

theorem locate_eq_ok_iff {path : String} {place : Place} :
    tree.locate path = .ok place ↔
      pathFault? path = none ∧ path ≠ "" ∧
        tree.follow (tree.start path) (pathComponents path) = .ok place := by
  rw [locate]
  split
  next error faulty => simp [faulty]
  next faultless => by_cases empty : path = "" <;> simp [faultless, empty]

theorem directory?_eq_some_iff {path : String} {place : Place} :
    tree.directory? path = some place ↔
      tree.locate path = .ok place ∧ tree.isDirectory place = true := by
  rw [directory?, directory]
  split
  next error refused => simp [refused, Except.toOption]
  next spot led =>
    rw [led, Except.ok.injEq]
    by_cases known : tree.isDirectory spot = true
    · rw [if_pos known, Except.toOption, Option.some.injEq]
      constructor
      · rintro rfl
        exact ⟨rfl, known⟩
      · exact fun same => same.1
    · rw [if_neg known]
      constructor
      · split <;> (intro impossible; cases impossible)
      · rintro ⟨rfl, known'⟩
        exact absurd known' known

/-- A path that leads somewhere leads there in a tree with more directories. -/
theorem locate_of_keeps (keeps : tree.KeepsDirectories later) {path : String} {place : Place}
    (led : tree.locate path = .ok place) : later.locate path = .ok place := by
  obtain ⟨faultless, nonempty, followed⟩ := locate_eq_ok_iff.1 led
  refine locate_eq_ok_iff.2 ⟨faultless, nonempty, ?_⟩
  rw [keeps.start_eq]
  exact follow_of_keeps keeps followed

theorem directory?_of_keeps (keeps : tree.KeepsDirectories later) {path : String} {place : Place}
    (found : tree.directory? path = some place) : later.directory? path = some place := by
  obtain ⟨led, known⟩ := directory?_eq_some_iff.1 found
  exact directory?_eq_some_iff.2 ⟨locate_of_keeps keeps led, keeps.isDirectory place known⟩

/-- The path to a name in a directory leads to a place of this name. -/
theorem locate_joinPath {directory name : String} {place : Place} (entryName : IsEntryName name)
    (led : tree.locate (joinPath directory name) = .ok place) :
    ∃ parent, place = parent ++ [name] := by
  obtain ⟨before, components⟩ := pathComponents_joinPath directory entryName.noSlash
  obtain ⟨-, -, followed⟩ := locate_eq_ok_iff.1 led
  rw [components] at followed
  obtain ⟨parent, -, last⟩ := follow_concat_eq_ok followed
  rw [follow_entryName entryName (isDirectory_of_follow last)] at last
  cases last
  exact ⟨parent, rfl⟩

/-! ## Writing a file -/

/-- A file is written where its path leads, unless a directory stands there, and only into a
directory. -/
theorem writeFile_eq_ok_iff {path : String} {content : ByteArray} :
    tree.writeFile path content = .ok later ↔
      ∃ place, tree.locate path = .ok place ∧ tree.isDirectory place = false ∧
        tree.isDirectory place.dropLast = true ∧ later = tree.put place (.file content) := by
  rw [writeFile]
  split
  next error led => simp [led]
  next place led =>
    simp only [led, Except.ok.injEq, exists_eq_left']
    cases known : tree.isDirectory place with
    | true => simp
    | false =>
        cases around : tree.isDirectory place.dropLast with
        | true => simp [eq_comm]
        | false => by_cases there : (tree.get? place.dropLast).isSome = true <;> simp [there]

/-! ## Making directories -/

variable {start : Place} {components : List String}

/-- A directory is made inside another one, where nothing stood. -/
theorem makeDirectory_eq_ok (made : tree.makeDirectory start components = .ok later) :
    ∃ before name parent, components = before ++ [name] ∧ tree.follow start before = .ok parent ∧
      tree.isDirectory parent = true ∧ name ≠ "." ∧ name ≠ ".." ∧
      tree.get? (parent ++ [name]) = none ∧ name.utf8ByteSize ≤ nameLimit ∧
      later = tree.put (parent ++ [name]) .directory := by
  rw [makeDirectory] at made
  split at made
  next => cases made
  next parent led =>
    simp only at made
    split at made
    next known =>
      split at made
      next => cases made
      next fresh =>
        split at made
        next => cases made
        next short =>
          simp only [Bool.or_eq_true, decide_eq_true_eq, not_or, Bool.not_eq_true,
            Option.isSome_eq_false_iff, Option.isNone_iff_eq_none] at fresh
          obtain ⟨⟨ne_dot, ne_dots⟩, fresh⟩ := fresh
          cases last : components.getLast? with
          | none => simp [last] at ne_dot
          | some name =>
              obtain ⟨before, rfl⟩ := List.getLast?_eq_some_iff.1 last
              simp only [last, Option.getD_some] at ne_dot ne_dots fresh short made
              rw [List.dropLast_concat] at led
              cases made
              exact ⟨before, name, parent, rfl, led, known, ne_dot, ne_dots, fresh,
                Nat.not_lt.1 short, rfl⟩
    next => split at made <;> cases made

theorem leadsToDirectory_iff :
    tree.leadsToDirectory start components = true ↔
      ∃ place, tree.follow start components = .ok place ∧ tree.isDirectory place = true := by
  rw [leadsToDirectory]
  split
  next led => simp [led]
  next place led => simp [led]

theorem leadsToDirectory_of_keeps (keeps : tree.KeepsDirectories later)
    (leads : tree.leadsToDirectory start components = true) :
    later.leadsToDirectory start components = true := by
  obtain ⟨place, led, known⟩ := leadsToDirectory_iff.1 leads
  exact leadsToDirectory_iff.2 ⟨place, follow_of_keeps keeps led, keeps.isDirectory place known⟩

/-- A directory that was made is there. -/
theorem leadsToDirectory_of_made (made : tree.makeDirectory start components = .ok later) :
    later.leadsToDirectory start components = true := by
  obtain ⟨before, name, parent, rfl, led, known, ne_dot, ne_dots, fresh, short, rfl⟩ :=
    makeDirectory_eq_ok made
  have away := not_isDirectory_of_missing fresh
  have keeps : tree.KeepsDirectories (tree.put (parent ++ [name]) .directory) :=
    keepsDirectories_put away
  have around := keeps.isDirectory parent known
  have there : (tree.put (parent ++ [name]) .directory).isDirectory (parent ++ [name]) = true := by
    rw [isDirectory_iff, get?_put _ _ _ _ (ne_root_of_not_isDirectory away), if_pos rfl]
  refine leadsToDirectory_iff.2 ?_
  rw [follow_append, follow_of_keeps keeps led]
  by_cases empty : name = ""
  · subst empty
    exact ⟨parent, by simp [Except.bind, follow, around], around⟩
  · refine ⟨parent ++ [name], ?_, there⟩
    rw [Except.bind, follow_name around empty ne_dot ne_dots, if_neg (Nat.not_lt.2 short)]

/-- Creating a directory that is there fails, and not for want of the directory around it. -/
theorem makeDirectory_of_leads {before : List String} {name : String} (named : name ≠ "")
    (leads : tree.leadsToDirectory start (before ++ [name]) = true) :
    tree.makeDirectory start (before ++ [name]) = .error .alreadyExists := by
  obtain ⟨place, led, known⟩ := leadsToDirectory_iff.1 leads
  obtain ⟨parent, outer, last⟩ := follow_concat_eq_ok led
  have around := isDirectory_of_follow last
  have taken : name = "." ∨ name = ".." ∨ (tree.get? (parent ++ [name])).isSome = true := by
    by_cases dot : name = "."
    · exact .inl dot
    · by_cases dots : name = ".."
      · exact .inr (.inl dots)
      · right
        right
        rw [follow_name around named dot dots] at last
        split at last
        next => cases last
        next =>
          cases last
          simp [isDirectory_iff.1 known]
  rw [makeDirectory, List.dropLast_concat, outer]
  simp only [List.getLast?_concat, Option.getD_some, around, if_true]
  rw [if_pos]
  simpa [or_assoc] using taken

/-- One attempt at a directory; that it is there already is no fault. -/
def attempt (tree : FileTree) (start : Place) (components : List String) :
    FileTree × Option SystemError :=
  match tree.makeDirectory start components with
  | .ok made => (made, none)
  | .error error => (tree, if tree.leadsToDirectory start components then none else some error)

theorem attempt_leads (made : tree.attempt start components = (later, none)) :
    later.leadsToDirectory start components = true := by
  rw [attempt] at made
  split at made
  next success =>
    cases made
    exact leadsToDirectory_of_made success
  next =>
    split at made
    next leads =>
      cases made
      exact leads
    next => cases made

/-- Without a directory around, the attempt is made once more after that one has been created. -/
theorem makeAll_succ (tree : FileTree) (start : Place) (nonempty : components ≠ [])
    (levels : Nat) :
    tree.makeAll start components (levels + 1) = tree.attempt start components ∨
      ∃ outer fault, tree.makeAll start (around components) levels = (outer, fault) ∧
        tree.makeAll start components (levels + 1) =
          match fault with
          | some error => (outer, some error)
          | none => outer.attempt start components := by
  rw [makeAll, if_neg nonempty]
  split
  next made => exact .inl (by rw [attempt, made])
  next =>
    right
    split
    next outer error inner => exact ⟨outer, some error, inner, rfl⟩
    next outer inner => exact ⟨outer, none, inner, rfl⟩
  next refused => exact .inl (by rw [attempt, refused])

/-- All directories that were made are there. -/
theorem makeAll_leads {levels : Nat} (nonempty : components ≠ [])
    (made : tree.makeAll start components levels = (later, none)) :
    later.leadsToDirectory start components = true := by
  cases levels with
  | zero => cases made
  | succ levels =>
      rcases tree.makeAll_succ start nonempty levels with once | ⟨outer, fault, -, again⟩
      · exact attempt_leads (once.symm.trans made)
      · rw [again] at made
        cases fault with
        | some error => cases made
        | none => exact attempt_leads made

/-- Making a directory that is there changes nothing. -/
theorem makeAll_of_leads (named : "" ∉ components)
    (leads : components ≠ [] → tree.leadsToDirectory start components = true) (levels : Nat) :
    tree.makeAll start components (levels + 1) = (tree, none) := by
  rcases List.eq_nil_or_concat' components with rfl | ⟨before, name, rfl⟩
  · rw [makeAll, if_pos rfl]
  · have nonempty : before ++ [name] ≠ [] := by simp
    have ne_empty : name ≠ "" := by
      rintro rfl
      exact named (by simp)
    rw [makeAll, if_neg nonempty, makeDirectory_of_leads ne_empty (leads nonempty)]
    simp [leads nonempty]

end FileTree

end CallDepth
