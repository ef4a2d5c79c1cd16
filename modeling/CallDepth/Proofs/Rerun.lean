/-
# Running again

An export only makes directories where nothing stood and writes report files (`FileTree.Writes`).
Neither shows in what is loaded from any directory, which passes over directories and report files
(`load_of_writes`).

* `writeReport_writes`: every export is a row of such writes, also one that fails.
* `writeReport_again`: an export that succeeded succeeds again and leaves the tree as it is.
* `rerun_changes_nothing`: so does a whole run of the program.
-/
import CallDepth.Program
import CallDepth.Proofs.Loading
import Mathlib.Logic.Relation

namespace CallDepth

open Relation

/-! ## The names of report files -/

def reportNames : List String :=
  [depthsFile, tracesFile]

theorem entryName_of_report {name : String} (reports : name ∈ reportNames) : IsEntryName name := by
  rcases List.mem_pair.1 reports with rfl | rfl
  all_goals constructor <;> decide

/-- Report files are no sources. -/
theorem isSource_of_report {name : String} (reports : name ∈ reportNames) :
    isSource name = false := by
  rcases List.mem_pair.1 reports with rfl | rfl
  all_goals simp [isSource]

theorem Report.names_sublist (report : Report) (withTraces : Bool) :
    ((report.files withTraces).map Prod.fst).Sublist reportNames := by
  cases withTraces <;> simp [Report.files, reportNames]

theorem reportNames_nodup : reportNames.Nodup := by
  decide

theorem Report.name_of_mem_files {report : Report} {withTraces : Bool} {file : String × String}
    (member : file ∈ report.files withTraces) : file.1 ∈ reportNames :=
  (report.names_sublist withTraces).subset (List.mem_map_of_mem member)

theorem Report.names_nodup (report : Report) (withTraces : Bool) :
    ((report.files withTraces).map Prod.fst).Nodup :=
  (report.names_sublist withTraces).nodup reportNames_nodup

namespace FileTree

variable {tree later : FileTree}

/-! ## What an export does to a tree -/

/-- One write of an export: a directory where nothing stood, or a report file. -/
inductive Writes : FileTree → FileTree → Prop
  | directory {tree : FileTree} {place : Place} (fresh : tree.get? place = none) :
      Writes tree (tree.put place .directory)
  | report {tree : FileTree} {parent : Place} {name : String} {content : ByteArray}
      (reports : name ∈ reportNames) (away : tree.isDirectory (parent ++ [name]) = false) :
      Writes tree (tree.put (parent ++ [name]) (.file content))

/-- A write removes no directory. -/
theorem Writes.keeps (step : Writes tree later) : tree.KeepsDirectories later := by
  cases step with
  | directory fresh => exact keepsDirectories_put (not_isDirectory_of_missing fresh)
  | report reports away => exact keepsDirectories_put away

theorem keeps_of_writes (steps : ReflTransGen Writes tree later) :
    tree.KeepsDirectories later := by
  induction steps with
  | refl => exact .refl tree
  | tail _ step ih => exact ih.trans step.keeps

/-- A write neither adds nor changes a source of any directory. -/
theorem Writes.sources_eq (step : Writes tree later) (directory : String) (place : Place) :
    sources directory (later.filesIn place) = sources directory (tree.filesIn place) := by
  simp only [sources]
  congr 1
  cases step with
  | @directory spot fresh =>
      have inside := ne_root_of_not_isDirectory (not_isDirectory_of_missing fresh)
      rw [get?, if_neg inside] at fresh
      refine filter_filesIn_put _ place rfl fun old found => ?_
      rw [fresh] at found
      cases found
  | @report parent name content reports away =>
      -- Whatever stood at the place of the report file had its name, which is no source's.
      refine filter_filesIn_put _ place ?_ fun old _ => ?_
      all_goals
        rw [Option.filter_eq_none_iff]
        intro file found
        simp [name_of_fileIn found, isSource_of_report reports]

/-- Writes do not show in what is loaded. -/
theorem load_of_writes {explain : ByteArray → String} {directory : String} {loaded : Loaded}
    (steps : ReflTransGen Writes tree later) (found : tree.load explain directory = .ok loaded) :
    later.load explain directory = .ok loaded := by
  induction steps with
  | refl => exact found
  | @tail middle final _ step ih =>
      cases known : middle.directory? directory with
      | none =>
          rw [load_eq, known] at ih
          cases ih
      | some place =>
          rw [load_of_directory explain known] at ih
          rw [load_of_directory explain (directory?_of_keeps step.keeps known), step.sources_eq, ih]

/-! ## Every export is a row of writes -/

theorem attempt_writes (tree : FileTree) (start : Place) (components : List String) :
    ReflTransGen Writes tree (tree.attempt start components).1 := by
  rw [attempt]
  split
  next made =>
    obtain ⟨_, _, _, _, _, _, _, _, fresh, _, rfl⟩ := makeDirectory_eq_ok made
    exact .single (.directory fresh)
  next => exact .refl

theorem makeAll_writes (tree : FileTree) (start : Place) (components : List String)
    (levels : Nat) : ReflTransGen Writes tree (tree.makeAll start components levels).1 := by
  induction levels generalizing components with
  | zero => exact .refl
  | succ levels ih =>
      by_cases empty : components = []
      · rw [makeAll, if_pos empty]
      · rcases tree.makeAll_succ start empty levels with once | ⟨outer, fault, inner, again⟩
        · rw [once]
          exact tree.attempt_writes start components
        · have around := ih (around components)
          rw [inner] at around
          rw [again]
          cases fault with
          | some error => exact around
          | none => exact around.trans (outer.attempt_writes start components)

theorem makeDirectories_writes (tree : FileTree) (path : String) :
    ReflTransGen Writes tree (tree.makeDirectories path).1 := by
  rw [makeDirectories]
  split
  · exact .refl
  · exact tree.makeAll_writes _ _ _

/-- A report file is written at a place of its name. -/
theorem writeFile_report {directory name : String} {content : ByteArray}
    (reports : name ∈ reportNames)
    (written : tree.writeFile (joinPath directory name) content = .ok later) :
    ∃ parent, tree.locate (joinPath directory name) = .ok (parent ++ [name]) ∧
      tree.isDirectory (parent ++ [name]) = false ∧ tree.isDirectory parent = true ∧
      later = tree.put (parent ++ [name]) (.file content) := by
  obtain ⟨place, led, away, around, rfl⟩ := writeFile_eq_ok_iff.1 written
  obtain ⟨parent, rfl⟩ := locate_joinPath (entryName_of_report reports) led
  rw [List.dropLast_concat] at around
  exact ⟨parent, led, away, around, rfl⟩

theorem writeAll_writes (tree : FileTree) (directory : String) {files : List (String × String)}
    (reports : ∀ file ∈ files, file.1 ∈ reportNames) :
    ReflTransGen Writes tree (tree.writeAll directory files).1 := by
  induction files generalizing tree with
  | nil => exact .refl
  | cons file rest ih =>
      obtain ⟨name, text⟩ := file
      have first : name ∈ reportNames := reports (name, text) (by simp)
      rw [writeAll_cons]
      split
      next => exact .refl
      next middle written =>
        obtain ⟨parent, -, away, -, rfl⟩ := writeFile_report first written
        exact .head (.report first away) (ih _ fun file member => reports file (by simp [member]))

/-- Every export is a row of writes, also one that fails halfway. -/
theorem writeReport_writes (tree : FileTree) (report : Report) (withTraces : Bool)
    (directory : String) :
    ReflTransGen Writes tree (tree.writeReport report withTraces directory).1 := by
  have made := tree.makeDirectories_writes directory
  rw [writeReport_eq]
  split
  next outer cause failed =>
    rw [failed] at made
    exact made
  next outer success =>
    rw [success] at made
    exact made.trans (outer.writeAll_writes directory fun _ => Report.name_of_mem_files)

/-! ## A second export -/

theorem writeAll_cons_eq_ok {directory name text : String} {rest : List (String × String)}
    {paths : List String}
    (written : tree.writeAll directory ((name, text) :: rest) = (later, .ok paths)) :
    ∃ middle others, tree.writeFile (joinPath directory name) text.toUTF8 = .ok middle ∧
      middle.writeAll directory rest = (later, .ok others) ∧
      paths = joinPath directory name :: others := by
  rw [writeAll_cons] at written
  split at written
  next => cases written
  next middle first =>
    cases remaining : middle.writeAll directory rest with
    | mk final result =>
        rw [remaining] at written
        cases result with
        | error error => cases written
        | ok others =>
            cases written
            exact ⟨middle, others, first, remaining, rfl⟩

/-- Files of other names stay what they were. -/
theorem get?_writeAll {directory name : String} {files : List (String × String)}
    {paths : List String} (reports : ∀ file ∈ files, file.1 ∈ reportNames)
    (fresh : name ∉ files.map Prod.fst)
    (written : tree.writeAll directory files = (later, .ok paths)) (parent : Place) :
    later.get? (parent ++ [name]) = tree.get? (parent ++ [name]) := by
  induction files generalizing tree paths with
  | nil =>
      cases written
      rfl
  | cons file rest ih =>
      obtain ⟨first, text⟩ := file
      obtain ⟨middle, others, start, remaining, -⟩ := writeAll_cons_eq_ok written
      obtain ⟨around, -, away, -, rfl⟩ := writeFile_report (reports (first, text) (by simp)) start
      have other : ¬ name = first := fun same => fresh (by simp [same])
      rw [ih (fun file member => reports file (by simp [member]))
        (fun member => fresh (by simp [member])) remaining,
        get?_put _ _ _ _ (ne_root_of_not_isDirectory away), if_neg (by simp [other])]

/-- The first of the files that were written is there: the writes that follow have other names. -/
theorem first_of_writeAll {directory name text : String} {rest : List (String × String)}
    {paths : List String} (reports : ∀ file ∈ (name, text) :: rest, file.1 ∈ reportNames)
    (fresh : name ∉ rest.map Prod.fst)
    (written : tree.writeAll directory ((name, text) :: rest) = (later, .ok paths)) :
    ∃ parent, later.locate (joinPath directory name) = .ok (parent ++ [name]) ∧
      later.isDirectory parent = true ∧
      later.get? (parent ++ [name]) = some (.file text.toUTF8) := by
  have keeps : tree.KeepsDirectories later := by
    have steps := tree.writeAll_writes directory reports
    rw [written] at steps
    exact keeps_of_writes steps
  obtain ⟨middle, others, start, remaining, -⟩ := writeAll_cons_eq_ok written
  obtain ⟨parent, led, away, around, rfl⟩ := writeFile_report (reports (name, text) (by simp)) start
  refine ⟨parent, locate_of_keeps keeps led, keeps.isDirectory parent around, ?_⟩
  rw [get?_writeAll (fun file member => reports file (by simp [member])) fresh remaining parent,
    get?_put _ _ _ _ (ne_root_of_not_isDirectory away), if_pos rfl]

/-- Each of the files that were written is there. -/
theorem find?_of_mem_writeAll {directory : String} {files : List (String × String)}
    {paths : List String} (reports : ∀ file ∈ files, file.1 ∈ reportNames)
    (distinct : (files.map Prod.fst).Nodup)
    (written : tree.writeAll directory files = (later, .ok paths)) {name text : String}
    (member : (name, text) ∈ files) :
    later.find? (joinPath directory name) = some (.file text.toUTF8) := by
  induction files generalizing tree paths with
  | nil => cases member
  | cons file rest ih =>
      obtain ⟨first, content⟩ := file
      obtain ⟨fresh, distinct⟩ := List.nodup_cons.1 distinct
      rcases List.mem_cons.1 member with same | below
      · cases same
        obtain ⟨parent, led, -, there⟩ := first_of_writeAll reports fresh written
        rw [find?, led]
        exact there
      · obtain ⟨middle, others, -, remaining, -⟩ := writeAll_cons_eq_ok written
        exact ih (fun file member => reports file (by simp [member])) distinct remaining below

/-- Files that were written are written again without a change. -/
theorem writeAll_again {directory : String} {files : List (String × String)} {paths : List String}
    (reports : ∀ file ∈ files, file.1 ∈ reportNames) (distinct : (files.map Prod.fst).Nodup)
    (written : tree.writeAll directory files = (later, .ok paths)) :
    later.writeAll directory files = (later, .ok paths) := by
  induction files generalizing tree paths with
  | nil =>
      cases written
      rfl
  | cons file rest ih =>
      obtain ⟨name, text⟩ := file
      obtain ⟨fresh, distinct⟩ := List.nodup_cons.1 distinct
      obtain ⟨parent, led, around, there⟩ := first_of_writeAll reports fresh written
      obtain ⟨middle, others, -, remaining, rfl⟩ := writeAll_cons_eq_ok written
      have again : later.writeFile (joinPath directory name) text.toUTF8 = .ok later := by
        refine writeFile_eq_ok_iff.2 ⟨parent ++ [name], led, ?_, ?_, ?_⟩
        · simp [isDirectory, there]
        · rw [List.dropLast_concat]
          exact around
        · exact (put_eq_self (by simp) there).symm
      rw [writeAll_cons, again]
      simp only [ih (fun file member => reports file (by simp [member])) distinct remaining]
      rfl

/-- Directories that were made are there, also after later writes. -/
theorem makeDirectories_again {path : String} {made : FileTree}
    (success : tree.makeDirectories path = (made, none)) (keeps : made.KeepsDirectories later) :
    later.makeDirectories path = (later, none) := by
  have started : later.start path = tree.start path := by
    have steps := tree.makeDirectories_writes path
    rw [success] at steps
    exact ((keeps_of_writes steps).trans keeps).start_eq path
  rw [makeDirectories] at success ⊢
  split at success
  next => cases success
  next =>
    rw [started]
    refine makeAll_of_leads (by simp) (fun nonempty => ?_) _
    exact leadsToDirectory_of_keeps keeps (makeAll_leads nonempty success)

/-- An export that succeeds leaves each report in its file. -/
theorem find?_of_mem_files {report : Report} {withTraces : Bool} {directory : String}
    {paths : List String}
    (written : tree.writeReport report withTraces directory = (later, .ok paths))
    {name text : String} (member : (name, text) ∈ report.files withTraces) :
    later.find? (joinPath directory name) = some (.file text.toUTF8) := by
  rw [writeReport_eq] at written
  split at written
  next => cases written
  next made success =>
    exact find?_of_mem_writeAll (fun _ => Report.name_of_mem_files) (report.names_nodup withTraces)
      written member

/-- An export that succeeded succeeds again and leaves the tree as it is. -/
theorem writeReport_again {report : Report} {withTraces : Bool} {directory : String}
    {paths : List String}
    (written : tree.writeReport report withTraces directory = (later, .ok paths)) :
    later.writeReport report withTraces directory = (later, .ok paths) := by
  have reports : ∀ file ∈ report.files withTraces, file.1 ∈ reportNames :=
    fun _ => Report.name_of_mem_files
  rw [writeReport_eq] at written
  split at written
  next => cases written
  next made success =>
    have steps := made.writeAll_writes directory reports
    rw [written] at steps
    rw [writeReport_eq, makeDirectories_again success (keeps_of_writes steps)]
    exact writeAll_again reports (report.names_nodup withTraces) written

end FileTree

/-! ## A second run -/

variable {explain : ByteArray → String}

/-- A run that succeeded gives the same result on the tree it left. -/
theorem Job.run_again {job : Job} {tree : FileTree}
    (success : (job.run explain tree).exitCode = 0) :
    job.run explain (job.run explain tree).tree = job.run explain tree := by
  cases found : tree.load explain job.directory with
  | error error => simp [run_eq, found] at success
  | ok loaded =>
      by_cases empty : (loaded.report job.settings).isEmpty = true
      · simp [run_eq, found, empty]
      · cases exported : tree.writeReport (loaded.report job.settings) job.settings.trace
            job.outputDirectory with
        | mk later result =>
            cases result with
            | error error => simp [run_eq, found, empty, exported] at success
            | ok paths =>
                have first : job.run explain tree =
                    { exitCode := 0, stdout := job.text (loaded.report job.settings) paths,
                      tree := later } := by
                  simp [run_eq, found, empty, exported]
                have steps := tree.writeReport_writes (loaded.report job.settings)
                  job.settings.trace job.outputDirectory
                rw [exported] at steps
                rw [first]
                simp [run_eq, FileTree.load_of_writes steps found, empty,
                  FileTree.writeReport_again exported]

/-- A run that succeeded can be repeated: the second run succeeds, shows the same and leaves every
file as it is. For, whatever an export does to a tree, each directory that could be loaded before
gives the same documents and failures after it. -/
theorem rerun_changes_nothing (explain : ByteArray → String) :
    (∀ (arguments : List String) (environment : List (String × String)) (tree : FileTree),
      (runProgram explain arguments environment tree).exitCode = 0 →
        runProgram explain arguments environment
            (runProgram explain arguments environment tree).tree =
          runProgram explain arguments environment tree) ∧
    (∀ (job : Job) (tree : FileTree), (job.run explain tree).exitCode = 0 →
      job.run explain (job.run explain tree).tree = job.run explain tree) ∧
    ∀ (tree : FileTree) (directory : String) (loaded : Loaded),
      tree.load explain directory = .ok loaded →
      ∀ (report : Report) (withTraces : Bool) (output : String),
        (tree.writeReport report withTraces output).1.load explain directory = .ok loaded := by
  refine ⟨fun arguments environment tree success => ?_, fun job tree => Job.run_again, ?_⟩
  · cases request : Request.parse arguments environment with
    | error error => simp [runProgram_eq, request] at success
    | ok request' =>
        cases request' with
        | help => simp [runProgram_eq, request]
        | version => simp [runProgram_eq, request]
        | run job =>
            simp only [runProgram_eq, request] at success ⊢
            exact Job.run_again success
  · intro tree directory loaded found report withTraces output
    exact FileTree.load_of_writes (tree.writeReport_writes report withTraces output) found

/-- A directory with a document and an old report, seen from the directory around it. -/
def archive : FileTree where
  entries :=
    [(["home"], .directory), (["home", "asts"], .directory),
      (["home", "asts", "depths.json"], .file "old".toUTF8),
      (["home", "asts", "vault.json"], .file (String.toUTF8
        ("\x7b\"type\":\"SourceUnit\",\"units\":[" ++
          "\x7b\"type\":\"FunctionDefinition\",\"name\":\"f\"\x7d]\x7d")))]
  workingDirectory := ["home"]

/-- A run into a new directory of the archive whose name looks like that of a document. -/
def archiveArguments : List String :=
  ["asts", "--out-dir", "asts/out.json", "--trace"]

/-- A run from the root, above which there is nothing, into a new directory beside the working
directory. -/
def abroadArguments : List String :=
  ["/../home/asts", "--out-dir", "../srv/reports"]

def archiveJob : Job where
  directory := "asts"
  output := none
  settings := {}

def archiveWords (_ : ByteArray) : String :=
  "expected value at line 1 column 1"

theorem archive_rerun :
    ((runProgram archiveWords archiveArguments [] archive).exitCode = 0 ∧
      (runProgram archiveWords archiveArguments [] archive).tree.isDirectory
        ["home", "asts", "out.json"] = true) ∧
    runProgram archiveWords archiveArguments []
        (runProgram archiveWords archiveArguments [] archive).tree =
      runProgram archiveWords archiveArguments [] archive ∧
    ((runProgram archiveWords abroadArguments [] archive).exitCode = 0 ∧
      (runProgram archiveWords abroadArguments [] archive).tree.isDirectory
        ["srv", "reports"] = true) ∧
    runProgram archiveWords abroadArguments []
        (runProgram archiveWords abroadArguments [] archive).tree =
      runProgram archiveWords abroadArguments [] archive ∧
    (archiveJob.run archiveWords archive).exitCode = 0 ∧
    archiveJob.run archiveWords (archiveJob.run archiveWords archive).tree =
      archiveJob.run archiveWords archive ∧
    ∃ loaded, archive.load archiveWords "asts" = .ok loaded ∧ loaded.documents.length = 1 ∧
      (archive.writeReport {} true "/home/asts/out.json").1.load archiveWords "asts" =
        .ok loaded := by
  have into : (runProgram archiveWords archiveArguments [] archive).exitCode = 0 ∧
      (runProgram archiveWords archiveArguments [] archive).tree.isDirectory
        ["home", "asts", "out.json"] = true := by
    decide +kernel
  have abroad : (runProgram archiveWords abroadArguments [] archive).exitCode = 0 ∧
      (runProgram archiveWords abroadArguments [] archive).tree.isDirectory
        ["srv", "reports"] = true := by
    decide +kernel
  have itself : (archiveJob.run archiveWords archive).exitCode = 0 := by decide +kernel
  have place : archive.directory? "asts" = some ["home", "asts"] := by decide +kernel
  have found := FileTree.load_of_directory archiveWords place
  obtain ⟨program, job, key⟩ := rerun_changes_nothing archiveWords
  exact ⟨into, program _ _ _ into.1, abroad, program _ _ _ abroad.1, itself, job _ _ itself, _,
    found, by decide +kernel, key _ _ _ found _ _ _⟩

end CallDepth
