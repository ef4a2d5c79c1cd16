/-
# Files that cannot be analyzed

What is loaded from a directory comes file by file in the order of the names, and a new file takes
its place in that order without moving any other (`sources_concat`). So a file that is no document,
or whose document is no source unit, adds one failure and leaves the results of all others alone.

* `FileTree.exists_load_eq_nothing`: files that the path of the directory cannot reach are passed
  over in silence, and every directory has a path that reaches none of its files.
* `bad_file_adds_one_failure`: the effect of a new bad file.
-/
import CallDepth.Proofs.Batches
import CallDepth.Proofs.Loading
import CallDepth.Proofs.StableSorting

namespace CallDepth

/-- The second list is the first with one more item. -/
def OneMore {α : Type} (item : α) (old new : List α) : Prop :=
  ∃ before after, old = before ++ after ∧ new = before ++ item :: after

/-! ## One more file -/

theorem sources_concat_unread {directory : String} {files : List (String × ByteArray)}
    {file : String × ByteArray} (unread : isRead directory file.1 = false) :
    sources directory (files ++ [file]) = sources directory files := by
  simp [sources_eq, unread]

/-- A new name takes its place among the others, which keep theirs. -/
theorem sources_concat {directory : String} {files : List (String × ByteArray)}
    {file : String × ByteArray} (read : isRead directory file.1 = true)
    (fresh : ∀ other ∈ files, other.1 ≠ file.1) :
    OneMore file (sources directory files) (sources directory (files ++ [file])) := by
  have member : file ∈ sources directory (files ++ [file]) := by simp [sources_eq, read]
  obtain ⟨before, after, split⟩ := List.append_of_mem member
  refine ⟨before, after, ?_, split⟩
  have others : ∀ other ∈ before ++ after, other.1 ≠ file.1 := by
    intro other within
    have whole := List.mergeSort_perm
      ((files ++ [file]).filter fun other => isRead directory other.1) fun first second =>
        first.1 ≤ second.1
    have last : (files ++ [file]).filter (fun other => isRead directory other.1) =
        files.filter (fun other => isRead directory other.1) ++ [file] := by
      simp [read]
    rw [← sources_eq, split, last] at whole
    have rest := List.perm_middle.symm.trans (whole.trans (List.perm_append_singleton _ _))
    exact fresh other (List.mem_filter.1 (rest.cons_inv.mem_iff.1 within)).1
  have old : (files ++ [file]).filter (fun other => other.1 ≠ file.1) = files := by
    rw [List.filter_append, List.filter_eq_self.2 fun other known => by simp [fresh other known]]
    simp
  -- Leaving the new name out of what is sorted leaves the old files, in their order.
  calc sources directory files
      = (sources directory (files ++ [file])).filter fun other => other.1 ≠ file.1 := by
        rw [sources_eq directory (files ++ [file]), filter_mergeSort byName_trans byName_total,
          List.filter_comm, old, sources_eq]
    _ = before ++ after := by
        rw [split, List.filter_append, List.filter_cons_of_neg (by simp), ← List.filter_append]
        exact List.filter_eq_self.2 fun other within => by simp [others other within]

namespace Loaded

variable {explain : ByteArray → String} {directory : String} {file : String × ByteArray}
  {old new : List (String × ByteArray)}

/-- One more file that is no document: one more failure. -/
theorem oneMore_failure {error : LoadError}
    (refused : decode explain (joinPath directory file.1) (.ok file.2) = .error error)
    (more : OneMore file old new) :
    (ofSources explain directory new).documents = (ofSources explain directory old).documents ∧
      OneMore ⟨file.1, error.reason⟩ (ofSources explain directory old).failures
        (ofSources explain directory new).failures := by
  obtain ⟨before, after, rfl, rfl⟩ := more
  rw [ofSources_append, ofSources_append, ofSources_cons_of_error refused]
  exact ⟨rfl, _, _, rfl, rfl⟩

/-- One more file that is a document: one more document. -/
theorem oneMore_document {value : Json}
    (accepted : decode explain (joinPath directory file.1) (.ok file.2) = .ok value)
    (more : OneMore file old new) :
    OneMore ⟨file.1, value⟩ (ofSources explain directory old).documents
        (ofSources explain directory new).documents ∧
      (ofSources explain directory new).failures =
        (ofSources explain directory old).failures := by
  obtain ⟨before, after, rfl, rfl⟩ := more
  rw [ofSources_append, ofSources_append, ofSources_cons_of_ok accepted]
  exact ⟨⟨_, _, rfl, rfl⟩, rfl⟩

end Loaded

/-- One more document that is no source unit: the same results and one more failure. -/
theorem Report.oneMore_rejected {document : Document} {error : Node.RootError}
    {old new : List Document} (settings : Settings)
    (rejected : Node.ofRoot document.value = .error error) (more : OneMore document old new) :
    (ofDocuments settings new).rows = (ofDocuments settings old).rows ∧
      (ofDocuments settings new).traces = (ofDocuments settings old).traces ∧
      OneMore ⟨document.file, error.message⟩ (ofDocuments settings old).failures
        (ofDocuments settings new).failures := by
  obtain ⟨before, after, rfl, rfl⟩ := more
  have alone : document.report settings = _ := Document.report_of_error rejected
  simp only [ofDocuments_eq_concat]
  refine ⟨by simp [concat, alone], by simp [concat, alone], ?_⟩
  exact ⟨(concat (before.map (·.report settings))).failures,
    (concat (after.map (·.report settings))).failures, by simp [concat], by simp [concat, alone]⟩

/-! ## A new file in a directory -/

namespace FileTree

variable {tree : FileTree} {path name : String} {place : Place}

theorem load_put_of_missing (explain : ByteArray → String)
    (found : tree.directory? path = some place)
    (missing : tree.get? (place ++ [name]) = none) (content : ByteArray) :
    (tree.put (place ++ [name]) (.file content)).load explain path =
      .ok (Loaded.ofSources explain path
        (sources path (tree.filesIn place ++ [(name, content)]))) := by
  have keeps : tree.KeepsDirectories (tree.put (place ++ [name]) (.file content)) :=
    keepsDirectories_put (not_isDirectory_of_missing missing)
  rw [load_of_directory explain (directory?_of_keeps keeps found),
    filesIn_put_of_missing content missing]

end FileTree

/-! ## Files out of reach -/

/-- A path with dots behind it. -/
def dotted (path : String) : Nat → String
  | 0 => path
  | count + 1 => dotted path count ++ "/" ++ "."

theorem utf8ByteSize_dotted (path : String) (count : Nat) :
    (dotted path count).utf8ByteSize = path.utf8ByteSize + 2 * count := by
  induction count with
  | zero => rfl
  | succ count ih =>
      have slash : ("/" : String).utf8ByteSize = 1 := by decide
      have dot : ("." : String).utf8ByteSize = 1 := by decide
      rw [dotted, String.utf8ByteSize_append, String.utf8ByteSize_append, ih, slash, dot]
      omega

theorem toList_dotted (path : String) (count : Nat) :
    ∃ dots, (dotted path count).toList = path.toList ++ dots ∧ '\x00' ∉ dots := by
  induction count with
  | zero => exact ⟨[], by simp [dotted], by simp⟩
  | succ count ih =>
      obtain ⟨dots, whole, free⟩ := ih
      exact ⟨dots ++ ['/', '.'], by simp [dotted, whole], by simp [free]⟩

/-- Dots are components of their own. -/
theorem pathComponents_dotted (path : String) (count : Nat) :
    pathComponents (dotted path count) = pathComponents path ++ List.replicate count "." := by
  induction count with
  | zero => simp [dotted]
  | succ count ih =>
      have dot : pathComponents "." = ["."] := pathComponents_of_noSlash (by decide)
      rw [dotted, pathComponents_append_slash, ih, dot, List.replicate_succ', List.append_assoc]

theorem le_utf8ByteSize_joinPath (path name : String) :
    path.utf8ByteSize + name.utf8ByteSize ≤ (joinPath path name).utf8ByteSize := by
  rw [joinPath]
  split <;> simp only [String.utf8ByteSize_append] <;> omega

/-- The name of a source has at least the bytes of its extension. -/
theorem le_utf8ByteSize_of_isSource {name : String} (source : isSource name = true) :
    5 ≤ name.utf8ByteSize := by
  simp only [isSource, hasJsonExtension, Bool.and_eq_true] at source
  obtain ⟨front, whole⟩ := List.isSuffixOf_iff_suffix.1 source.1.1.1
  have split : name = String.ofList front ++ ".json" := by
    rw [← String.toList_inj, ← whole]
    simp
  have size : (".json" : String).utf8ByteSize = 5 := by decide
  rw [split, String.utf8ByteSize_append, size]
  omega

namespace FileTree

variable {tree : FileTree} {path : String} {place : Place}

theorem follow_dots (known : tree.isDirectory place = true) (count : Nat) :
    tree.follow place (List.replicate count ".") = .ok place := by
  induction count with
  | zero => rfl
  | succ count ih => simp [List.replicate_succ, follow, known, ih]

/-- Dots lead nowhere else, as long as the path stays within its limit. -/
theorem directory?_dotted {count : Nat} (found : tree.directory? path = some place)
    (fits : path.utf8ByteSize + 2 * count ≤ pathLimit) :
    tree.directory? (dotted path count) = some place := by
  obtain ⟨led, known⟩ := directory?_eq_some_iff.1 found
  obtain ⟨faultless, nonempty, followed⟩ := locate_eq_ok_iff.1 led
  obtain ⟨dots, whole, free⟩ := toList_dotted path count
  have started : path.toList ≠ [] := fun empty => nonempty (String.toList_eq_nil_iff.1 empty)
  refine directory?_eq_some_iff.2 ⟨locate_eq_ok_iff.2 ⟨?_, ?_, ?_⟩, known⟩
  · rw [pathFault?_eq_none_iff] at faultless ⊢
    rw [whole, utf8ByteSize_dotted, List.mem_append]
    exact ⟨fun null => null.elim faultless.1 free, fits⟩
  · rw [ne_eq, ← String.toList_eq_nil_iff, whole, List.append_eq_nil_iff]
    exact fun empty => started empty.1
  · have beginning : tree.start (dotted path count) = tree.start path := by
      rw [start, start, whole, List.head?_append_of_ne_nil _ started]
    rw [pathComponents_dotted, beginning, follow_append, followed]
    exact follow_dots known count

/-- Where the dots leave no room for the name of a source, loading gives nothing, whatever the files
of the directory are. -/
theorem load_dotted (explain : ByteArray → String) {count : Nat}
    (found : tree.directory? path = some place)
    (fits : path.utf8ByteSize + 2 * count ≤ pathLimit)
    (full : pathLimit < path.utf8ByteSize + 2 * count + 5) :
    tree.load explain (dotted path count) = .ok {} := by
  have unread : ∀ name, isRead (dotted path count) name = false := by
    intro name
    by_contra read
    simp only [isRead, Bool.not_eq_false, Bool.and_eq_true, Option.isNone_iff_eq_none,
      pathFault?_eq_none_iff] at read
    have named := le_utf8ByteSize_of_isSource read.1
    have joined := le_utf8ByteSize_joinPath (dotted path count) name
    rw [utf8ByteSize_dotted] at joined
    omega
  have nothing : sources (dotted path count) (tree.filesIn place) = [] := by
    simp [sources_eq, unread]
  rw [load_of_directory explain (directory?_dotted found fits), nothing]
  rfl

/-- Every directory has a path under which none of its files can be reached. -/
theorem exists_load_eq_nothing (found : tree.directory? path = some place) :
    ∃ detour, tree.directory? detour = some place ∧
      ∀ explain, tree.load explain detour = .ok {} := by
  obtain ⟨led, -⟩ := directory?_eq_some_iff.1 found
  have size := (pathFault?_eq_none_iff.1 (locate_eq_ok_iff.1 led).1).2
  obtain ⟨count, fits, full⟩ : ∃ count, path.utf8ByteSize + 2 * count ≤ pathLimit ∧
      pathLimit < path.utf8ByteSize + 2 * count + 5 :=
    ⟨(pathLimit - path.utf8ByteSize) / 2, by omega, by omega⟩
  exact ⟨dotted path count, directory?_dotted found fits,
    fun explain => load_dotted explain found fits full⟩

end FileTree

/-- A new source file that is empty, is no JSON or holds no source unit leaves all rows and traces
as they are and adds one failure that names it: to the failures of loading in the first two cases,
to those of the report in the third.

In general each source file is loaded once, as a document or as a failure, and both lists are in
the order of the names; where each place has one entry, no name stands twice. The exception are
files whose whole path is refused. They are passed over without a failure, and every directory has
a path under which this happens to all its files. -/
theorem bad_file_adds_one_failure (explain : ByteArray → String) (tree : FileTree) (path : String)
    (place : Place) (found : tree.directory? path = some place) :
    (∀ (name : String) (content : ByteArray), isSource name = true →
      tree.get? (place ++ [name]) = none →
      ∃ old new, tree.load explain path = .ok old ∧
        (tree.put (place ++ [name]) (.file content)).load explain path = .ok new ∧
        (pathFault? (joinPath path name) ≠ none → new = old) ∧
        (pathFault? (joinPath path name) = none →
          (content.isEmpty = true →
            new.documents = old.documents ∧
            OneMore ⟨name, joinPath path name ++ " is empty"⟩ old.failures new.failures) ∧
          (content.isEmpty = false → Json.readDocument? content = none →
            new.documents = old.documents ∧
            OneMore ⟨name, "Invalid JSON in " ++ joinPath path name ++ ": " ++ explain content⟩
              old.failures new.failures) ∧
          ∀ value error, content.isEmpty = false → Json.readDocument? content = some value →
            Node.ofRoot value = .error error →
            new.failures = old.failures ∧
            ∀ settings : Settings,
              (Report.ofDocuments settings new.documents).rows =
                (Report.ofDocuments settings old.documents).rows ∧
              (Report.ofDocuments settings new.documents).traces =
                (Report.ofDocuments settings old.documents).traces ∧
              OneMore ⟨name, error.message⟩ (Report.ofDocuments settings old.documents).failures
                (Report.ofDocuments settings new.documents).failures)) ∧
    (∃ loaded, tree.load explain path = .ok loaded ∧
      (loaded.documents.map (·.file) ++ loaded.failures.map (·.file)).Perm
        (((tree.filesIn place).map Prod.fst).filter (isRead path)) ∧
      (loaded.documents.map (·.file)).Pairwise (· ≤ ·) ∧
      (loaded.failures.map (·.file)).Pairwise (· ≤ ·) ∧
      ((Assoc.keys tree.entries).Nodup →
        (loaded.documents.map (·.file) ++ loaded.failures.map (·.file)).Nodup)) ∧
    ∃ detour, tree.directory? detour = some place ∧ tree.load explain detour = .ok {} := by
  obtain ⟨detour, leads, nothing⟩ := FileTree.exists_load_eq_nothing found
  refine ⟨fun name content source missing => ?_, ?_, detour, leads, nothing explain⟩
  · refine ⟨_, _, FileTree.load_of_directory explain found,
      FileTree.load_put_of_missing explain found missing content, ?_, ?_⟩
    · intro refused
      rw [sources_concat_unread]
      simp [isRead, source, Option.isSome_iff_ne_none, refused]
    · intro reached
      have more : OneMore (name, content) (sources path (tree.filesIn place))
          (sources path (tree.filesIn place ++ [(name, content)])) :=
        sources_concat (by simp [isRead, source, reached]) fun other listed =>
          FileTree.ne_of_mem_filesIn missing listed
      refine ⟨fun empty => ?_, fun nonempty invalid => ?_, ?_⟩
      · have refused : decode explain (joinPath path name) (.ok content) =
            .error (.emptyFile (joinPath path name)) := by
          simp [decode, empty]
        exact Loaded.oneMore_failure refused more
      · have refused : decode explain (joinPath path name) (.ok content) =
            .error (.invalidJson (joinPath path name) (explain content)) := by
          simp [decode, nonempty, invalid]
        exact Loaded.oneMore_failure refused more
      · intro value error nonempty valid rejected
        have accepted : decode explain (joinPath path name) (.ok content) = .ok value := by
          simp [decode, nonempty, valid]
        obtain ⟨document, failures⟩ := Loaded.oneMore_document accepted more
        exact ⟨failures, fun settings => Report.oneMore_rejected settings rejected document⟩
  · have perm := (Loaded.files_perm explain path (sources path (tree.filesIn place))).trans
      (names_sources_perm path (tree.filesIn place))
    have sorted := sources_sorted path (tree.filesIn place)
    obtain ⟨documents, failures⟩ :=
      Loaded.files_sublist explain path (sources path (tree.filesIn place))
    refine ⟨_, FileTree.load_of_directory explain found, perm, sorted.sublist documents,
      sorted.sublist failures, fun distinct => perm.nodup_iff.2 ?_⟩
    exact (FileTree.names_filesIn_nodup distinct place).filter _

/-- A directory with one document. -/
def shelf : FileTree where
  entries := [(["asts"], .directory), (["asts", "vault.json"], .file "null".toUTF8)]

/-- What a reader says of a list that is not closed. -/
def shelfWords (_ : ByteArray) : String :=
  "EOF while parsing a list at line 1 column 1"

/-- An empty file, a torn one and an empty list beside that document. -/
theorem shelf_bad_files :
    shelf.directory? "asts" = some ["asts"] ∧
    (∃ old new, shelf.load shelfWords "asts" = .ok old ∧
      (shelf.put ["asts", "empty.json"] (.file "".toUTF8)).load shelfWords "asts" = .ok new ∧
      new.documents = old.documents ∧
      OneMore ⟨"empty.json", joinPath "asts" "empty.json" ++ " is empty"⟩ old.failures
        new.failures) ∧
    (∃ old new, shelf.load shelfWords "asts" = .ok old ∧
      (shelf.put ["asts", "torn.json"] (.file "[".toUTF8)).load shelfWords "asts" = .ok new ∧
      new.documents = old.documents ∧
      OneMore ⟨"torn.json", "Invalid JSON in " ++ joinPath "asts" "torn.json" ++
          ": EOF while parsing a list at line 1 column 1"⟩ old.failures new.failures) ∧
    (∃ old new, shelf.load shelfWords "asts" = .ok old ∧
      (shelf.put ["asts", "list.json"] (.file "[]".toUTF8)).load shelfWords "asts" = .ok new ∧
      new.failures = old.failures ∧
      ∀ settings : Settings,
        (Report.ofDocuments settings new.documents).rows =
          (Report.ofDocuments settings old.documents).rows ∧
        (Report.ofDocuments settings new.documents).traces =
          (Report.ofDocuments settings old.documents).traces ∧
        OneMore ⟨"list.json", "AST root is not a JSON object"⟩
          (Report.ofDocuments settings old.documents).failures
          (Report.ofDocuments settings new.documents).failures) ∧
    ∃ loaded, shelf.load shelfWords "asts" = .ok loaded ∧
      (loaded.documents.map (·.file) ++ loaded.failures.map (·.file)).Nodup := by
  have place : shelf.directory? "asts" = some ["asts"] := by decide +kernel
  obtain ⟨added, ⟨loaded, before, -, -, -, once⟩, -⟩ :=
    bad_file_adds_one_failure shelfWords shelf "asts" ["asts"] place
  refine ⟨place, ?_, ?_, ?_, loaded, before, once (by decide)⟩
  · obtain ⟨old, new, before, after, -, bad⟩ :=
      added "empty.json" "".toUTF8 (by decide +kernel) rfl
    exact ⟨old, new, before, after, (bad (by decide +kernel)).1 (by decide +kernel)⟩
  · obtain ⟨old, new, before, after, -, bad⟩ :=
      added "torn.json" "[".toUTF8 (by decide +kernel) rfl
    exact ⟨old, new, before, after, (bad (by decide +kernel)).2.1 (by decide +kernel) rfl⟩
  · obtain ⟨old, new, before, after, -, bad⟩ :=
      added "list.json" "[]".toUTF8 (by decide +kernel) rfl
    exact ⟨old, new, before, after, (bad (by decide +kernel)).2.2 (.list []) .notObject
      (by decide +kernel) rfl rfl⟩

def cellar : FileTree where
  entries := [(["d"], .directory)]

/-- Loading by a path with 2045 dots does not report a new empty file. -/
theorem cellar_empty_file_unreported :
    cellar.directory? (dotted "d" 2045) = some ["d"] ∧ isSource "empty.json" = true ∧
    cellar.get? ["d", "empty.json"] = none ∧
    ∃ old new, cellar.load shelfWords (dotted "d" 2045) = .ok old ∧
      (cellar.put ["d", "empty.json"] (.file "".toUTF8)).load shelfWords (dotted "d" 2045) =
        .ok new ∧
      ∀ reason, ¬ OneMore ⟨"empty.json", reason⟩ old.failures new.failures := by
  have size : ("d" : String).utf8ByteSize = 1 := by decide
  have place : cellar.directory? "d" = some ["d"] := by decide +kernel
  have placed : (cellar.put ["d", "empty.json"] (.file "".toUTF8)).directory? "d" =
      some ["d"] := by
    decide +kernel
  have fits : ("d" : String).utf8ByteSize + 2 * 2045 ≤ pathLimit := by
    rw [size]
    decide
  have full : pathLimit < ("d" : String).utf8ByteSize + 2 * 2045 + 5 := by
    rw [size]
    decide
  refine ⟨FileTree.directory?_dotted place fits, by decide +kernel, rfl, _, _,
    FileTree.load_dotted shelfWords place fits full,
    FileTree.load_dotted shelfWords placed fits full, ?_⟩
  rintro reason ⟨before, after, -, more⟩
  simp at more

end CallDepth
