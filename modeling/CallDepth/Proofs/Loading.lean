/-
# What is loaded from a directory

The files of a directory are read in the order of their names, and each becomes a document or a
failure. `Loaded.ofSources` says so file by file, and `FileTree.load_of_directory` that loading a
directory comes to this.

* `Loaded.files_perm` and `Loaded.files_sublist`: each file that is read is loaded once, as a
  document or as a failure, and both lists are in the order of the files.
-/
import CallDepth.Proofs.FileTrees
import CallDepth.SourceFiles

namespace CallDepth

/-! ## The files that are read -/

/-- A file of this name in a directory is read: it is a source, and the path reaches it. -/
def isRead (directory name : String) : Bool :=
  isSource name && (pathFault? (joinPath directory name)).isNone

theorem sources_eq {α : Type} (directory : String) (files : List (String × α)) :
    sources directory files =
      (files.filter fun file => isRead directory file.1).mergeSort fun first second =>
        first.1 ≤ second.1 :=
  rfl

theorem byName_trans (first second third : String × ByteArray) :
    decide (first.1 ≤ second.1) = true → decide (second.1 ≤ third.1) = true →
      decide (first.1 ≤ third.1) = true := by
  simp only [decide_eq_true_eq]
  exact String.le_trans

theorem byName_total (first second : String × ByteArray) :
    (decide (first.1 ≤ second.1) || decide (second.1 ≤ first.1)) = true := by
  simpa using String.le_total first.1 second.1

/-- Sources come in the order of their names. -/
theorem sources_sorted (directory : String) (files : List (String × ByteArray)) :
    ((sources directory files).map Prod.fst).Pairwise (· ≤ ·) := by
  have sorted := List.pairwise_mergeSort byName_trans byName_total
    (files.filter fun file => isRead directory file.1)
  rw [List.pairwise_map, sources_eq]
  exact sorted.imp fun before => by simpa using before

/-- The sources are the files that are read. -/
theorem names_sources_perm (directory : String) (files : List (String × ByteArray)) :
    ((sources directory files).map Prod.fst).Perm
      ((files.map Prod.fst).filter (isRead directory)) := by
  rw [sources_eq, List.filter_map]
  exact (List.mergeSort_perm _ _).map Prod.fst

theorem sources_readable (directory : String) (files : List (String × ByteArray)) :
    sources directory (files.map FileTree.readable) =
      (sources directory files).map FileTree.readable := by
  have kept : (files.map FileTree.readable).filter (fun file => isRead directory file.1) =
      (files.filter fun file => isRead directory file.1).map FileTree.readable := by
    rw [List.filter_map]
    rfl
  rw [sources_eq, sources_eq, kept]
  exact (List.map_mergeSort (f := FileTree.readable) fun _ _ _ _ => rfl).symm

/-! ## Documents and failures -/

namespace Loaded

variable (explain : ByteArray → String) (directory : String)

def ofFile (file : String × ByteArray) : Document ⊕ Failure :=
  match decode explain (joinPath directory file.1) (.ok file.2) with
  | .ok value => .inl ⟨file.1, value⟩
  | .error error => .inr ⟨file.1, error.reason⟩

/-- What files come to, one after another. -/
def ofSources (files : List (String × ByteArray)) : Loaded where
  documents := (files.map (ofFile explain directory)).filterMap Sum.getLeft?
  failures := (files.map (ofFile explain directory)).filterMap Sum.getRight?

section Cons

variable {explain directory} {file : String × ByteArray}

theorem ofSources_cons_of_error {error : LoadError}
    (refused : decode explain (joinPath directory file.1) (.ok file.2) = .error error)
    (rest : List (String × ByteArray)) :
    ofSources explain directory (file :: rest) =
      { documents := (ofSources explain directory rest).documents
        failures := ⟨file.1, error.reason⟩ :: (ofSources explain directory rest).failures } := by
  have failed : ofFile explain directory file = .inr ⟨file.1, error.reason⟩ := by
    rw [ofFile, refused]
  simp only [ofSources, List.map_cons, failed, List.filterMap_cons, Sum.getLeft?_inr,
    Sum.getRight?_inr]

theorem ofSources_cons_of_ok {value : Json}
    (accepted : decode explain (joinPath directory file.1) (.ok file.2) = .ok value)
    (rest : List (String × ByteArray)) :
    ofSources explain directory (file :: rest) =
      { documents := ⟨file.1, value⟩ :: (ofSources explain directory rest).documents
        failures := (ofSources explain directory rest).failures } := by
  have loaded : ofFile explain directory file = .inl ⟨file.1, value⟩ := by rw [ofFile, accepted]
  simp only [ofSources, List.map_cons, loaded, List.filterMap_cons, Sum.getLeft?_inl,
    Sum.getRight?_inl]

end Cons

theorem ofSources_append (first second : List (String × ByteArray)) :
    ofSources explain directory (first ++ second) =
      { documents := (ofSources explain directory first).documents ++
          (ofSources explain directory second).documents
        failures := (ofSources explain directory first).failures ++
          (ofSources explain directory second).failures } := by
  simp only [ofSources, List.map_append, List.filterMap_append]

/-- What is loaded goes on from what was loaded before. -/
theorem foldl_push (files : List (String × ByteArray)) (loaded : Loaded) :
    (files.map FileTree.readable).foldl (push explain directory) loaded =
      { documents := loaded.documents ++ (ofSources explain directory files).documents
        failures := loaded.failures ++ (ofSources explain directory files).failures } := by
  induction files generalizing loaded with
  | nil => simp [ofSources]
  | cons file rest ih =>
      rw [List.map_cons, List.foldl_cons, ih, push]
      cases read : decode explain (joinPath directory file.1) (.ok file.2) with
      | ok value => simp [FileTree.readable, read, ofSources_cons_of_ok read]
      | error error => simp [FileTree.readable, read, ofSources_cons_of_error read]

/-- Loading files one after another comes to what they come to alone. -/
theorem ofFiles_readable (files : List (String × ByteArray)) :
    ofFiles explain directory (files.map FileTree.readable) =
      ofSources explain directory (sources directory files) := by
  rw [ofFiles, sources_readable, foldl_push]
  rfl

/-- Each file comes to one document or one failure of its name. -/
theorem files_perm (files : List (String × ByteArray)) :
    ((ofSources explain directory files).documents.map (·.file) ++
      (ofSources explain directory files).failures.map (·.file)).Perm (files.map Prod.fst) := by
  induction files with
  | nil => exact .refl _
  | cons file rest ih =>
      cases read : decode explain (joinPath directory file.1) (.ok file.2) with
      | ok value =>
          rw [ofSources_cons_of_ok read]
          exact ih.cons file.1
      | error error =>
          rw [ofSources_cons_of_error read]
          exact List.perm_middle.trans (ih.cons file.1)

/-- Documents and failures both come in the order of the files. -/
theorem files_sublist (files : List (String × ByteArray)) :
    ((ofSources explain directory files).documents.map (·.file)).Sublist (files.map Prod.fst) ∧
      ((ofSources explain directory files).failures.map (·.file)).Sublist
        (files.map Prod.fst) := by
  induction files with
  | nil => exact ⟨.refl _, .refl _⟩
  | cons file rest ih =>
      obtain ⟨documents, failures⟩ := ih
      cases read : decode explain (joinPath directory file.1) (.ok file.2) with
      | ok value =>
          rw [ofSources_cons_of_ok read]
          exact ⟨documents.cons_cons file.1, failures.cons file.1⟩
      | error error =>
          rw [ofSources_cons_of_error read]
          exact ⟨documents.cons file.1, failures.cons_cons file.1⟩

end Loaded

/-- A directory that is there is loaded from the sources in it. -/
theorem FileTree.load_of_directory {tree : FileTree} {path : String} {place : Place}
    (explain : ByteArray → String) (found : tree.directory? path = some place) :
    tree.load explain path =
      .ok (Loaded.ofSources explain path (sources path (tree.filesIn place))) := by
  rw [load_eq, found, ← Loaded.ofFiles_readable]

end CallDepth
