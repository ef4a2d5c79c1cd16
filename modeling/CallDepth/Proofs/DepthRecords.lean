/-
# Depth reports read back

The text of a depth report is read as the rows it was written from (`DepthRow.readAll?_writeAll`),
and an export that succeeds leaves exactly that text in the report file
(`FileTree.find?_writeReport`).

The fields of a row may hold any text. Its depth is a natural number of one machine word.
-/
import CallDepth.Proofs.JsonText
import CallDepth.Proofs.Rerun

namespace CallDepth

namespace DepthRow

variable {rows : List DepthRow}

/-- The record of a row has each field once, so the row is found in it. -/
theorem ofJson?_toJson (row : DepthRow) : ofJson? row.toJson = some row :=
  rfl

theorem isPlain_toJson {row : DepthRow} (bounded : row.depth < wordBound) :
    row.toJson.isPlain = true := by
  simp [toJson, Json.isPlain, Json.isPlainMembers, Json.ofNat, bounded]

theorem isPlain_records (words : ∀ row ∈ rows, row.depth < wordBound) :
    (Json.list (rows.map toJson)).isPlain = true :=
  Json.isPlain_records fun row member => isPlain_toJson (words row member)

/-- The records of rows are read as these rows. -/
theorem listOfJson?_records (rows : List DepthRow) :
    listOfJson? (Json.list (rows.map toJson)) = some rows := by
  rw [listOfJson?, mapM_map_of_inverse ofJson?_toJson]

/-- The text of depth records is read as the rows it was written from. -/
theorem readAll?_writeAll (words : ∀ row ∈ rows, row.depth < wordBound) :
    readAll? (writeAll rows) = some rows := by
  rw [readAll?, writeAll, Json.read?_pretty (isPlain_records words), Option.bind_some,
    listOfJson?_records]

end DepthRow

theorem fromUTF8?_toUTF8 (text : String) : String.fromUTF8? text.toUTF8 = some text :=
  dif_pos text.isValidUTF8

namespace FileTree

variable {tree later : FileTree}

/-- An export that succeeds leaves the depth records in their file. -/
theorem find?_writeReport {report : Report} {withTraces : Bool} {directory : String}
    {paths : List String}
    (written : tree.writeReport report withTraces directory = (later, .ok paths)) :
    later.find? (joinPath directory depthsFile) =
      some (.file (DepthRow.writeAll report.rows).toUTF8) :=
  find?_of_mem_files written List.mem_cons_self

end FileTree

/-- A depth report reads back as its rows. For any rows whose depths are words, whatever their texts
hold, the text of their depth records is read and gives the same rows in the same order; and an
export that succeeds leaves that text, as UTF-8, in the file of depth records. -/
theorem depth_report_reads_back (report : Report)
    (words : ∀ row ∈ report.rows, row.depth < wordBound) :
    DepthRow.readAll? (DepthRow.writeAll report.rows) = some report.rows ∧
    ∀ (withTraces : Bool) (tree later : FileTree) (directory : String) (paths : List String),
      tree.writeReport report withTraces directory = (later, .ok paths) →
      ∃ content, later.find? (joinPath directory depthsFile) = some (.file content) ∧
        (String.fromUTF8? content).bind DepthRow.readAll? = some report.rows := by
  have read := DepthRow.readAll?_writeAll words
  refine ⟨read, fun withTraces tree later directory paths written => ?_⟩
  refine ⟨_, FileTree.find?_writeReport written, ?_⟩
  rw [fromUTF8?_toUTF8, Option.bind_some, read]

/-- Rows with quotes, backslashes, control characters and characters of four bytes, and with the
greatest depth. -/
def oddReport : Report where
  rows :=
    [⟨"a\"b.json", "\\", "f\n\t\x00\x1f", "\x7f", "\x08\x0c\r", 0xffffffffffffffff⟩,
      ⟨"", "", "😀é\u2028", "\ud7ff\ue000", "/", 0⟩]

/-- Any report can be exported into a new directory of an empty tree. -/
theorem FileTree.writeReport_out (report : Report) :
    writeReport {} report true "out" =
      ((writeReport {} report true "out").1, .ok ["out/depths.json", "out/depth_traces.json"]) := by
  have made : makeDirectories {} "out" = ({ entries := [(["out"], .directory)] }, none) := by rfl
  simp only [writeReport_eq, made, Report.files, if_true, writeAll_cons, writeAll_nil]
  rfl

/-- The odd rows survive an export into a new directory. -/
theorem oddReport_reads_back :
    (∀ row ∈ oddReport.rows, row.depth < wordBound) ∧
    DepthRow.readAll? (DepthRow.writeAll oddReport.rows) = some oddReport.rows ∧
    ∃ later content,
      FileTree.writeReport {} oddReport true "out" =
        (later, .ok ["out/depths.json", "out/depth_traces.json"]) ∧
      later.find? "out/depths.json" = some (.file content) ∧
      (String.fromUTF8? content).bind DepthRow.readAll? = some oddReport.rows := by
  have words : ∀ row ∈ oddReport.rows, row.depth < wordBound := by decide
  obtain ⟨read, exported⟩ := depth_report_reads_back oddReport words
  have written := FileTree.writeReport_out oddReport
  obtain ⟨content, found, decoded⟩ := exported _ _ _ _ _ written
  exact ⟨words, read, _, content, written, found, decoded⟩

end CallDepth
