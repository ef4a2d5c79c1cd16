/-
# Trace reports lose nothing

Different lists of trace rows have different texts (`TraceRow.eq_of_writeAll_eq`), and so have the
files of trace records that exports leave (`trace_report_loses_nothing`).

The text of a plain value is read as that value, so plain values of one text are equal
(`Json.eq_of_pretty_eq`). The record of a row is plain when its numbers are of one machine word, and
it keeps every part of the row. `Trace.toJson_injective` goes down the chain: the kind of a link is
told by its first member, and an absent mark or an absent rest of the chain is null.
-/
import CallDepth.Proofs.DepthRecords

namespace CallDepth

theorem Json.eq_of_pretty_eq {first second : Json} (firstPlain : first.isPlain = true)
    (secondPlain : second.isPlain = true) (same : first.pretty = second.pretty) :
    first = second := by
  have read := read?_pretty firstPlain
  rw [same, read?_pretty secondPlain] at read
  exact (Option.some.inj read).symm

/-! ## Records keep every part -/

theorem Branch.name_injective : Function.Injective Branch.name := by
  intro first second same
  cases first <;> cases second <;> simp_all [name]

theorem Parts.toJson_injective : Function.Injective Parts.toJson := by
  intro first second same
  cases first
  cases second
  simpa [toJson, Json.ofNat] using same

/-- Different traces have different records. -/
theorem Trace.toJson_injective : Function.Injective Trace.toJson := by
  intro first
  induction first with
  | empty =>
      intro second same
      cases second with
      | empty => rfl
      | _ => simp [toJson] at same
  | recursion function owner =>
      intro second same
      cases second with
      | recursion other otherOwner => simpa [toJson] using same
      | _ => simp [toJson] at same
  | call link below ih =>
      intro second same
      cases second with
      | call other otherBelow =>
          obtain ⟨label, weight, parts, via, mark⟩ := link
          obtain ⟨otherLabel, otherWeight, otherParts, otherVia, otherMark⟩ := other
          simp only [toJson, Json.ofNat, Json.object.injEq, List.cons.injEq, Prod.mk.injEq,
            true_and, and_true, Json.text.injEq, Json.number.injEq,
            Json.Number.natural.injEq] at same
          obtain ⟨rfl, rfl, sameParts, sameVia, sameMark, sameBelow⟩ := same
          have marks : mark = otherMark := by
            cases mark <;> cases otherMark <;> simp_all
          rw [Parts.toJson_injective sameParts, Branch.name_injective sameVia, marks, ih sameBelow]
      | _ => simp [toJson] at same

theorem TraceRow.toJson_injective : Function.Injective TraceRow.toJson := by
  intro first second same
  obtain ⟨file, contract, function, depth, trace⟩ := first
  obtain ⟨otherFile, otherContract, otherFunction, otherDepth, otherTrace⟩ := second
  simp only [toJson, Json.ofNat, Json.object.injEq, List.cons.injEq, Prod.mk.injEq, true_and,
    and_true, Json.text.injEq, Json.number.injEq, Json.Number.natural.injEq] at same
  obtain ⟨rfl, rfl, rfl, rfl, sameTrace⟩ := same
  rw [Trace.toJson_injective sameTrace]

/-! ## Records are plain -/

/-- The numbers of a trace: the weights of its links and the depths of their parts. -/
def Trace.numbers : Trace → List Nat
  | empty => []
  | call link below =>
      link.weight :: link.parts.arg :: link.parts.expr :: link.parts.callee :: below.numbers
  | recursion .. => []

def TraceRow.numbers (row : TraceRow) : List Nat :=
  row.depth :: row.trace.numbers

theorem Trace.isPlain_toJson {trace : Trace}
    (words : ∀ number ∈ trace.numbers, number < wordBound) : trace.toJson.isPlain = true := by
  induction trace with
  | empty => rfl
  | recursion function owner => rfl
  | call link below ih =>
      simp only [numbers, List.forall_mem_cons] at words
      obtain ⟨weight, arg, expr, callee, rest⟩ := words
      simp only [toJson, Parts.toJson, Json.ofNat, Json.isPlain, Json.isPlainMembers, weight, arg,
        expr, callee, ih rest]
      cases link.callee <;> rfl

theorem TraceRow.isPlain_toJson {row : TraceRow}
    (words : ∀ number ∈ row.numbers, number < wordBound) : row.toJson.isPlain = true := by
  obtain ⟨depth, trace⟩ := List.forall_mem_cons.1 words
  simp [toJson, Json.ofNat, Json.isPlain, Json.isPlainMembers, depth, Trace.isPlain_toJson trace]

/-- Different lists of trace rows have different texts. -/
theorem TraceRow.eq_of_writeAll_eq {first second : List TraceRow}
    (firstWords : ∀ row ∈ first, ∀ number ∈ row.numbers, number < wordBound)
    (secondWords : ∀ row ∈ second, ∀ number ∈ row.numbers, number < wordBound)
    (same : writeAll first = writeAll second) : first = second := by
  have records : Json.list (first.map toJson) = Json.list (second.map toJson) :=
    Json.eq_of_pretty_eq
      (Json.isPlain_records fun row member => isPlain_toJson (firstWords row member))
      (Json.isPlain_records fun row member => isPlain_toJson (secondWords row member)) same
  exact toJson_injective.list_map (Json.list.inj records)

/-- A trace report loses nothing. Trace rows whose numbers are words, whatever their texts hold and
however long their chains are, are the same when their texts are; and when exports with traces have
succeeded and left the same in the files of trace records, the trace rows were the same. -/
theorem trace_report_loses_nothing (first second : Report)
    (firstWords : ∀ row ∈ first.traces, ∀ number ∈ row.numbers, number < wordBound)
    (secondWords : ∀ row ∈ second.traces, ∀ number ∈ row.numbers, number < wordBound) :
    (TraceRow.writeAll first.traces = TraceRow.writeAll second.traces →
      first.traces = second.traces) ∧
    ∀ (tree later other otherLater : FileTree) (directory otherDirectory : String)
      (paths otherPaths : List String),
      tree.writeReport first true directory = (later, .ok paths) →
      other.writeReport second true otherDirectory = (otherLater, .ok otherPaths) →
      later.find? (joinPath directory tracesFile) =
        otherLater.find? (joinPath otherDirectory tracesFile) →
      first.traces = second.traces := by
  have texts := TraceRow.eq_of_writeAll_eq firstWords secondWords
  refine ⟨texts, ?_⟩
  intro tree later other otherLater directory otherDirectory paths otherPaths written otherWritten
    same
  have listed : ∀ report : Report,
      (tracesFile, TraceRow.writeAll report.traces) ∈ report.files true := by
    intro report
    simp [Report.files]
  rw [FileTree.find?_of_mem_files written (listed first),
    FileTree.find?_of_mem_files otherWritten (listed second)] at same
  have bytes : (TraceRow.writeAll first.traces).toUTF8 =
      (TraceRow.writeAll second.traces).toUTF8 := by
    simpa using same
  exact texts (String.toByteArray_inj.1 bytes)

/-- Two reports of nearly the same chain. The mark of the first call is absent in one and the text
`null` in the other, the recursive calls differ in their owners, and a label looks like the end of
its member. -/
def echoes : Report × Report where
  fst := { traces := [⟨"a.json", "A", "f", 2,
    .call ⟨"g\", \"expr\": \"\n", 0, ⟨2, 0, 0⟩, .args, none⟩
      (.call ⟨"f", 1, ⟨0, 0, 1⟩, .callee, some userDefined⟩ (.recursion "f" "A"))⟩] }
  snd := { traces := [⟨"a.json", "A", "f", 2,
    .call ⟨"g\", \"expr\": \"\n", 0, ⟨2, 0, 0⟩, .args, some "null"⟩
      (.call ⟨"f", 1, ⟨0, 0, 1⟩, .callee, some userDefined⟩ (.recursion "f" "B"))⟩] }

theorem echoes_told_apart :
    (∀ row ∈ echoes.1.traces, ∀ number ∈ row.numbers, number < wordBound) ∧
    (∀ row ∈ echoes.2.traces, ∀ number ∈ row.numbers, number < wordBound) ∧
    TraceRow.writeAll echoes.1.traces ≠ TraceRow.writeAll echoes.2.traces ∧
    ∃ first second : FileTree,
      FileTree.writeReport {} echoes.1 true "out" =
        (first, .ok ["out/depths.json", "out/depth_traces.json"]) ∧
      FileTree.writeReport {} echoes.2 true "out" =
        (second, .ok ["out/depths.json", "out/depth_traces.json"]) ∧
      first.find? "out/depth_traces.json" ≠ second.find? "out/depth_traces.json" := by
  have firstWords : ∀ row ∈ echoes.1.traces, ∀ number ∈ row.numbers, number < wordBound := by decide
  have secondWords : ∀ row ∈ echoes.2.traces, ∀ number ∈ row.numbers, number < wordBound := by
    decide
  have apart : echoes.1.traces ≠ echoes.2.traces := by decide
  obtain ⟨texts, files⟩ := trace_report_loses_nothing echoes.1 echoes.2 firstWords secondWords
  have written := FileTree.writeReport_out
  exact ⟨firstWords, secondWords, fun same => apart (texts same), _, _, written echoes.1,
    written echoes.2, fun same => apart (files _ _ _ _ _ _ _ _ (written _) (written _) same)⟩

end CallDepth
