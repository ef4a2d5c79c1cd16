/-
# What a measurement covers

A measurement completes exactly the definitions that are reached from the measured one by calls, and
keeps every outcome that was remembered (`Settled.completed_depth_iff`). So after any measurements,
the completed definitions are those that a measured one reaches (`completed_after_iff`), and a
repeated measurement gives the same outcome and changes nothing (`depth_again`).

The analysis of a unit measures its definitions in order. Its engine is the one after these
measurements (`measureAll_engine`), and each row holds the outcome that its definition had in its
turn (`measureAll_row`).
-/
import CallDepth.Analysis
import CallDepth.Proofs.Worklist

namespace CallDepth

namespace Analyzer

variable {analyzer : Analyzer}

/-- A measurement completes what it reaches and nothing else. -/
theorem Settled.completed_depth_iff {engine : Engine} (settled : analyzer.Settled engine)
    (id other : FunctionId) :
    (analyzer.depth engine id).2.Completed other ↔
      engine.Completed other ∨ analyzer.unit.Reaches id other := by
  obtain ⟨later, remembers, found⟩ := settled.depth id
  constructor
  · intro completed
    by_cases before : engine.Completed id
    · obtain ⟨outcome, known⟩ := before
      rw [depth_of_completed known] at completed
      exact .inl completed
    · rw [depth_of_open before] at completed
      have start : ∀ other ∈ (Analyzer.launch engine id).stack, analyzer.unit.Reaches id other :=
        List.forall_mem_singleton.2 .refl
      exact (run_confined analyzer.turnBound start).2 other completed
  · rintro (before | reaches)
    · exact remembers.completed before
    · exact later.completed_of_reaches ⟨_, found⟩ reaches

/-- After measurements, the completed definitions are those that a measured one reaches. -/
theorem completed_after_iff (ids : List FunctionId) (other : FunctionId) :
    (analyzer.after ids).Completed other ↔ ∃ id ∈ ids, analyzer.unit.Reaches id other := by
  induction ids using List.reverseRecOn with
  | nil => simp [after, Engine.Completed, Engine.outcome?]
  | append_singleton ids id ih =>
      rw [after_concat, (after_settled ids).completed_depth_iff, ih]
      simp [or_and_right, exists_or]

/-- Within the turns of a measurement, too, no outcome is forgotten. -/
theorem Settled.iterate_remembers {engine : Engine} (settled : analyzer.Settled engine)
    {id : FunctionId} (open_ : ¬ engine.Completed id) (turn more : Nat) :
    (analyzer.step^[more + turn] (Analyzer.launch engine id)).engine.Remembers
      (analyzer.step^[turn] (Analyzer.launch engine id)).engine := by
  rw [Function.iterate_add_apply, ← run_eq_iterate more, ← run_eq_iterate turn]
  exact (run_grows more (run_sound turn (settled.launch open_))).1

/-- A repeated measurement gives the same outcome and changes nothing. -/
theorem depth_again (ids more : List FunctionId) (id : FunctionId) :
    analyzer.depth (analyzer.after (ids ++ id :: more)) id =
      ((analyzer.depth (analyzer.after ids) id).1, analyzer.after (ids ++ id :: more)) := by
  have found : (analyzer.after (ids ++ [id])).outcome? id =
      some (analyzer.depth (analyzer.after ids) id).1 := by
    rw [after_concat]
    exact ((after_settled ids).depth id).2.2
  have kept := analyzer.after_remembers (ids ++ [id]) more _ _ found
  rw [← List.append_cons] at kept
  exact depth_of_completed kept

/-! ## The analysis of a unit -/

/-- Measure definitions in order; the first one has the given id. -/
def measureFrom (analyzer : Analyzer) (engine : Engine) (id : FunctionId) :
    List Definition → List FunctionDepth × Engine
  | [] => ([], engine)
  | definition :: rest =>
      let (outcome, engine) := analyzer.depth engine id
      let (rows, engine) := analyzer.measureFrom engine (id + 1) rest
      (definition.measured outcome :: rows, engine)

/-- Entries whose ids count up from one are measured like their definitions. -/
theorem measureEach_eq_measureFrom (engine : Engine) {id : FunctionId}
    {entries : List FunctionEntry} (numbered : entries.map (·.id) = List.range' id entries.length) :
    analyzer.measureEach engine entries =
      analyzer.measureFrom engine id (entries.map (·.definition)) := by
  induction entries generalizing engine id with
  | nil => rfl
  | cons entry rest ih =>
      rw [List.map_cons, List.length_cons, List.range'_succ, List.cons.injEq] at numbered
      obtain ⟨rfl, later⟩ := numbered
      simp only [measureEach, List.map_cons, measureFrom, ih _ later]

/-- The ids count the definitions of a unit from zero. -/
theorem measureAll_eq_measureFrom (analyzer : Analyzer) :
    analyzer.measureAll = analyzer.measureFrom {} 0 analyzer.unit.symbols.functions := by
  refine measureEach_eq_measureFrom {} ?_
  rw [analyzer.unit.consistent.numbered, List.range_eq_range']

/-- A measurement gives one row for each definition, in order. -/
theorem exists_measureFrom_rows (analyzer : Analyzer) (engine : Engine)
    (id : FunctionId) (definitions : List Definition) :
    ∃ outcomes : List Outcome, outcomes.length = definitions.length ∧
      (analyzer.measureFrom engine id definitions).1 =
        List.zipWith Definition.measured definitions outcomes := by
  induction definitions generalizing engine id with
  | nil => exact ⟨[], rfl, rfl⟩
  | cons definition rest ih =>
      obtain ⟨outcomes, length, rows⟩ := ih (analyzer.depth engine id).2 (id + 1)
      refine ⟨(analyzer.depth engine id).1 :: outcomes, congrArg (· + 1) length, ?_⟩
      rw [List.zipWith_cons_cons, ← rows]
      rfl

theorem measureFrom_engine (ids : List FunctionId) (id : FunctionId)
    (definitions : List Definition) :
    (analyzer.measureFrom (analyzer.after ids) id definitions).2 =
      analyzer.after (ids ++ List.range' id definitions.length) := by
  induction definitions generalizing ids id with
  | nil => simp [measureFrom]
  | cons definition rest ih =>
      rw [List.length_cons, List.range'_succ, List.append_cons, ← ih, after_concat]
      rfl

/-- The row of a definition comes from its own measurement, after those before it. -/
theorem measureFrom_row (ids : List FunctionId) (id : FunctionId) (definitions : List Definition)
    (place : Nat) :
    (analyzer.measureFrom (analyzer.after ids) id definitions).1[place]? =
      definitions[place]?.map fun definition => definition.measured
        (analyzer.depth (analyzer.after (ids ++ List.range' id place)) (id + place)).1 := by
  induction definitions generalizing ids id place with
  | nil => simp [measureFrom]
  | cons definition rest ih =>
      cases place with
      | zero => simp [measureFrom]
      | succ place =>
          have later := ih (ids ++ [id]) (id + 1) place
          rw [after_concat, Nat.add_right_comm] at later
          rw [List.range'_succ, List.append_cons, List.getElem?_cons_succ]
          exact later

/-- The engine of an analysis is the one after all measurements. -/
theorem measureAll_engine (analyzer : Analyzer) :
    analyzer.measureAll.2 =
      analyzer.after (List.range analyzer.unit.symbols.functions.length) := by
  rw [measureAll_eq_measureFrom, List.range_eq_range']
  exact measureFrom_engine [] 0 _

/-- A row of an analysis holds the outcome of its definition, measured after the ones before it. -/
theorem measureAll_row (analyzer : Analyzer) (id : FunctionId) :
    analyzer.measureAll.1[id]? = (analyzer.unit.symbols.function? id).map fun definition =>
      definition.measured (analyzer.depth (analyzer.after (List.range id)) id).1 := by
  have row := analyzer.measureFrom_row [] 0 analyzer.unit.symbols.functions id
  rw [List.nil_append, ← List.range_eq_range', Nat.zero_add] at row
  rw [measureAll_eq_measureFrom]
  exact row

theorem analyze_rows {root : Node} (same : analyzer.unit = SourceUnit.ofTree root) :
    (analyze analyzer.options root).rows = analyzer.measureAll.1 := by
  rw [analyze, ← same]

/-- An analysis completes all definitions of the unit. -/
theorem completed_measureAll_iff (analyzer : Analyzer) (id : FunctionId) :
    analyzer.measureAll.2.Completed id ↔ id < analyzer.unit.symbols.functions.length := by
  rw [measureAll_engine, completed_after_iff]
  constructor
  · rintro ⟨first, member, reaches⟩
    exact reaches.lt_length (List.mem_range.1 member)
  · intro inside
    exact ⟨id, List.mem_range.2 inside, .refl⟩

/-- What measurements do to the engine. After any of them no definition is active and callees of
completed definitions are completed. A further one completes exactly what it reaches. No remembered
outcome ever changes, neither in a turn nor in a measurement, so a repeated measurement gives the
same outcome and changes nothing. An analysis completes all definitions of the unit. -/
theorem depth_covers_reachable (analyzer : Analyzer) (ids : List FunctionId) :
    (analyzer.after ids).active = [] ∧
    (∀ caller callee, (analyzer.after ids).Completed caller → analyzer.unit.Calls caller callee →
      (analyzer.after ids).Completed callee) ∧
    (∀ id other, (analyzer.depth (analyzer.after ids) id).2.Completed other ↔
      (analyzer.after ids).Completed other ∨ analyzer.unit.Reaches id other) ∧
    (∀ id turn more, ¬ (analyzer.after ids).Completed id →
      (analyzer.step^[more + turn] (launch (analyzer.after ids) id)).engine.Remembers
        (analyzer.step^[turn] (launch (analyzer.after ids) id)).engine) ∧
    (∀ more, (analyzer.after (ids ++ more)).Remembers (analyzer.after ids)) ∧
    (∀ id more, analyzer.depth (analyzer.after (ids ++ id :: more)) id =
      ((analyzer.depth (analyzer.after ids) id).1, analyzer.after (ids ++ id :: more))) ∧
    (∀ id, analyzer.measureAll.2.Completed id ↔
      id < analyzer.unit.symbols.functions.length) := by
  have settled := analyzer.after_settled ids
  exact ⟨settled.idle, settled.closed, settled.completed_depth_iff,
    fun _ turn more open_ => settled.iterate_remembers open_ turn more, after_remembers ids,
    fun id more => depth_again ids more id, completed_measureAll_iff analyzer⟩

/-- Measuring `odd` completes `even` too, which it reaches; measuring both again changes nothing. -/
theorem parity_covers_reachable :
    (parity.after [1]).active = [] ∧ parity.unit.Calls 1 0 ∧ (parity.after [1]).Completed 1 ∧
      (parity.after [1]).Completed 0 ∧ ¬ (parity.after []).Completed 0 ∧
      (parity.depth (parity.after []) 1).2.Completed 0 ∧
      parity.depth (parity.after [1, 0]) 1 =
        ((parity.depth (parity.after []) 1).1, parity.after [1, 0]) ∧
      parity.measureAll.2.Completed 1 := by
  have calls : parity.unit.Calls 1 0 := by decide +kernel
  have completed : (parity.after [1]).Completed 1 := by decide +kernel
  obtain ⟨-, -, covers, -, -, again, all⟩ := depth_covers_reachable parity []
  obtain ⟨idle, closed, -⟩ := depth_covers_reachable parity [1]
  exact ⟨idle, calls, completed, closed 1 0 completed calls, by decide +kernel,
    (covers 1 0).2 (.inr (.single calls)), again 1 [0], (all 1).2 (by decide +kernel)⟩

end Analyzer

end CallDepth
