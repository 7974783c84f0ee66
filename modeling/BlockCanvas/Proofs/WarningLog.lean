import BlockCanvas.Proofs.CompileFailure
namespace BlockCanvas

-- What the parts of the system put before the diagnostics that they log.
def logMarks : List String := ["Graph restore: ", "Compile: ", "AST build: "]

-- A logged message without the mark before it.
def unmarked (message : String) : String :=
  match logMarks.find? fun mark => mark.toList.isPrefixOf message.toList with
  | some mark => String.ofList (message.toList.drop mark.toList.length)
  | none => message

def Log.warnings (log : Log) : List String :=
  (log.filter fun entry => entry.level = .warning).map LogEntry.message

theorem unmarked_append {mark : String} (listed : mark ∈ logMarks) (text : String) : unmarked (mark ++ text) = text := by
  have found : (logMarks.find? fun other => other.toList.isPrefixOf (mark ++ text).toList) = some mark := by
    simp only [logMarks, List.mem_cons, List.not_mem_nil, or_false] at listed
    rcases listed with rfl | rfl | rfl
    · simp [logMarks]
    · simp [logMarks]
    · simp [logMarks]
  rw [unmarked, found]
  simp

theorem warnings_append (first second : Log) : Log.warnings (first ++ second) = first.warnings ++ second.warnings := by
  simp [Log.warnings]

-- Marking diagnostics for the log and taking the marks away gives their texts.
theorem unmarked_warnings {mark : String} (listed : mark ∈ logMarks) (channel : Channel) (notes : List Diagnostic) :
    (Log.warnings (notes.map (Diagnostic.under channel mark))).map unmarked = notes.map Diagnostic.message := by
  induction notes with
  | nil => rfl
  | cons note rest ih =>
      simp only [Log.warnings] at ih
      simp [Log.warnings, Diagnostic.under, unmarked_append listed, ih]

-- Every diagnostic of a compilation is logged as a warning, once and in its turn, and no other warning is logged.
-- The mark before it tells the part that found it.
structure LogsDiagnostics (catalog : Catalog) (room : Nat) (records : List BlockRecord) (compiled : Logged Artifact) :
    Prop where
  stripped : compiled.log.warnings.map unmarked = compiled.value.diagnostics.map Diagnostic.message
  placed : ∃ restored program before after, Graph.restore catalog records = .ok restored ∧
    Builder.program room restored.graph before = .ok program after ∧
    compiled.value.diagnostics =
      restored.notes ++ (Graph.cycleNotes restored.graph.evaluationOrder ++ after.notes) ∧
    compiled.log = restored.notes.map (Diagnostic.under .graph "Graph restore: ") ++
      ((Graph.cycleNotes restored.graph.evaluationOrder).map (Diagnostic.under .compiler "Compile: ") ++
        (after.notes.map (Diagnostic.under .tree "AST build: ") ++
          [Graph.summary restored.graph.size program.length
            (Graph.cycleNotes restored.graph.evaluationOrder ++ after.notes).length]))

theorem Graph.builder_ok {graph : Graph} {room : Nat} (clear : graph.failure? room = none) (visit : Visit) :
    Builder.program room graph visit =
      .ok graph.program.value (Visit.after { visit with visiting := [], notes := [] } graph.program.notes) := by
  rw [Builder.program_eq, Built.run]
  cases stopped : graph.program.trace.findSome? (Event.stop? room) with
  | none => rfl
  | some error => simp [failure?, stopped] at clear

theorem compile_logs_diagnostics {catalog : Catalog} {room : Nat} {unit : String} {records : List BlockRecord}
    {compiled : Logged Artifact} (made : compileRecords catalog room unit records = .ok compiled) :
    LogsDiagnostics catalog room records compiled := by
  cases restoring : Graph.restore catalog records with
  | error error =>
      rw [compileRecords, restoring] at made
      cases made
  | ok restored =>
      rw [compileRecords_of_restore restoring] at made
      cases clear : restored.graph.failure? room with
      | some failure =>
          rw [clear] at made
          cases made
      | none =>
          rw [clear] at made
          cases made
          have log : Graph.restoreLog restored.notes ++ restored.graph.compileLog =
              restored.notes.map (Diagnostic.under .graph "Graph restore: ") ++
                ((Graph.cycleNotes restored.graph.evaluationOrder).map (Diagnostic.under .compiler "Compile: ") ++
                  (restored.graph.program.notes.map (Diagnostic.under .tree "AST build: ") ++
                    [Graph.summary restored.graph.size restored.graph.program.value.length
                      (Graph.cycleNotes restored.graph.evaluationOrder ++ restored.graph.program.notes).length])) := by
            simp only [Graph.restoreLog, Graph.compileLog, Graph.warnings, List.append_assoc]
          refine ⟨?_, restored, _, ⟨[], [], []⟩, _, restoring, Graph.builder_ok clear _, rfl, log⟩
          have summary : ∀ blocks statements diagnostics,
              Log.warnings [Graph.summary blocks statements diagnostics] = [] := fun _ _ _ => rfl
          rw [log]
          simp only [warnings_append, summary, List.append_nil, List.map_append, Graph.artifact]
          rw [unmarked_warnings (by simp [logMarks]), unmarked_warnings (by simp [logMarks]),
            unmarked_warnings (by simp [logMarks])]

-- One record is of no known kind, and a read is to be prompted by a variable.
def promptRecords : List BlockRecord :=
  [⟨"a", "io.write", Position.zero, Table.empty, [⟨"b", "a", "value"⟩], none, none⟩,
    ⟨"b", "io.read", Position.zero, Table.empty, [⟨"c", "b", "prompt"⟩], none, none⟩,
    ⟨"c", "var.get", Position.zero, Table.empty, [], none, none⟩,
    ⟨"d", "unheard.of", Position.zero, Table.empty, [], none, none⟩]

theorem compile_logs_diagnostics_prompt :
    (Graph.restore Catalog.builtin promptRecords).map (fun restored => (restored.notes, restored.graph.program.notes)) =
      .ok ([.unknownDefinition "d" "unheard.of"], [.build "b" "io.read" .promptIgnored]) ∧
    ∃ compiled, compileRecords Catalog.builtin Builder.usualRoom "  " promptRecords = .ok compiled ∧
      LogsDiagnostics Catalog.builtin Builder.usualRoom promptRecords compiled := by
  have restored : Graph.restore Catalog.builtin promptRecords = .ok (.ofRecords Catalog.builtin promptRecords) :=
    Graph.restore_of_distinct (by decide)
  have clear : (Graph.Restoring.ofRecords Catalog.builtin promptRecords).graph.failure? Builder.usualRoom = none := by cbv
  have made : compileRecords Catalog.builtin Builder.usualRoom "  " promptRecords = _ :=
    compileRecords_of_restore restored
  rw [clear] at made
  exact ⟨by cbv, _, made, compile_logs_diagnostics made⟩

end BlockCanvas
