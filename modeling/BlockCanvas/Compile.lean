import BlockCanvas.Graph.Restore
import BlockCanvas.Program.Builder
import BlockCanvas.Program.Source
namespace BlockCanvas

structure Artifact where
  code : String
  diagnostics : List Diagnostic
  order : List String
deriving DecidableEq

-- A result, or what came instead of one, with the log entries made on the way to it.
structure Logged (α : Type) where
  value : α
  log : Log

-- What stops a compilation. Only the records themselves can be refused; the rest is a limit that the work runs into.
inductive CompileError where
  | refused (error : Graph.RestoreError)
  | unbuilt (error : BuildError)
  | unwritten (error : RenderError)
deriving DecidableEq

def CompileError.message : CompileError → String
  | .refused _ => "Program compilation failed"
  | .unbuilt error => error.message
  | .unwritten error => error.message

namespace Graph

def cycleNotes (order : EvaluationOrder) : List Diagnostic :=
  if order.isComplete then [] else [.dataCycle order.residue]

def summary (blocks statements diagnostics : Nat) : LogEntry :=
  ⟨.debug, .compiler, s!"Compiled {blocks} blocks into {statements} statements ({diagnostics} diagnostics)"⟩

-- A cycle among the data connections is reported and the program built all the same.
def compile (room : Nat) (unit : String) (graph : Graph) : Except (Logged CompileError) (Logged Artifact) :=
  let order := graph.evaluationOrder
  let cycle := cycleNotes order
  match Builder.program room graph ⟨[], [], cycle.map (Diagnostic.under .compiler "Compile: ")⟩ with
  | .error error visit => .error ⟨.unbuilt error, visit.log⟩
  | .ok program visit =>
    let diagnostics := cycle ++ visit.notes
    match Source.program unit program with
    | .error error => .error ⟨.unwritten error, visit.log⟩
    | .ok code =>
        .ok ⟨⟨code, diagnostics, order.order⟩,
          visit.log ++ [summary graph.size program.length diagnostics.length]⟩

end Graph

-- Restores the records and compiles what could be restored.
def compileRecords (catalog : Catalog) (room : Nat) (unit : String) (records : List BlockRecord) :
    Except (Logged CompileError) (Logged Artifact) :=
  match Graph.restore catalog records with
  | .error error => .error ⟨.refused error, []⟩
  | .ok restored =>
    match restored.graph.compile room unit with
    | .error failure => .error ⟨failure.value, Graph.restoreLog restored.notes ++ failure.log⟩
    | .ok compiled =>
        .ok ⟨{ compiled.value with diagnostics := restored.notes ++ compiled.value.diagnostics },
          Graph.restoreLog restored.notes ++ compiled.log⟩

end BlockCanvas
