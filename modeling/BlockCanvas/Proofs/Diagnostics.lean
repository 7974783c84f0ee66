import BlockCanvas.Proofs.Notes
import BlockCanvas.Proofs.RoundTrip
namespace BlockCanvas
open Relation

-- A fault in the flow of data: a cycle, or a source that is not there.
def Diagnostic.isFlowFault : Diagnostic → Bool
  | .dataCycle _ => true
  | .build _ _ .selfDependent => true
  | .build _ _ (.missingSource ..) => true
  | _ => false

-- The sockets whose sources are built along with a block, by the id of its definition.
def followedSockets (definition : String) : List String :=
  if definition ∈ ["io.write", "var.declare", "var.set"] then ["value"]
  else if definition ∈ ["control.if", "control.while"] then ["condition"]
  else if definition = "io.read" then ["prompt"]
  else if definition.toList.take 3 = ['o', 'p', '.'] then ["left", "right"]
  else []

namespace Graph
variable {graph : Graph} {diagnostic : Diagnostic} {id source start goal : String}

theorem Wired.cycleNotes_eq_nil (wired : Wired graph) : cycleNotes graph.evaluationOrder = [] := by
  have empty : graph.evaluationOrder.residue = [] := EvaluationOrder.residue_eq_nil wired.acyclic_dataEdges
  simp [cycleNotes, EvaluationOrder.isComplete, empty]

theorem Upstream.isFlowFault (above : graph.Upstream start diagnostic) : diagnostic.isFlowFault = false := by
  obtain ⟨_, _, note, _, _, reports, rfl⟩ := above
  rcases reports.form with ⟨rfl, _⟩ | ⟨rfl, _⟩ | ⟨rfl, _⟩ <;> rfl

theorem Wired.isFlowFault (wired : Wired graph) (sequenced : Sequenced graph)
    (noted : diagnostic ∈ graph.program.notes) : diagnostic.isFlowFault = false := by
  obtain ⟨id, block, found, _, noted⟩ := (mem_notes_program sequenced).mp noted
  rcases (Build.mem_notes_statement wired found).mp noted with ⟨_, rfl⟩ | ⟨feeding, _, above⟩
  · rfl
  · exact above.isFlowFault

-- A block that gives a value.
def Gives (graph : Graph) (id : String) : Prop :=
  ∃ definition output, graph.definition? id = some definition ∧ definition.output = some output

theorem Wired.gives (wired : Wired graph) (feeds : graph.Feeds source id) : graph.Gives source := by
  obtain ⟨block, socket, connection, found, stored, rfl⟩ := feeds
  obtain ⟨_, _, definition, output, _, given, out, _⟩ := (wired.fits id block found).connection socket connection stored
  exact ⟨definition, output, given, out⟩

theorem Draws.congr {first second : String → List String} (draws : graph.Draws first id source)
    (same : ∀ definition, graph.definition? id = some definition → first definition.id = second definition.id) :
    graph.Draws second id source := by
  obtain ⟨block, socket, connection, found, listed, stored, given⟩ := draws
  rw [same block.definition (definition?_of_get? found)] at listed
  exact ⟨block, socket, connection, found, listed, stored, given⟩

-- Two ways to choose sockets that agree wherever a value is given lead to the same blocks.
theorem Wired.draws_congr {first second : String → List String} (wired : Wired graph)
    (same : ∀ id definition output, graph.definition? id = some definition → definition.output = some output →
      first definition.id = second definition.id)
    (gives : graph.Gives start) (way : ReflTransGen (graph.Draws first) start goal) :
    ReflTransGen (graph.Draws second) start goal := by
  induction way using ReflTransGen.head_induction_on with
  | refl => exact .refl
  | head draws _ ih =>
      obtain ⟨definition, output, known, out⟩ := gives
      refine .head (draws.congr fun other present => ?_) (ih (wired.gives draws.feeds))
      rw [known] at present
      cases present
      exact same _ definition output known out

-- A read whose prompt is connected to a block that is not built into a literal.
def AsksInVain (graph : Graph) (id : String) : Prop :=
  ∃ block connection giving, graph.get? id = some block ∧ block.definition.id = "io.read" ∧
    block.inputs.get? "prompt" = some connection ∧ graph.get? connection.source = some giving ∧
    giving.definition.id ∈ ["io.read", "var.get"]

end Graph

namespace Definition
variable {definition giving : Definition}

-- What stands in a chain is built into a statement, and what gives a value into an expression.
def isBuildable (definition : Definition) : Bool :=
  (!definition.isChainCapable ||
    StatementForm.of definition.id ≠ .unknown && definition.id ≠ "io.read" &&
      followedSockets definition.id = statementSockets definition.id) &&
  (definition.output.isNone ||
    ExpressionForm.of definition.id ≠ .unknown && ExpressionForm.of definition.id ≠ .operation none &&
      followedSockets definition.id = expressionSockets definition.id)

-- Of what fits the prompt of a read, only reads and variables are not built into a literal.
def promptSuits (definition giving : Definition) : Bool :=
  definition.id ≠ "io.read" || (definition.input? "prompt").all fun input =>
    giving.output.all fun output =>
      !input.acceptsType output.type || (ExpressionForm.of giving.id).isLiteral ||
        giving.id ∈ ["io.read", "var.get"]

theorem builtin_buildable (known : definition.Known Catalog.builtin) : definition.isBuildable = true := by
  have every : ∀ definition ∈ Catalog.builtinDefinitions, definition.isBuildable = true := by decide +kernel
  exact every definition (Catalog.mem_builtinDefinitions known)

theorem builtin_promptSuits (known : definition.Known Catalog.builtin) (also : giving.Known Catalog.builtin) :
    definition.promptSuits giving = true := by
  have every : ∀ definition ∈ Catalog.builtinDefinitions, ∀ giving ∈ Catalog.builtinDefinitions,
      definition.promptSuits giving = true := by decide +kernel
  exact every definition (Catalog.mem_builtinDefinitions known) giving (Catalog.mem_builtinDefinitions also)

theorem statement_of_buildable (buildable : definition.isBuildable = true) (capable : definition.isChainCapable = true) :
    StatementForm.of definition.id ≠ .unknown ∧ definition.id ≠ "io.read" ∧
      followedSockets definition.id = statementSockets definition.id := by
  simp only [isBuildable, capable, Bool.not_true, Bool.false_or, Bool.and_eq_true, decide_eq_true_eq] at buildable
  exact ⟨buildable.1.1.1, buildable.1.1.2, buildable.1.2⟩

theorem expression_of_buildable {output : Socket} (buildable : definition.isBuildable = true)
    (out : definition.output = some output) :
    ExpressionForm.of definition.id ≠ .unknown ∧ ExpressionForm.of definition.id ≠ .operation none ∧
      followedSockets definition.id = expressionSockets definition.id := by
  simp only [isBuildable, out, Option.isNone_some, Bool.false_or, Bool.and_eq_true, decide_eq_true_eq] at buildable
  exact ⟨buildable.2.1.1, buildable.2.1.2, buildable.2.2⟩

end Definition

theorem ExpressionForm.of_eq_read_iff {name : String} : ExpressionForm.of name = .read ↔ name = "io.read" := by
  constructor
  · intro form
    unfold ExpressionForm.of at form
    split at form
    · assumption
    · repeat' split at form
      all_goals cases form
  · rintro rfl
    rfl

namespace Graph
variable {graph : Graph} {diagnostic : Diagnostic} {id start goal : String} {block : Block} {note : BuildNote}

theorem Wired.gives_ahead (wired : Wired graph) {sockets : String → List String} (gives : graph.Gives start)
    (way : ReflTransGen (graph.Draws sockets) start goal) : graph.Gives goal := by
  rcases way.cases_tail with same | ⟨_, _, draws⟩
  · exact same ▸ gives
  · exact wired.gives draws.feeds

theorem AsksInVain.reports (vain : graph.AsksInVain id) (found : graph.get? id = some block) :
    graph.Reports block .promptIgnored := by
  obtain ⟨_, connection, giving, present, named, stored, there, listed⟩ := vain
  rw [found] at present
  cases present
  refine .promptIgnored (ExpressionForm.of_eq_read_iff.mpr named) stored there ?_
  simp only [List.mem_cons, List.not_mem_nil, or_false] at listed
  rcases listed with same | same
  · rw [same]
    rfl
  · rw [same]
    rfl

section Builtin
variable (sound : Sound Catalog.builtin graph)
include sound

theorem Sound.asksInVain (found : graph.get? id = some block) (gives : graph.Gives id)
    (reports : graph.Reports block note) : note = .promptIgnored ∧ graph.AsksInVain id := by
  have here := definition?_of_get? found
  obtain ⟨definition, output, known, out⟩ := gives
  rw [here] at known
  cases known
  obtain ⟨known, mapped, _⟩ :=
    Definition.expression_of_buildable (Definition.builtin_buildable (sound.known id _ here)) out
  cases reports with
  | unmappedOperator form => exact absurd form mapped
  | unknownExpression form => exact absurd form known
  | @promptIgnored connection giving form stored there other =>
      obtain ⟨_, _, _, result, input, given, out, declared, accepted⟩ :=
        (sound.wired.fits id block found).connection "prompt" connection stored
      rw [definition?_of_get? there] at given
      cases given
      have named := ExpressionForm.of_eq_read_iff.mp form
      have suits := Definition.builtin_promptSuits (sound.known id _ here)
        (sound.known connection.source _ (definition?_of_get? there))
      simp only [Definition.promptSuits, named, declared, out, accepted, other, Option.all_some, ne_eq, not_true,
        decide_false, Bool.not_true, Bool.false_or, Bool.or_false, decide_eq_true_eq] at suits
      exact ⟨rfl, block, connection, giving, found, named, stored, there, suits⟩

theorem Sound.upstream_iff (gives : graph.Gives start) :
    graph.Upstream start diagnostic ↔
      ∃ id, ReflTransGen (graph.Draws followedSockets) start id ∧ graph.AsksInVain id ∧
        diagnostic = .build id "io.read" .promptIgnored := by
  have same : ∀ id definition output, graph.definition? id = some definition → definition.output = some output →
      expressionSockets definition.id = followedSockets definition.id := by
    intro id definition output known out
    exact (Definition.expression_of_buildable (Definition.builtin_buildable (sound.known id _ known)) out).2.2.symm
  constructor
  · rintro ⟨id, block, note, way, found, reports, rfl⟩
    obtain ⟨rfl, vain⟩ := sound.asksInVain found (sound.wired.gives_ahead gives way) reports
    refine ⟨id, sound.wired.draws_congr same gives way, vain, ?_⟩
    obtain ⟨_, _, _, present, named, _⟩ := vain
    rw [found] at present
    cases present
    rw [named]
  · rintro ⟨id, way, vain, rfl⟩
    have ⟨block, _, _, found, named, _⟩ := vain
    have back := sound.wired.draws_congr (fun id definition output known out => (same id definition output known out).symm)
      gives way
    exact ⟨id, block, .promptIgnored, back, found, vain.reports found, by rw [named]⟩

-- Every chain starts at a statement, and a statement is no read: so a read is met one step further on.
theorem Sound.mem_notes_program_iff :
    diagnostic ∈ graph.program.notes ↔
      ∃ start id, graph.IsChainCapable start ∧ ReflTransGen (graph.Draws followedSockets) start id ∧
        graph.AsksInVain id ∧ diagnostic = .build id "io.read" .promptIgnored := by
  rw [mem_notes_program sound.sequenced]
  constructor
  · rintro ⟨start, block, found, capable, noted⟩
    obtain ⟨statement, _, same⟩ := Definition.statement_of_buildable
      (Definition.builtin_buildable (sound.known start _ (definition?_of_get? found))) capable
    rcases (Build.mem_notes_statement sound.wired found).mp noted with ⟨unknown, _⟩ | ⟨feeding, draws, above⟩
    · exact absurd unknown statement
    · obtain ⟨id, way, vain, rfl⟩ := (sound.upstream_iff (sound.wired.gives draws.feeds)).mp above
      refine ⟨start, id, ⟨block, found, capable⟩, .head (draws.congr fun definition known => ?_) way, vain, rfl⟩
      rw [definition?_of_get? found] at known
      cases known
      exact same.symm
  · rintro ⟨start, id, ⟨block, found, capable⟩, way, vain, rfl⟩
    obtain ⟨_, other, same⟩ := Definition.statement_of_buildable
      (Definition.builtin_buildable (sound.known start _ (definition?_of_get? found))) capable
    refine ⟨start, block, found, capable, (Build.mem_notes_statement sound.wired found).mpr (Or.inr ?_)⟩
    rcases way.cases_head with here | ⟨feeding, draws, rest⟩
    · subst here
      obtain ⟨_, _, _, present, named, _⟩ := vain
      rw [found] at present
      cases present
      exact absurd named other
    · refine ⟨feeding, draws.congr fun definition known => ?_,
        (sound.upstream_iff (sound.wired.gives draws.feeds)).mpr ⟨id, rest, vain, rfl⟩⟩
      rw [definition?_of_get? found] at known
      cases known
      exact same

end Builtin
end Graph

variable {catalog : Catalog} {canvas : Canvas}

theorem reached_diagnostics (path : Reached catalog canvas) (unit : String) :
    canvas.graph.Compiles unit fun compiled =>
      (∀ diagnostic ∈ compiled.value.diagnostics, diagnostic.isFlowFault = false) ∧
      (catalog = Catalog.builtin →
        (∀ diagnostic ∈ compiled.value.diagnostics,
          ∃ block definition, diagnostic = .build block definition .promptIgnored) ∧
        (compiled.value.diagnostics ≠ [] ↔
          ∃ start reader, canvas.graph.IsChainCapable start ∧
            ReflTransGen (canvas.graph.Draws followedSockets) start reader ∧ canvas.graph.AsksInVain reader)) := by
  have sound := path.grown.sound
  refine Graph.compiles_of fun _ => ?_
  dsimp only [Graph.artifact]
  rw [sound.wired.cycleNotes_eq_nil, List.nil_append]
  refine ⟨fun _ => sound.wired.isFlowFault sound.sequenced, ?_⟩
  rintro rfl
  refine ⟨?_, ?_⟩
  · intro diagnostic noted
    obtain ⟨_, reader, _, _, _, rfl⟩ := sound.mem_notes_program_iff.mp noted
    exact ⟨reader, "io.read", rfl⟩
  · constructor
    · intro some
      obtain ⟨_, noted⟩ := List.exists_mem_of_ne_nil _ some
      obtain ⟨start, reader, capable, way, vain, _⟩ := sound.mem_notes_program_iff.mp noted
      exact ⟨start, reader, capable, way, vain⟩
    · rintro ⟨start, reader, capable, way, vain⟩
      exact List.ne_nil_of_mem (sound.mem_notes_program_iff.mpr ⟨start, reader, capable, way, vain, rfl⟩)

-- Both sides of a comparison are one read, which a variable is to prompt.
def vainCommands : List Command :=
  [.create "io.write" none, .create "op.compare.equal" none, .create "io.read" none, .create "var.get" none,
    .connect "gen-1" "value" "gen-2", .connect "gen-2" "left" "gen-3", .connect "gen-2" "right" "gen-3",
    .connect "gen-3" "prompt" "gen-4"]

theorem reached_diagnostics_vain :
    ∃ compiled, (Canvas.run Catalog.builtin vainCommands).graph.compile Builder.usualRoom "  " = .ok compiled ∧
      compiled.value.diagnostics =
        [.build "gen-3" "io.read" .promptIgnored, .build "gen-3" "io.read" .promptIgnored] ∧
      (∀ diagnostic ∈ compiled.value.diagnostics, diagnostic.isFlowFault = false) ∧
      (∀ diagnostic ∈ compiled.value.diagnostics,
        ∃ block definition, diagnostic = .build block definition .promptIgnored) ∧
      (compiled.value.diagnostics ≠ [] ↔
        ∃ start reader, (Canvas.run Catalog.builtin vainCommands).graph.IsChainCapable start ∧
          ReflTransGen ((Canvas.run Catalog.builtin vainCommands).graph.Draws followedSockets) start reader ∧
          (Canvas.run Catalog.builtin vainCommands).graph.AsksInVain reader) := by
  have path : Reached Catalog.builtin (Canvas.run Catalog.builtin vainCommands) :=
    reached_run (by simp [vainCommands, Command.Known])
  have told := reached_diagnostics path "  " Builder.usualRoom
  have compiled : (Canvas.run Catalog.builtin vainCommands).graph.compile Builder.usualRoom "  " = .ok _ :=
    Graph.compile_eq_ok (by cbv)
  have noted : Graph.cycleNotes (Canvas.run Catalog.builtin vainCommands).graph.evaluationOrder ++
      (Canvas.run Catalog.builtin vainCommands).graph.program.notes =
        [.build "gen-3" "io.read" .promptIgnored, .build "gen-3" "io.read" .promptIgnored] := by cbv
  rw [compiled] at told
  obtain ⟨clear, builtin⟩ := told
  exact ⟨_, compiled, noted, clear, builtin rfl⟩

end BlockCanvas
