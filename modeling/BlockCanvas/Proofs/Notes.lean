import BlockCanvas.Proofs.Chain
import BlockCanvas.Proofs.Rendering
namespace BlockCanvas
open Relation

-- The forms that are built into a literal whatever is connected.
def ExpressionForm.isLiteral : ExpressionForm → Bool
  | .literal _ => true
  | .unknown => true
  | _ => false

namespace Graph
variable {graph : Graph} {sockets : String → List String} {id source : String}

theorem Draws.feeds (draws : graph.Draws sockets id source) : graph.Feeds source id := by
  obtain ⟨block, socket, connection, found, _, stored, given⟩ := draws
  exact ⟨block, socket, connection, found, stored, given⟩

-- What building an expression notes about the block itself.
inductive Reports (graph : Graph) (block : Block) : BuildNote → Prop where
  | promptIgnored (form : ExpressionForm.of block.definition.id = .read)
      (stored : block.inputs.get? "prompt" = some connection)
      (present : graph.get? connection.source = some giving)
      (other : (ExpressionForm.of giving.definition.id).isLiteral = false) : Reports graph block .promptIgnored
  | unmappedOperator (form : ExpressionForm.of block.definition.id = .operation none) :
      Reports graph block .unmappedOperator
  | unknownExpression (form : ExpressionForm.of block.definition.id = .unknown) :
      Reports graph block .unknownExpression

theorem Reports.form {block : Block} {note : BuildNote} (reports : graph.Reports block note) :
    note = .promptIgnored ∧ ExpressionForm.of block.definition.id = .read ∨
      note = .unmappedOperator ∧ ExpressionForm.of block.definition.id = .operation none ∨
      note = .unknownExpression ∧ ExpressionForm.of block.definition.id = .unknown := by
  cases reports with
  | promptIgnored form => exact Or.inl ⟨rfl, form⟩
  | unmappedOperator form => exact Or.inr (Or.inl ⟨rfl, form⟩)
  | unknownExpression form => exact Or.inr (Or.inr ⟨rfl, form⟩)

-- A note about an expression block that is met on the way up from the start.
def Upstream (graph : Graph) (start : String) (diagnostic : Diagnostic) : Prop :=
  ∃ id block note, ReflTransGen (graph.Draws expressionSockets) start id ∧ graph.get? id = some block ∧
    graph.Reports block note ∧ diagnostic = .build id block.definition.id note

theorem upstream_iff {start : String} {block : Block} {diagnostic : Diagnostic}
    (found : graph.get? start = some block) :
    graph.Upstream start diagnostic ↔
      (∃ note, graph.Reports block note ∧ diagnostic = .build start block.definition.id note) ∨
        ∃ source, graph.Draws expressionSockets start source ∧ graph.Upstream source diagnostic := by
  constructor
  · rintro ⟨id, other, note, way, present, reports, equal⟩
    rcases way.cases_head with same | ⟨source, draws, rest⟩
    · subst id
      rw [found] at present
      cases present
      exact Or.inl ⟨note, reports, equal⟩
    · exact Or.inr ⟨source, draws, id, other, note, rest, present, reports, equal⟩
  · rintro (⟨note, reports, equal⟩ | ⟨source, draws, id, other, note, rest, present, reports, equal⟩)
    · exact ⟨start, block, note, .refl, found, reports, equal⟩
    · exact ⟨id, other, note, .head draws rest, present, reports, equal⟩

end Graph

namespace Build
variable {graph : Graph} {block : Block} {id socket : String} {default : Value} {diagnostic : Diagnostic}
  {build : String → Built Node}

-- No connection of a sound canvas is lost, so looking one up notes nothing.
theorem source_eq (wired : graph.Wired) (found : graph.get? id = some block) (socket : String) :
    source graph id block socket = (pure ((block.inputs.get? socket).map Connection.source) : Built (Option String)) := by
  unfold source
  cases stored : block.inputs.get? socket with
  | none => rfl
  | some connection =>
      obtain ⟨_, _, _, _, _, given, _⟩ := (wired.fits id block found).connection socket connection stored
      obtain ⟨_, present, _⟩ := Graph.get?_of_definition? given
      simp [Graph.contains_of_get? present]

theorem mem_notes_operand (wired : graph.Wired) (found : graph.get? id = some block) :
    diagnostic ∈ (operand build graph id block socket default).notes ↔
      ∃ feeding, (block.inputs.get? socket).map Connection.source = some feeding ∧
        diagnostic ∈ (build feeding).notes := by
  rw [operand, source_eq wired found]
  cases (block.inputs.get? socket).map Connection.source with
  | none => simp
  | some feeding => simp

theorem mem_notes_initialValue (wired : graph.Wired) (found : graph.get? id = some block) :
    diagnostic ∈ (initialValue build graph id block).notes ↔
      ∃ feeding, (block.inputs.get? "value").map Connection.source = some feeding ∧
        diagnostic ∈ (build feeding).notes := by
  rw [initialValue, source_eq wired found]
  cases (block.inputs.get? "value").map Connection.source with
  | none =>
      simp only [Built.notes_bind, Built.value_pure, Built.notes_pure, List.nil_append]
      split <;> simp
  | some feeding => simp

theorem promptOf_literal (id : String) (value : Value) : promptOf (literal id value) ≠ none := by
  cases value <;> simp [literal, promptOf]

theorem promptOf_formNode (build : String → Built Node) (graph : Graph) (id : String) (block : Block) :
    promptOf (formNode build graph id block).value = none ↔
      (ExpressionForm.of block.definition.id).isLiteral = false := by
  unfold formNode
  cases ExpressionForm.of block.definition.id with
  | read =>
      obtain ⟨prompt, equal⟩ := readNode_value build graph id block
      simp [equal, promptOf, ExpressionForm.isLiteral]
  | lookup => simp [promptOf, ExpressionForm.isLiteral]
  | literal default => simp [promptOf_literal, ExpressionForm.isLiteral]
  | operation operator => simp [operationNode, promptOf, ExpressionForm.isLiteral]
  | unknown => simp [promptOf_literal, ExpressionForm.isLiteral]

-- A source is built into a literal exactly when it is of a form that is built so.
def Telling (graph : Graph) (id : String) (build : String → Built Node) : Prop :=
  ∀ feeding giving, graph.Feeds feeding id → graph.get? feeding = some giving →
    (promptOf (build feeding).value = none ↔ (ExpressionForm.of giving.definition.id).isLiteral = false)

theorem mem_notes_readNode (wired : graph.Wired) (found : graph.get? id = some block)
    (telling : Telling graph id build) (form : ExpressionForm.of block.definition.id = .read) :
    diagnostic ∈ (readNode build graph id block).notes ↔
      graph.Reports block .promptIgnored ∧ diagnostic = .build id block.definition.id .promptIgnored ∨
        ∃ feeding, (block.inputs.get? "prompt").map Connection.source = some feeding ∧
          diagnostic ∈ (build feeding).notes := by
  rw [readNode, source_eq wired found]
  cases stored : block.inputs.get? "prompt" with
  | none =>
      have silent : ¬ graph.Reports block .promptIgnored := by
        rintro ⟨_, present, _, _⟩
        rw [stored] at present
        cases present
      cases storedPrompt block <;> simp [silent]
  | some connection =>
      obtain ⟨_, _, _, _, _, given, _⟩ := (wired.fits id block found).connection "prompt" connection stored
      obtain ⟨giving, present, _⟩ := Graph.get?_of_definition? given
      have told := telling connection.source giving ⟨block, "prompt", connection, found, stored, rfl⟩ present
      have reports : graph.Reports block .promptIgnored ↔ promptOf (build connection.source).value = none := by
        rw [told]
        constructor
        · rintro ⟨_, again, there, other⟩
          rw [stored] at again
          cases again
          rw [present] at there
          cases there
          exact other
        · exact .promptIgnored form stored present
      cases prompt : promptOf (build connection.source).value with
      | none => simp [reports, prompt, or_comm]
      | some text => simp [reports, prompt]

theorem mem_notes_operationNode {operator : Option Operator} (wired : graph.Wired)
    (found : graph.get? id = some block) :
    diagnostic ∈ (operationNode build graph id block operator).notes ↔
      operator = none ∧ diagnostic = .build id block.definition.id .unmappedOperator ∨
        ∃ socket ∈ ["left", "right"], ∃ feeding,
          (block.inputs.get? socket).map Connection.source = some feeding ∧ diagnostic ∈ (build feeding).notes := by
  simp only [operationNode, Built.notes_bind, Built.notes_pure, List.mem_append, mem_notes_operand wired found]
  cases operator with
  | none => simp [chosenOperator]
  | some operator => simp [chosenOperator]

-- A block adds its own note to those of the sources that are built for it.
theorem mem_notes_formNode (wired : graph.Wired) (found : graph.get? id = some block)
    (telling : Telling graph id build) :
    diagnostic ∈ (formNode build graph id block).notes ↔
      (∃ note, graph.Reports block note ∧ diagnostic = .build id block.definition.id note) ∨
        ∃ feeding, graph.Draws expressionSockets id feeding ∧ diagnostic ∈ (build feeding).notes := by
  rw [Graph.exists_draws_iff found]
  unfold formNode expressionSockets
  cases form : ExpressionForm.of block.definition.id with
  | read =>
      rw [mem_notes_readNode wired found telling form]
      refine or_congr ⟨fun own => ⟨_, own⟩, ?_⟩ (by simp)
      rintro ⟨note, reports, equal⟩
      rcases reports.form with ⟨rfl, _⟩ | ⟨_, other⟩ | ⟨_, other⟩
      · exact ⟨reports, equal⟩
      · simp [form] at other
      · simp [form] at other
  | lookup =>
      simp only [Built.notes_pure, List.not_mem_nil, false_and, exists_false, or_false, false_iff]
      rintro ⟨note, reports, _⟩
      simpa [form] using reports.form
  | literal default =>
      simp only [Built.notes_pure, List.not_mem_nil, false_and, exists_false, or_false, false_iff]
      rintro ⟨note, reports, _⟩
      simpa [form] using reports.form
  | operation operator =>
      dsimp only
      rw [mem_notes_operationNode wired found]
      refine or_congr ?_ Iff.rfl
      constructor
      · rintro ⟨rfl, equal⟩
        exact ⟨_, .unmappedOperator form, equal⟩
      · rintro ⟨note, reports, equal⟩
        rcases reports.form with ⟨_, other⟩ | ⟨rfl, same⟩ | ⟨_, other⟩
        · simp [form] at other
        · exact ⟨by simpa [form] using same, equal⟩
        · simp [form] at other
  | unknown =>
      simp only [Built.notes_bind, Built.notes_warn, Built.notes_pure, List.append_nil, List.mem_singleton,
        List.not_mem_nil, false_and, exists_false, or_false]
      constructor
      · exact fun equal => ⟨_, .unknownExpression form, equal⟩
      · rintro ⟨note, reports, equal⟩
        rcases reports.form with ⟨_, other⟩ | ⟨_, other⟩ | ⟨rfl, _⟩
        · simp [form] at other
        · simp [form] at other
        · exact equal

theorem promptOf_expression {opened : List String} (found : graph.get? id = some block) (present : id ∈ opened) :
    promptOf (expression graph opened id).value = none ↔
      (ExpressionForm.of block.definition.id).isLiteral = false := by
  rw [expression]
  simp only [found, present, dite_true]
  exact promptOf_formNode _ graph id block

-- Each source is still open when its turn comes, since connections form no cycle: so it is built in
-- full, also where two blocks share it.
theorem mem_notes_expression (wired : graph.Wired) {opened : List String} (found : graph.get? id = some block)
    (upstream : ∀ source, ReflTransGen graph.Feeds source id → source ∈ opened) :
    diagnostic ∈ (expression graph opened id).notes ↔ graph.Upstream id diagnostic := by
  induction size : opened.length using Nat.strong_induction_on generalizing opened id block with
  | _ size ih =>
    have present : id ∈ opened := upstream id .refl
    have pending : ∀ feeding, graph.Feeds feeding id → ∀ source, ReflTransGen graph.Feeds source feeding →
        source ∈ opened.erase id := by
      intro feeding feeds source way
      have apart : source ≠ id := by
        intro same
        subst same
        exact wired.acyclic source (TransGen.tail' way feeds)
      exact (List.mem_erase_of_ne apart).mpr (upstream source (way.tail feeds))
    have telling : Telling graph id fun inner => expression graph (opened.erase id) inner :=
      fun feeding _ feeds there => promptOf_expression there (pending feeding feeds feeding .refl)
    rw [expression]
    simp only [found, present, dite_true, Built.notes_deepened]
    rw [mem_notes_formNode wired found telling, Graph.upstream_iff found]
    refine or_congr Iff.rfl (exists_congr fun feeding => and_congr_right fun draws => ?_)
    obtain ⟨giving, there⟩ := Graph.mem_ids_iff.mp (wired.source_mem_ids draws.feeds)
    exact ih (opened.erase id).length (size ▸ length_erase_lt present) there (pending feeding draws.feeds) rfl

theorem mem_notes_fed (wired : graph.Wired) {feeding : String} (feeds : graph.Feeds feeding id) :
    diagnostic ∈ (expression graph graph.ids feeding).notes ↔ graph.Upstream feeding diagnostic := by
  obtain ⟨giving, there⟩ := Graph.mem_ids_iff.mp (wired.source_mem_ids feeds)
  refine mem_notes_expression wired there ?_
  intro source way
  rcases way.cases_head with same | ⟨next, first, _⟩
  · exact same ▸ wired.source_mem_ids feeds
  · exact wired.source_mem_ids first

theorem mem_notes_statement (wired : graph.Wired) (found : graph.get? id = some block) :
    diagnostic ∈ (statement (expression graph graph.ids) graph id block).notes ↔
      StatementForm.of block.definition.id = .unknown ∧
          diagnostic = .build id block.definition.id .unknownStatement ∨
        ∃ feeding, graph.Draws statementSockets id feeding ∧ graph.Upstream feeding diagnostic := by
  have drawn : (∃ feeding, graph.Draws statementSockets id feeding ∧ graph.Upstream feeding diagnostic) ↔
      ∃ feeding, graph.Draws statementSockets id feeding ∧
        diagnostic ∈ (expression graph graph.ids feeding).notes :=
    exists_congr fun _ => and_congr_right fun draws => (mem_notes_fed wired draws.feeds).symm
  rw [drawn, Graph.exists_draws_iff found]
  unfold statement statementSockets
  cases StatementForm.of block.definition.id with
  | write => simp [mem_notes_operand wired found]
  | declare => simp [mem_notes_initialValue wired found]
  | assign => simp [mem_notes_operand wired found]
  | branch => simp [mem_notes_operand wired found]
  | loop => simp [mem_notes_operand wired found]
  | unknown => simp

theorem mem_notes_statements (ids : List String) :
    diagnostic ∈ (statements build graph ids).notes ↔
      ∃ id ∈ ids, ∃ block, graph.get? id = some block ∧ diagnostic ∈ (statement build graph id block).notes := by
  induction ids with
  | nil => simp [statements]
  | cons id rest ih =>
      simp only [statements, Built.notes_bind, Built.notes_pure, List.append_nil, List.mem_append, ih, List.mem_cons,
        exists_eq_or_imp, statementAt]
      refine or_congr ?_ Iff.rfl
      cases graph.get? id with
      | none => simp
      | some block => simp

end Build

theorem Graph.mem_notes_program {graph : Graph} {diagnostic : Diagnostic} (sequenced : graph.Sequenced) :
    diagnostic ∈ graph.program.notes ↔
      ∃ id block, graph.get? id = some block ∧ block.definition.isChainCapable = true ∧
        diagnostic ∈ (Build.statement (Build.expression graph graph.ids) graph id block).notes := by
  change diagnostic ∈ (Build.statements (Build.expression graph graph.ids) graph graph.chained).notes ↔ _
  simp only [Build.mem_notes_statements, sequenced.mem_chained_iff]
  constructor
  · rintro ⟨id, ⟨block, found, capable⟩, other, present, noted⟩
    rw [found] at present
    cases present
    exact ⟨id, block, found, capable, noted⟩
  · rintro ⟨id, block, found, capable, noted⟩
    exact ⟨id, ⟨block, found, capable⟩, block, found, noted⟩

end BlockCanvas
