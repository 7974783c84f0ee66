import BlockCanvas.Proofs.Notes
namespace BlockCanvas

-- The definitions that stand for a statement, with the kind of statement.
def statementKinds : List (String × String) :=
  [("io.write", "WriteStatement"), ("var.declare", "VariableDeclaration"), ("var.set", "Assignment"),
    ("control.if", "IfStatement"), ("control.while", "WhileLoop")]

def Diagnostic.isSkipped : Diagnostic → Bool
  | .build _ _ .unknownStatement => true
  | _ => false

namespace Graph
variable {graph : Graph} {id : String} {block : Block}

-- What a block of a chain becomes: a statement of its own or a note that it was skipped.

def statementAt? (graph : Graph) (id : String) : Option (String × Option String) :=
  (graph.definition? id).bind fun definition =>
    (Rows.find? definition.id statementKinds).map fun kind => (kind, some id)

def skippedAt? (graph : Graph) (id : String) : Option Diagnostic :=
  (graph.definition? id).bind fun definition =>
    if definition.id ∈ Rows.keys statementKinds then none
    else some (.build id definition.id .unknownStatement)

-- The chains hold every block that can stand in one, and each becomes one statement or one note.
structure Sequential (graph : Graph) : Prop where
  distinct : (graph.roots.flatMap graph.chain).Nodup
  complete : ∀ id, id ∈ graph.roots.flatMap graph.chain ↔
    ∃ block, graph.get? id = some block ∧ block.definition.isChainCapable = true
  built : graph.Builds fun program notes =>
    program.map (fun node => (node.kind, node.block?)) = (graph.roots.flatMap graph.chain).filterMap graph.statementAt? ∧
      notes.filter Diagnostic.isSkipped = (graph.roots.flatMap graph.chain).filterMap graph.skippedAt?

end Graph

def StatementForm.kind? : StatementForm → Option String
  | .write => some "WriteStatement"
  | .declare => some "VariableDeclaration"
  | .assign => some "Assignment"
  | .branch => some "IfStatement"
  | .loop => some "WhileLoop"
  | .unknown => none

theorem StatementForm.kind?_of (name : String) :
    (StatementForm.of name).kind? = Rows.find? name statementKinds := by
  unfold StatementForm.of
  repeat' split
  all_goals simp_all [kind?, Rows.find?, statementKinds, eq_comm]

theorem StatementForm.of_eq_unknown_iff {name : String} :
    StatementForm.of name = .unknown ↔ name ∉ Rows.keys statementKinds := by
  rw [← Rows.find?_eq_none_iff, ← kind?_of]
  cases StatementForm.of name <;> simp [kind?]

namespace Build
variable {graph : Graph} {block : Block} {id : String} {build : String → Built Node}

theorem statement_shown (found : graph.get? id = some block) :
    (statement build graph id block).value.map (fun node => (node.kind, node.block?)) =
      (graph.statementAt? id).toList := by
  have looked : graph.statementAt? id = (StatementForm.of block.definition.id).kind?.map fun kind => (kind, some id) := by
    rw [StatementForm.kind?_of, Graph.statementAt?, Graph.definition?_of_get? found]
    rfl
  rw [looked]
  unfold statement
  cases StatementForm.of block.definition.id <;> rfl

-- Only the statement itself can be skipped: no expression below it is noted so.
theorem statement_skipped (wired : graph.Wired) (found : graph.get? id = some block) :
    (statement (expression graph graph.ids) graph id block).notes.filter Diagnostic.isSkipped = (graph.skippedAt? id).toList := by
  rw [Graph.skippedAt?, Graph.definition?_of_get? found, Option.bind_some]
  by_cases listed : block.definition.id ∈ Rows.keys statementKinds
  · rw [if_pos listed, Option.toList_none, List.filter_eq_nil_iff]
    intro diagnostic noted
    rcases (mem_notes_statement wired found).mp noted with ⟨unknown, _⟩ | ⟨_, _, above⟩
    · exact absurd listed (StatementForm.of_eq_unknown_iff.mp unknown)
    · obtain ⟨_, _, _, _, _, reports, rfl⟩ := above
      rcases reports.form with ⟨rfl, _⟩ | ⟨rfl, _⟩ | ⟨rfl, _⟩ <;> simp [Diagnostic.isSkipped]
  · rw [if_neg listed]
    unfold statement
    rw [StatementForm.of_eq_unknown_iff.mpr listed]
    rfl

theorem statements_shown (build : String → Built Node) (graph : Graph) (ids : List String) :
    (statements build graph ids).value.map (fun node => (node.kind, node.block?)) = ids.filterMap graph.statementAt? := by
  induction ids with
  | nil => rfl
  | cons id rest ih =>
      simp only [statements, statementAt, Built.value_bind, Built.value_pure, List.map_append, ih, List.filterMap_cons]
      cases found : graph.get? id with
      | none => simp [Graph.statementAt?, Graph.definition?, found]
      | some block =>
          rw [statement_shown found]
          cases graph.statementAt? id <;> rfl

theorem statements_skipped (wired : graph.Wired) (ids : List String) :
    (statements (expression graph graph.ids) graph ids).notes.filter Diagnostic.isSkipped = ids.filterMap graph.skippedAt? := by
  induction ids with
  | nil => rfl
  | cons id rest ih =>
      simp only [statements, statementAt, Built.notes_bind, Built.notes_pure, List.append_nil, List.filter_append, ih,
        List.filterMap_cons]
      cases found : graph.get? id with
      | none => simp [Graph.skippedAt?, Graph.definition?, found]
      | some block =>
          rw [statement_skipped wired found]
          cases graph.skippedAt? id <;> rfl

end Build

variable {catalog : Catalog} {canvas : Canvas}

theorem reached_sequential (path : Reached catalog canvas) : canvas.graph.Sequential :=
  have sequenced := path.grown.sequenced
  { distinct := sequenced.chained_nodup
    complete := fun _ => sequenced.mem_chained_iff
    built := Graph.builds_of ⟨Build.statements_shown _ canvas.graph _, Build.statements_skipped path.grown.wired _⟩ }

-- A definition that can stand in a chain and that no statement is known for.
def pauseCatalog : Catalog :=
  Catalog.builtin.insert
    { id := "control.pause", category := .control, kind := .control, label := "pausa", hasNext := true,
      hasPrevious := true }

-- A chain of three, linked against the order in which its blocks were made, and a block on its own.
def pauseCommands : List Command :=
  [.create "io.write" none, .create "control.pause" none, .create "var.set" none, .create "var.get" none,
    .create "control.if" none, .setNext "gen-3" (some "gen-1"), .setNext "gen-1" (some "gen-2")]

def pausedProgram : List Node :=
  [.assign "variavel" (.literal (.int 0) .number (some "gen-3")) (some "gen-3"),
    .write (.literal (.text "") .text (some "gen-1")) (some "gen-1"),
    .branch (.literal (.bool true) .boolean (some "gen-5")) [] none (some "gen-5")]

def pauseSkipped : Diagnostic := .build "gen-2" "control.pause" .unknownStatement

theorem reached_sequential_pause :
    (Canvas.run pauseCatalog pauseCommands).graph.Sequential ∧
      (Canvas.run pauseCatalog pauseCommands).graph.chained = ["gen-3", "gen-1", "gen-2", "gen-5"] ∧
      ∃ after, after.notes = [pauseSkipped] ∧
        Builder.program Builder.usualRoom (Canvas.run pauseCatalog pauseCommands).graph ⟨[], [], []⟩ =
          .ok pausedProgram after := by
  have path : Reached pauseCatalog (Canvas.run pauseCatalog pauseCommands) :=
    reached_run (by simp [pauseCommands, Command.Known])
  refine ⟨reached_sequential path, by cbv, Visit.after ⟨[], [], []⟩ [pauseSkipped], rfl, ?_⟩
  have built : (Canvas.run pauseCatalog pauseCommands).graph.program = ⟨pausedProgram, [.noted pauseSkipped]⟩ := by cbv
  rw [Builder.program_eq, built]
  rfl

end BlockCanvas
