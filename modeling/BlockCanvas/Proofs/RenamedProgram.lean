import BlockCanvas.Proofs.Notes
import BlockCanvas.Proofs.Renaming
import BlockCanvas.Proofs.Unambiguous
namespace BlockCanvas

namespace EvaluationOrder
variable (names : Renaming)

def rename (ordering : EvaluationOrder) : EvaluationOrder :=
  ⟨ordering.order.map names, ordering.residue.map names⟩

theorem firsts_rename (ids : List String) : firsts (ids.map names) = (firsts ids).map names := by
  induction ids with
  | nil => rfl
  | cons id rest ih => simp [firsts, ih, List.filter_map, Function.comp_def]

theorem lasts_rename (ids : List String) : lasts (ids.map names) = (lasts ids).map names := by
  induction ids with
  | nil => rfl
  | cons id rest ih =>
      by_cases again : id ∈ rest
      · simp [lasts, again, ih]
      · simp [lasts, again, ih]

theorem targets_rename (edges : List Edge) (id : String) :
    targets (edges.map (Prod.map names names)) (names id) = (targets edges id).map names := by
  simp [targets, List.filter_map, Function.comp_def]

theorem isFree_rename (edges : List Edge) (waiting : List String) (id : String) :
    isFree (edges.map (Prod.map names names)) (waiting.map names) (names id) = isFree edges waiting id := by
  simp only [isFree, List.all_map, Function.comp_def, Prod.map_fst, Prod.map_snd, ne_eq, names.injective.eq_iff,
    List.mem_map_of_injective names.injective]

theorem freed_rename (edges : List Edge) (id : String) (waiting : List String) :
    freed (edges.map (Prod.map names names)) (names id) (waiting.map names) = (freed edges id waiting).map names := by
  simp [freed, targets_rename, lasts_rename, List.filter_map, Function.comp_def, isFree_rename]

theorem drain_rename (edges : List Edge) (queue waiting : List String) :
    drain (edges.map (Prod.map names names)) (queue.map names) (waiting.map names) =
      (drain edges queue waiting).rename names := by
  fun_induction drain edges queue waiting with
  | case1 waiting =>
      rw [List.map_nil, drain]
      rfl
  | case2 waiting id rest present _ left later ih =>
      have listed : names id ∈ waiting.map names := List.mem_map_of_mem present
      rw [List.map_cons, drain, dif_pos listed]
      dsimp only
      rw [← List.map_erase names.injective, freed_rename, ← List.map_append, ih]
      rfl
  | case3 waiting id rest absent ih =>
      have unlisted : names id ∉ waiting.map names := by
        rwa [List.mem_map_of_injective names.injective]
      rw [List.map_cons, drain, dif_neg unlisted, ih]

theorem ofEdges_rename (ids : List String) (edges : List Edge) :
    ofEdges (ids.map names) (edges.map (Prod.map names names)) = (ofEdges ids edges).rename names := by
  have links : known ((firsts ids).map names) (edges.map (Prod.map names names)) =
      (known (firsts ids) edges).map (Prod.map names names) := by
    simp [known, List.filter_map, Function.comp_def]
  have queue : ((firsts ids).map names).filter
      (isFree ((known (firsts ids) edges).map (Prod.map names names)) ((firsts ids).map names)) =
      ((firsts ids).filter (isFree (known (firsts ids) edges) (firsts ids))).map names := by
    simp [List.filter_map, Function.comp_def, isFree_rename]
  unfold ofEdges
  dsimp only
  rw [firsts_rename, links, queue, drain_rename]

end EvaluationOrder

namespace Graph
variable (names : Renaming) (graph : Graph)

theorem dataEdges_rename : (graph.rename names).dataEdges = graph.dataEdges.map (Prod.map names names) := by
  simp [dataEdges, connections, Block.connections, rename, Block.rename, Table.values, Table.rename, Rows.rename,
    Table.map, Connection.rename, List.map_flatMap, List.flatMap_map, Function.comp_def]

theorem evaluationOrder_rename : (graph.rename names).evaluationOrder = graph.evaluationOrder.rename names := by
  rw [evaluationOrder, ids_rename, dataEdges_rename, EvaluationOrder.ofEdges_rename, evaluationOrder]

theorem walk_rename (unseen : List String) (id : String) :
    (graph.rename names).walk (unseen.map names) (names id) = (graph.walk unseen id).map names := by
  fun_induction walk graph unseen id with
  | case1 unseen id present _ ih =>
      have listed : names id ∈ unseen.map names := List.mem_map_of_mem present
      rw [walk, dif_pos listed, next_rename]
      cases graph.next.get? id with
      | none => rfl
      | some next =>
          dsimp only [Option.map_some]
          rw [← List.map_erase names.injective, ih next]
          rfl
  | case2 unseen id absent =>
      have unlisted : names id ∉ unseen.map names := by
        rwa [List.mem_map_of_injective names.injective]
      rw [walk, dif_neg unlisted, List.map_nil]

theorem roots_rename : (graph.rename names).roots = graph.roots.map names := by
  have same : ∀ id, (graph.rename names).previous.contains (names id) = graph.previous.contains id :=
    Table.contains_rename names names graph.previous
  have blocks : (graph.rename names).blocks.rows = graph.blocks.rows.map fun row => (names row.1, row.2.rename names) :=
    rfl
  simp [roots, blocks, List.filter_map, Function.comp_def, same, Block.rename]

theorem chained_rename : (graph.rename names).chained = graph.chained.map names := by
  have chains : ∀ id, (graph.rename names).chain (names id) = (graph.chain id).map names := by
    intro id
    rw [chain, ids_rename, walk_rename, chain]
  simp [chained, roots_rename, List.flatMap_map, List.map_flatMap, chains]

end Graph

namespace Node

mutual

-- The tree of the same program after its blocks got new names.
def rename (names : Renaming) : Node → Node
  | .absent => .absent
  | .literal value type block => .literal value type (block.map names)
  | .identifier name block => .identifier name (block.map names)
  | .read prompt block => .read prompt (block.map names)
  | .binary symbol left right block => .binary symbol (left.rename names) (right.rename names) (block.map names)
  | .declare name initial block => .declare name (initial.rename names) (block.map names)
  | .assign name value block => .assign name (value.rename names) (block.map names)
  | .write value block => .write (value.rename names) (block.map names)
  | .branch condition consequent alternate block =>
      .branch (condition.rename names) (renameAll names consequent) (renameAlternate names alternate) (block.map names)
  | .loop condition body block => .loop (condition.rename names) (renameAll names body) (block.map names)

def renameAll (names : Renaming) : List Node → List Node
  | [] => []
  | node :: rest => node.rename names :: renameAll names rest

def renameAlternate (names : Renaming) : Option (List Node) → Option (List Node)
  | none => none
  | some nodes => some (renameAll names nodes)

end

theorem renameAll_append (names : Renaming) (first second : List Node) :
    renameAll names (first ++ second) = renameAll names first ++ renameAll names second := by
  induction first with
  | nil => rfl
  | cons node rest ih => rw [List.cons_append, renameAll, ih, renameAll, List.cons_append]

mutual

-- No name of a block is ever written.
theorem bare_rename (names : Renaming) : ∀ node : Node, (node.rename names).bare = node.bare
  | .absent => rfl
  | .literal .. => rfl
  | .identifier .. => rfl
  | .read .. => rfl
  | .binary symbol left right block => by
      rw [rename, bare, bare, bare_rename names left, bare_rename names right]
  | .declare name initial block => by rw [rename, bare, bare, bare_rename names initial]
  | .assign name value block => by rw [rename, bare, bare, bare_rename names value]
  | .write value block => by rw [rename, bare, bare, bare_rename names value]
  | .branch condition consequent alternate block => by
      rw [rename, bare, bare, bare_rename names condition, bareAll_rename names consequent,
        bareAlternate_rename names alternate]
  | .loop condition body block => by
      rw [rename, bare, bare, bare_rename names condition, bareAll_rename names body]

theorem bareAll_rename (names : Renaming) : ∀ nodes : List Node, bareAll (renameAll names nodes) = bareAll nodes
  | [] => rfl
  | node :: rest => by rw [renameAll, bareAll, bareAll, bare_rename names node, bareAll_rename names rest]

theorem bareAlternate_rename (names : Renaming) : ∀ alternate : Option (List Node),
    bareAlternate (renameAlternate names alternate) = bareAlternate alternate
  | none => rfl
  | some [] => rfl
  | some (node :: rest) => by
      rw [renameAlternate, renameAll, bareAlternate, bareAlternate, bare_rename names node, bareAll_rename names rest]

end

mutual

theorem fits_rename (names : Renaming) : ∀ node : Node, (node.rename names).fits = node.fits
  | .absent => rfl
  | .literal .. => rfl
  | .identifier .. => rfl
  | .read .. => rfl
  | .binary symbol left right block => by
      rw [rename, fits, fits, fits_rename names left, fits_rename names right]
  | .declare name initial block => by rw [rename, fits, fits, fits_rename names initial]
  | .assign name value block => by rw [rename, fits, fits, fits_rename names value]
  | .write value block => by rw [rename, fits, fits, fits_rename names value]
  | .branch condition consequent alternate block => by
      rw [rename, fits, fits, fits_rename names condition, allFit_rename names consequent,
        alternateFits_rename names alternate]
  | .loop condition body block => by rw [rename, fits, fits, fits_rename names condition, allFit_rename names body]

theorem allFit_rename (names : Renaming) : ∀ nodes : List Node, allFit (renameAll names nodes) = allFit nodes
  | [] => rfl
  | node :: rest => by rw [renameAll, allFit, allFit, fits_rename names node, allFit_rename names rest]

theorem alternateFits_rename (names : Renaming) : ∀ alternate : Option (List Node),
    alternateFits (renameAlternate names alternate) = alternateFits alternate
  | none => rfl
  | some nodes => by rw [renameAlternate, alternateFits, alternateFits, allFit_rename names nodes]

end

end Node

def Event.rename (names : Renaming) : Event → Event
  | .noted diagnostic => .noted (diagnostic.rename names)
  | event => event

theorem Event.stop?_rename (names : Renaming) (room : Nat) (event : Event) :
    (event.rename names).stop? room = event.stop? room := by
  cases event <;> rfl

theorem Event.deeper_rename (names : Renaming) (event : Event) :
    (event.rename names).deeper = event.deeper.rename names := by
  cases event <;> rfl

namespace Built
variable {α β γ δ : Type} (names : Renaming)

def rename (change : α → β) (built : Built α) : Built β :=
  ⟨change built.value, built.trace.map (Event.rename names)⟩

theorem value_rename (change : α → β) (built : Built α) : (built.rename names change).value = change built.value := rfl

theorem bind_rename {change : α → β} {later : γ → δ} {next : α → Built γ} {nextToo : β → Built δ}
    (same : ∀ value, nextToo (change value) = (next value).rename names later) (built : Built α) :
    (built.rename names change >>= nextToo) = (built >>= next).rename names later := by
  change (⟨(nextToo (change built.value)).value, _ ++ (nextToo (change built.value)).trace⟩ : Built δ) = _
  rw [same]
  simp [rename]

theorem deepened_rename (change : α → β) (built : Built α) :
    (built.rename names change).deepened = built.deepened.rename names change := by
  simp only [deepened, rename, List.map_cons, List.map_map, Function.comp_def, Event.deeper_rename]
  rfl

theorem notes_rename (change : α → β) (built : Built α) :
    (built.rename names change).notes = built.notes.map (Diagnostic.rename names) := by
  have each : ∀ event : Event, (event.rename names).note? = event.note?.map (Diagnostic.rename names) := by
    intro event
    cases event <;> rfl
  simp only [notes, rename, List.filterMap_map, Function.comp_def, each, List.map_filterMap]

end Built

namespace Build
variable (names : Renaming) (graph : Graph) (id : String) (block : Block)

theorem variableName_rename : variableName (block.rename names) = variableName block := rfl

theorem given?_rename (socket : String) : (block.rename names).given? socket = block.given? socket := rfl

theorem literal_rename (value : Value) : literal (names id) value = (literal id value).rename names := by
  cases value <;> rfl

theorem source_rename (socket : String) :
    source (graph.rename names) (names id) (block.rename names) socket =
      (source graph id block socket : Built (Option String)).rename names (Option.map names) := by
  have stored : (block.rename names).inputs.get? socket = (block.inputs.get? socket).map (Connection.rename names) :=
    Table.get?_map _ block.inputs socket
  unfold source
  rw [stored]
  cases block.inputs.get? socket with
  | none => rfl
  | some connection =>
      have present : (graph.rename names).contains (connection.rename names).source =
          graph.contains connection.source := Graph.contains_rename names graph connection.source
      simp only [Option.map_some, present]
      split <;> rfl

-- A way of building expressions that goes along with the renaming.
def Follows (build buildToo : String → Built Node) : Prop :=
  ∀ id, buildToo (names id) = (build id).rename names (Node.rename names)

variable {names} {build buildToo : String → Built Node}

theorem operand_rename (follows : Follows names build buildToo) (socket : String) (default : Value) :
    operand buildToo (graph.rename names) (names id) (block.rename names) socket default =
      (operand build graph id block socket default).rename names (Node.rename names) := by
  unfold operand
  rw [source_rename]
  apply Built.bind_rename
  intro found
  cases found with
  | some feeding => exact follows feeding
  | none =>
      dsimp only [Option.map_none]
      rw [given?_rename, literal_rename]
      rfl

theorem promptOf_rename (node : Node) : promptOf (node.rename names) = promptOf node := by
  cases node <;> rfl

theorem readNode_rename (follows : Follows names build buildToo) :
    readNode buildToo (graph.rename names) (names id) (block.rename names) =
      (readNode build graph id block).rename names (Node.rename names) := by
  unfold readNode
  rw [source_rename]
  apply Built.bind_rename
  intro found
  cases found with
  | none =>
      have same : storedPrompt (block.rename names) = storedPrompt block := rfl
      dsimp only [Option.map_none]
      rw [same]
      cases storedPrompt block <;> rfl
  | some feeding =>
      dsimp only [Option.map_some]
      rw [follows feeding]
      apply Built.bind_rename
      intro inner
      rw [promptOf_rename]
      cases promptOf inner <;> rfl

theorem operationNode_rename (follows : Follows names build buildToo) (operator : Option Operator) :
    operationNode buildToo (graph.rename names) (names id) (block.rename names) operator =
      (operationNode build graph id block operator).rename names (Node.rename names) := by
  have chosen : (chosenOperator (names id) (block.rename names) operator : Built Operator) =
      (chosenOperator id block operator : Built Operator).rename names fun chosen => chosen := by
    cases operator <;> rfl
  unfold operationNode
  rw [chosen, operand_rename graph id block follows, operand_rename graph id block follows]
  apply Built.bind_rename
  intro operator
  apply Built.bind_rename
  intro left
  apply Built.bind_rename
  intro right
  rfl

theorem formNode_rename (follows : Follows names build buildToo) :
    formNode buildToo (graph.rename names) (names id) (block.rename names) =
      (formNode build graph id block).rename names (Node.rename names) := by
  unfold formNode
  dsimp only [Block.rename]
  cases ExpressionForm.of block.definition.id with
  | read => exact readNode_rename graph id block follows
  | lookup => rfl
  | literal default => exact congrArg pure (literal_rename names id _)
  | operation operator => exact operationNode_rename graph id block follows operator
  | unknown => exact congrArg (fun node => (⟨node, _⟩ : Built Node)) (literal_rename names id _)

theorem expression_rename (opened : List String) (id : String) :
    expression (graph.rename names) (opened.map names) (names id) =
      (expression graph opened id).rename names (Node.rename names) := by
  induction size : opened.length using Nat.strong_induction_on generalizing opened id with
  | _ size ih =>
    rw [expression, expression, ← Built.deepened_rename, Graph.get?_rename]
    congr 1
    cases graph.get? id with
    | none => rfl
    | some block =>
        by_cases present : id ∈ opened
        · have listed : names id ∈ opened.map names := List.mem_map_of_mem present
          simp only [Option.map_some, listed, present, dite_true, ← List.map_erase names.injective]
          exact formNode_rename graph id block fun inner =>
            ih (opened.erase id).length (size ▸ length_erase_lt present) _ inner rfl
        · have unlisted : names id ∉ opened.map names := by
            rwa [List.mem_map_of_injective names.injective]
          simp only [Option.map_some, unlisted, present, dite_false]
          rfl

theorem expression_follows : Follows names (expression graph graph.ids)
    (expression (graph.rename names) (graph.rename names).ids) := by
  intro id
  rw [Graph.ids_rename]
  exact expression_rename graph graph.ids id

theorem initialValue_rename (follows : Follows names build buildToo) :
    initialValue buildToo (graph.rename names) (names id) (block.rename names) =
      (initialValue build graph id block).rename names (Node.rename names) := by
  unfold initialValue
  rw [source_rename]
  apply Built.bind_rename
  intro found
  cases found with
  | some feeding => exact follows feeding
  | none =>
      dsimp only [Option.map_none]
      rw [given?_rename]
      split
      · rfl
      · rfl
      · exact congrArg pure (literal_rename names id _)

theorem statement_rename (follows : Follows names build buildToo) :
    statement buildToo (graph.rename names) (names id) (block.rename names) =
      (statement build graph id block).rename names (Node.renameAll names) := by
  unfold statement
  simp only [operand_rename graph id block follows, initialValue_rename graph id block follows, variableName_rename]
  dsimp only [Block.rename]
  cases StatementForm.of block.definition.id with
  | unknown => rfl
  | _ =>
      apply Built.bind_rename
      intro node
      rfl

theorem statements_rename (follows : Follows names build buildToo) (ids : List String) :
    statements buildToo (graph.rename names) (ids.map names) =
      (statements build graph ids).rename names (Node.renameAll names) := by
  induction ids with
  | nil => rfl
  | cons id rest ih =>
      have first : statementAt buildToo (graph.rename names) (names id) =
          (statementAt build graph id).rename names (Node.renameAll names) := by
        unfold statementAt
        rw [Graph.get?_rename]
        cases graph.get? id with
        | none => rfl
        | some block => exact statement_rename graph id block follows
      rw [List.map_cons, statements, statements, first, ih]
      apply Built.bind_rename
      intro nodes
      apply Built.bind_rename
      intro others
      exact congrArg pure (Node.renameAll_append names nodes others).symm

end Build

namespace Graph
variable (names : Renaming) (graph : Graph)

theorem program_rename : (graph.rename names).program = graph.program.rename names (Node.renameAll names) := by
  have chains := graph.chained_rename names
  rw [chained, chained] at chains
  rw [program, chains, Build.statements_rename graph (Build.expression_follows graph), program]

theorem cycleNotes_rename (ordering : EvaluationOrder) :
    cycleNotes (ordering.rename names) = (cycleNotes ordering).map (Diagnostic.rename names) := by
  have same : (ordering.rename names).isComplete = ordering.isComplete := by
    simp [EvaluationOrder.isComplete, EvaluationOrder.rename]
  unfold cycleNotes
  rw [same]
  split <;> rfl

theorem artifact_rename (unit : String) :
    (graph.rename names).artifact unit = ⟨(graph.artifact unit).code,
      (graph.artifact unit).diagnostics.map (Diagnostic.rename names), (graph.artifact unit).order.map names⟩ := by
  have page : Source.page unit (graph.rename names).program.value = Source.page unit graph.program.value := by
    rw [program_rename, Built.value_rename, ← Source.page_bare unit graph.program.value, ← Node.bareAll_rename names,
      Source.page_bare]
  have notes : (graph.rename names).program.notes = graph.program.notes.map (Diagnostic.rename names) := by
    rw [program_rename, Built.notes_rename]
  simp only [artifact, page, notes, evaluationOrder_rename, cycleNotes_rename, List.map_append]
  rfl

-- Both are compiled, or both are stopped by the same error.
theorem failure?_rename (room : Nat) :
    ((graph.rename names).failure? room).map Logged.value = (graph.failure? room).map Logged.value := by
  have stops : (graph.rename names).program.trace.findSome? (Event.stop? room) =
      graph.program.trace.findSome? (Event.stop? room) := by
    rw [program_rename, Built.rename, List.findSome?_map]
    exact congrArg (List.findSome? · graph.program.trace) (funext (Event.stop?_rename names room))
  have short : Node.allFit (graph.rename names).program.value = Node.allFit graph.program.value := by
    rw [program_rename, Built.value_rename, Node.allFit_rename]
  rw [failure?, failure?, stops, short]
  cases graph.program.trace.findSome? (Event.stop? room) with
  | some error => simp only [Option.map_some]
  | none => cases Node.allFit graph.program.value <;> simp

end Graph

section Records
variable {catalog : Catalog} {room : Nat} {unit : String} {records : List BlockRecord}

theorem compileRecords_of_restore {restored : Graph.Restoring} (accepted : Graph.restore catalog records = .ok restored) :
    compileRecords catalog room unit records = match restored.graph.failure? room with
      | some failure => .error ⟨failure.value, Graph.restoreLog restored.notes ++ failure.log⟩
      | none => .ok ⟨{ restored.graph.artifact unit with
          diagnostics := restored.notes ++ (restored.graph.artifact unit).diagnostics },
          Graph.restoreLog restored.notes ++ restored.graph.compileLog⟩ := by
  rw [compileRecords, accepted]
  simp only [Graph.compile_eq]
  cases restored.graph.failure? room <;> rfl

-- Records that share an identity are not compiled at all.
theorem compileRecords_of_shared (shared : ¬ (records.map BlockRecord.id).Nodup) :
    compileRecords catalog room unit records =
      .error ⟨.refused (.repeated (Graph.repeatedIds (records.map BlockRecord.id))), []⟩ := by
  rw [compileRecords, Graph.restore_eq_error_iff.mpr ⟨shared, rfl⟩]

end Records

-- How blocks are called does not matter to the program that comes out.
theorem compile_renamed (catalog : Catalog) (room : Nat) (unit : String) (records : List BlockRecord)
    (names : Renaming) :
    ((∃ failure, compileRecords catalog room unit (records.map (BlockRecord.rename names)) = .error failure) ↔
      ∃ failure, compileRecords catalog room unit records = .error failure) ∧
    ∀ compiled, compileRecords catalog room unit records = .ok compiled →
      ∃ renamed, compileRecords catalog room unit (records.map (BlockRecord.rename names)) = .ok renamed ∧
        renamed.value.code = compiled.value.code ∧
        renamed.value.order = compiled.value.order.map names ∧
        renamed.value.diagnostics.length = compiled.value.diagnostics.length := by
  by_cases distinct : (records.map BlockRecord.id).Nodup
  · obtain ⟨restored, before, after⟩ := Graph.restore_rename names catalog distinct
    have same := restored.graph.failure?_rename names room
    rw [compileRecords_of_restore before, compileRecords_of_restore after]
    simp only [Graph.Restoring.rename, Graph.artifact_rename]
    cases one : restored.graph.failure? room with
    | none =>
        rw [one, Option.map_none, Option.map_eq_none_iff] at same
        rw [same]
        refine ⟨by simp, ?_⟩
        rintro _ ⟨⟩
        exact ⟨_, rfl, rfl, rfl, by simp⟩
    | some failure =>
        rw [one, Option.map_some, Option.map_eq_some_iff] at same
        obtain ⟨failureToo, two, _⟩ := same
        rw [two]
        refine ⟨by simp, ?_⟩
        rintro _ ⟨⟩
  · have shared : ¬ ((records.map (BlockRecord.rename names)).map BlockRecord.id).Nodup := by
      rwa [Graph.ids_rename_records, List.nodup_map_iff names.injective]
    rw [compileRecords_of_shared distinct, compileRecords_of_shared shared]
    refine ⟨by simp, ?_⟩
    rintro _ ⟨⟩

def numbered : Renaming := ⟨fun id => "no. " ++ id, fun _ _ same => (String.append_right_inj _).mp same⟩

-- A link leads nowhere and a connection comes from a block of no known kind.
def strayRecords : List BlockRecord :=
  [⟨"a", "io.write", Position.zero, Table.empty, [⟨"t", "a", "value"⟩], some "lost", none⟩,
    ⟨"b", "var.set", Position.zero, Table.empty, [⟨"u", "b", "value"⟩], none, some "a"⟩,
    ⟨"t", "literal.text", Position.zero, Table.ofRows [("value", .text "oi")], [], none, none⟩,
    ⟨"u", "unheard.of", Position.zero, Table.empty, [], none, none⟩]

theorem compile_renamed_stray :
    (Graph.restore Catalog.builtin strayRecords).map
        (fun restored => (restored.notes.length, restored.graph.evaluationOrder.order)) = .ok (3, ["b", "t", "a"]) ∧
    ∃ compiled renamed, compileRecords Catalog.builtin Builder.usualRoom "  " strayRecords = .ok compiled ∧
      compileRecords Catalog.builtin Builder.usualRoom "  " (strayRecords.map (BlockRecord.rename numbered)) =
        .ok renamed ∧
      renamed.value.code = compiled.value.code ∧ renamed.value.order = compiled.value.order.map numbered ∧
      renamed.value.diagnostics.length = compiled.value.diagnostics.length := by
  have restored : Graph.restore Catalog.builtin strayRecords = .ok (.ofRecords Catalog.builtin strayRecords) :=
    Graph.restore_of_distinct (by decide)
  have clear : (Graph.Restoring.ofRecords Catalog.builtin strayRecords).graph.failure? Builder.usualRoom = none := by cbv
  have compiled : compileRecords Catalog.builtin Builder.usualRoom "  " strayRecords = _ :=
    compileRecords_of_restore restored
  rw [clear] at compiled
  obtain ⟨renamed, same⟩ := (compile_renamed Catalog.builtin Builder.usualRoom "  " strayRecords numbered).2 _ compiled
  exact ⟨by cbv, _, renamed, compiled, same⟩

end BlockCanvas
