import BlockCanvas.Proofs.Deletion
import BlockCanvas.Proofs.Diagnostics
import BlockCanvas.Proofs.Reading
import BlockCanvas.Proofs.TreeOrder
namespace BlockCanvas
open Relation

theorem Built.bind_congr {α β : Type} {built : Built α} {first second : α → Built β}
    (same : first built.value = second built.value) : built >>= first = built >>= second := by
  change Built.mk (first built.value).value (built.trace ++ (first built.value).trace) = _
  rw [same]
  rfl

namespace Graph
variable {graph changed left right : Graph} {id other source target : String} {block : Block}

-- Data of the block come to a block that can stand in a chain, or it is one itself.
def Used (graph : Graph) (id : String) : Prop :=
  ∃ goal, ReflTransGen graph.Feeds id goal ∧ graph.IsChainCapable goal

theorem Used.of_feeds (used : graph.Used target) (feeds : graph.Feeds source target) : graph.Used source := by
  obtain ⟨goal, way, capable⟩ := used
  exact ⟨goal, .head feeds way, capable⟩

theorem IsChainCapable.used (capable : graph.IsChainCapable id) : graph.Used id := ⟨id, .refl, capable⟩

theorem Used.ne (used : graph.Used other) (unused : ¬ graph.Used id) : id ≠ other := by
  rintro rfl
  exact unused used

-- The two graphs have the same block at every id of which the program of the first can tell.
def Agrees (left right : Graph) : Prop :=
  ∀ id, left.Used id → left.get? id = right.get? id

end Graph

namespace Build
variable {left right : Graph} {id socket : String} {block : Block} {default : Value}
  {build buildToo : String → Built Node}

section Agreeing
variable (agrees : left.Agrees right) (used : left.Used id) (found : left.get? id = some block)
include agrees used found

theorem source_agrees (socket : String) :
    (source left id block socket : Built (Option String)) = source right id block socket := by
  unfold source
  cases stored : block.inputs.get? socket with
  | none => rfl
  | some connection =>
      have fed : left.Used connection.source := used.of_feeds ⟨block, socket, connection, found, stored, rfl⟩
      have same : left.contains connection.source = right.contains connection.source :=
        congrArg Option.isSome (agrees connection.source fed)
      simp only [same]

theorem bind_source_agrees {first second : Option String → Built Node} (socket : String) (free : first none = second none)
    (fed : ∀ feeding, left.Used feeding → first (some feeding) = second (some feeding)) :
    source left id block socket >>= first = source right id block socket >>= second := by
  rw [← source_agrees agrees used found]
  apply Built.bind_congr
  cases given : (source left id block socket : Built (Option String)).value with
  | none => exact free
  | some feeding => exact fed feeding (used.of_feeds (feeds_of_source found given))

variable (inner : ∀ feeding, left.Used feeding → build feeding = buildToo feeding)
include inner

theorem operand_agrees (socket : String) (default : Value) :
    operand build left id block socket default = operand buildToo right id block socket default :=
  bind_source_agrees agrees used found socket rfl inner

theorem readNode_agrees : readNode build left id block = readNode buildToo right id block := by
  refine bind_source_agrees agrees used found "prompt" rfl ?_
  intro feeding fed
  dsimp only
  rw [inner feeding fed]

theorem formNode_agrees : formNode build left id block = formNode buildToo right id block := by
  unfold formNode
  cases ExpressionForm.of block.definition.id with
  | read => exact readNode_agrees agrees used found inner
  | lookup => rfl
  | literal default => rfl
  | operation operator => simp only [operationNode, operand_agrees agrees used found inner]
  | unknown => rfl

theorem statement_agrees : statement build left id block = statement buildToo right id block := by
  have initial : initialValue build left id block = initialValue buildToo right id block :=
    bind_source_agrees agrees used found "value" rfl inner
  simp only [statement, operand_agrees agrees used found inner, initial]

end Agreeing

-- The open blocks may differ where nothing used can be among them. Each list is without repetitions, so that a block
-- once closed is closed in both.
theorem expression_agrees (agrees : left.Agrees right) {opened openedToo : List String} (distinct : opened.Nodup)
    (distinctToo : openedToo.Nodup) (same : ∀ id, left.Used id → (id ∈ opened ↔ id ∈ openedToo))
    (used : left.Used id) : expression left opened id = expression right openedToo id := by
  induction size : opened.length using Nat.strong_induction_on generalizing opened openedToo id with
  | _ size ih =>
    rw [expression, expression, ← agrees id used]
    congr 1
    cases found : left.get? id with
    | none => rfl
    | some block =>
        by_cases listed : id ∈ opened
        · have listedToo : id ∈ openedToo := (same id used).mp listed
          simp only [listed, listedToo, dite_true]
          apply formNode_agrees agrees used found
          intro feeding fed
          refine ih (opened.erase id).length (size ▸ length_erase_lt listed) (distinct.erase id) (distinctToo.erase id)
            ?_ fed rfl
          intro other member
          rw [distinct.mem_erase_iff, distinctToo.mem_erase_iff, same other member]
        · have unlistedToo : id ∉ openedToo := mt (same id used).mpr listed
          simp only [listed, unlistedToo, dite_false]

theorem expression_ids_agrees (agrees : left.Agrees right) (used : left.Used id) :
    expression left left.ids id = expression right right.ids id := by
  apply expression_agrees agrees left.ids_nodup right.ids_nodup _ used
  intro other member
  rw [Graph.mem_ids_iff, Graph.mem_ids_iff, agrees other member]

theorem statements_agrees (agrees : left.Agrees right) {ids : List String} (used : ∀ id ∈ ids, left.Used id) :
    statements (expression left left.ids) left ids = statements (expression right right.ids) right ids := by
  induction ids with
  | nil => rfl
  | cons id rest ih =>
      obtain ⟨here, later⟩ := List.forall_mem_cons.mp used
      simp only [statements, statementAt, ih later, ← agrees id here]
      cases found : left.get? id with
      | none => rfl
      | some block =>
          simp only [statement_agrees agrees here found fun _ fed => expression_ids_agrees agrees fed]

end Build

namespace Graph
variable {catalog : Catalog} {graph changed left right : Graph} {id other source target : String} {block : Block}

theorem Agrees.program (agrees : left.Agrees right) (sequenced : Sequenced left) (chained : left.chained = right.chained) :
    left.program = right.program := by
  have used : ∀ id ∈ left.chained, left.Used id := fun _ member => (sequenced.mem_chained_iff.mp member).used
  change Build.statements (Build.expression left left.ids) left left.chained =
    Build.statements (Build.expression right right.ids) right right.chained
  rw [← chained, Build.statements_agrees agrees used]

-- Editing a block that is not used.

theorem agrees_change {edit : Block → Block} (unused : ¬ graph.Used id) : graph.Agrees (graph.change id edit) := by
  intro other used
  rw [get?_change, if_neg (used.ne unused)]

theorem chained_change {edit : Block → Block} (same : ∀ block, (edit block).definition = block.definition) :
    (graph.change id edit).chained = graph.chained := by
  have roots : (graph.change id edit).roots = graph.roots := by
    rw [roots_eq, roots_eq, ids_change, definition?_change same]
    rfl
  have chain : (graph.change id edit).chain = graph.chain := by
    have links : ∀ start, (graph.change id edit).next.get? start = graph.next.get? start := fun _ => rfl
    funext start
    rw [Graph.chain, Graph.chain, ids_change, walk_congr links]
  rw [chained, chained, roots, chain]

-- Taking out a block that is not used.

theorem agrees_delete (unused : ¬ graph.Used id) : graph.Agrees (graph.delete id) := by
  intro other used
  rw [get?_delete, if_neg (used.ne unused)]
  cases found : graph.get? other with
  | none => rfl
  | some block =>
      have whole : block.inputs.rows.filter (fun row => row.2.source ≠ id) = block.inputs.rows := by
        apply List.filter_eq_self.mpr
        intro row member
        have stored := Table.mem_rows_iff.mp member
        have different : row.2.source ≠ id := by
          intro given
          exact unused (used.of_feeds ⟨block, row.1, row.2, found, stored, given⟩)
        simpa using different
      have kept : block.dropSource id = block := by
        have inputs : (block.inputs.filter fun connection => connection.source ≠ id) = block.inputs := Table.ext whole
        rw [Block.dropSource, inputs]
      rw [Option.map_some, kept]

theorem Sequenced.linkless (valid : Sequenced graph) (loose : ¬ graph.IsChainCapable id) :
    graph.next.get? id = none ∧ graph.previous.get? id = none := by
  constructor
  · apply Option.eq_none_iff_forall_not_mem.mpr
    intro next follows
    exact loose (valid.capable_first follows)
  · apply Option.eq_none_iff_forall_not_mem.mpr
    intro before behind
    exact loose (valid.capable_second ((valid.inverse before id).mpr behind))

theorem Sequenced.chained_delete (valid : Sequenced graph) (loose : ¬ graph.IsChainCapable id) :
    (graph.delete id).chained = graph.chained := by
  obtain ⟨last, first⟩ := valid.linkless loose
  have previous : (graph.delete id).previous = graph.previous := by
    change (graph.spliceOut id).previous = graph.previous
    simp only [Graph.spliceOut, first, unlinkNext_eq_self last]
  have roots : (graph.delete id).roots = graph.roots := by
    rw [roots_eq, roots_eq, ids_delete, List.filter_filter, previous]
    apply List.filter_congr
    intro other _
    by_cases same : other = id
    · subst other
      have plain : (graph.definition? id).any Definition.isChainCapable = false := by
        cases found : graph.get? id with
        | none => simp [definition?, found]
        | some block =>
            rw [definition?_of_get? found, Option.any_some, Bool.eq_false_iff]
            exact fun capable => loose ⟨block, found, capable⟩
      simp [plain]
    · simp [same, definition?_delete, Ne.symm same]
  have chain : ∀ root ∈ graph.roots, (graph.delete id).chain root = graph.chain root := by
    intro root member
    have capable := (mem_roots_iff.mp member).2
    have apart : root ≠ id := by
      rintro rfl
      exact loose capable
    rw [valid.chain_delete apart]
    apply List.filter_eq_self.mpr
    intro other met
    have different : other ≠ id := by
      rintro rfl
      exact loose (valid.capable_ahead capable ((valid.mem_chain_iff capable).mp met))
    simpa using different
  rw [chained, chained, roots]
  exact List.flatMap_congr chain

-- A change after which no connection leads from an unused block to a used one makes no block used.
theorem Used.of_change
    (feeds : ∀ source target, changed.Feeds source target → graph.Used target → graph.Used source)
    (capable : ∀ id, changed.IsChainCapable id → graph.IsChainCapable id) (used : changed.Used id) : graph.Used id := by
  obtain ⟨goal, way, stands⟩ := used
  induction way using ReflTransGen.head_induction_on with
  | refl => exact (capable goal stands).used
  | head taken _ ih => exact feeds _ _ taken ih

theorem isChainCapable_iff :
    graph.IsChainCapable id ↔ ∃ definition, graph.definition? id = some definition ∧ definition.isChainCapable = true := by
  constructor
  · rintro ⟨block, found, capable⟩
    exact ⟨block.definition, definition?_of_get? found, capable⟩
  · rintro ⟨_, found, capable⟩
    obtain ⟨block, present, rfl⟩ := get?_of_definition? found
    exact ⟨block, present, capable⟩

theorem used_of_change {edit : Block → Block} (same : ∀ block, (edit block).definition = block.definition)
    (unused : ¬ graph.Used id) (used : (graph.change id edit).Used other) : graph.Used other := by
  refine used.of_change ?_ ?_
  · intro source target feeds reaches
    rcases feeds_change feeds with old | ⟨rfl, _⟩
    · exact reaches.of_feeds old
    · exact absurd reaches unused
  · intro id
    rw [isChainCapable_iff, definition?_change same, isChainCapable_iff]
    exact fun capable => capable

theorem used_of_delete (used : (graph.delete id).Used other) : graph.Used other := by
  refine used.of_change ?_ ?_
  · rintro source target ⟨block, socket, connection, found, stored, given⟩ reaches
    rw [get?_delete] at found
    split_ifs at found
    obtain ⟨old, present, rfl⟩ := Option.map_eq_some_iff.mp found
    simp only [Block.dropSource, Table.get?_filter, Option.filter_eq_some_iff] at stored
    exact reaches.of_feeds ⟨old, socket, connection, present, stored.1, given⟩
  · rintro goal ⟨block, found, capable⟩
    rw [get?_delete] at found
    split_ifs at found
    obtain ⟨old, present, rfl⟩ := Option.map_eq_some_iff.mp found
    exact ⟨old, present, capable⟩

end Graph

-- The block that a command takes out or edits at its own sockets.
def Command.edited? : Command → Option String
  | .delete id => some id
  | .setValue id _ _ => some id
  | .clearValue id _ => some id
  | .connect target _ _ => some target
  | .disconnect id _ => some id
  | _ => none

namespace Graph
variable {graph changed : Graph} {id : String}

-- The changed graph is built into the same program, and no block has come into use.
structure Keeps (graph changed : Graph) : Prop where
  program : changed.program = graph.program
  unused : ∀ id, changed.Used id → graph.Used id

theorem Keeps.refl (graph : Graph) : graph.Keeps graph := ⟨rfl, fun _ used => used⟩

theorem Keeps.trans {last : Graph} (first : graph.Keeps changed) (second : changed.Keeps last) : graph.Keeps last :=
  ⟨second.program.trans first.program, fun id used => first.unused id (second.unused id used)⟩

theorem Sequenced.keeps_change {edit : Block → Block} (valid : Sequenced graph) (unused : ¬ graph.Used id)
    (same : ∀ block, (edit block).definition = block.definition) : graph.Keeps (graph.change id edit) :=
  ⟨((agrees_change unused).program valid (chained_change same).symm).symm, fun _ => used_of_change same unused⟩

theorem Sequenced.keeps_delete (valid : Sequenced graph) (unused : ¬ graph.Used id) : graph.Keeps (graph.delete id) := by
  have loose : ¬ graph.IsChainCapable id := fun capable => unused capable.used
  exact ⟨((agrees_delete unused).program valid (valid.chained_delete loose).symm).symm, fun _ => used_of_delete⟩

end Graph

namespace Canvas
variable {catalog : Catalog} {canvas : Canvas} {command : Command} {commands : List Command} {id : String}

-- What is asked for is turned down, made at the one block, or takes it out.
theorem edited_cases (catalog : Catalog) (canvas : Canvas) (edits : command.edited? = some id) :
    (canvas.step catalog command).1.graph = canvas.graph ∨
    (∃ edit : Block → Block, (canvas.step catalog command).1.graph = canvas.graph.change id edit ∧
      ∀ block, (edit block).definition = block.definition) ∨
    (canvas.step catalog command).1.graph = canvas.graph.delete id := by
  cases command with
  | delete wanted =>
      cases edits
      by_cases present : canvas.graph.contains id = true
      · rw [step, if_pos present]
        exact .inr (.inr rfl)
      · rw [step, if_neg present]
        exact .inl rfl
  | setValue wanted socket value =>
      cases edits
      cases accepted : canvas.graph.setValue id socket value with
      | error refusal =>
          rw [step, accepted]
          exact .inl rfl
      | ok changed =>
          obtain ⟨_, _, _, _, _, rfl⟩ := Graph.setValue_eq_ok_iff.mp accepted
          rw [step, accepted]
          exact .inr (.inl ⟨_, rfl, fun _ => rfl⟩)
  | clearValue wanted socket =>
      cases edits
      exact .inr (.inl ⟨_, rfl, fun _ => rfl⟩)
  | connect target socket source =>
      cases edits
      cases accepted : canvas.graph.connect id socket source with
      | error refusal =>
          rw [step, accepted]
          exact .inl rfl
      | ok changed =>
          obtain ⟨_, _, _, _, _, _, _, _, _, _, rfl⟩ := Graph.connect_eq_ok_iff.mp accepted
          rw [step, accepted]
          exact .inr (.inl ⟨_, rfl, fun _ => rfl⟩)
  | disconnect wanted socket =>
      cases edits
      exact .inr (.inl ⟨_, rfl, fun _ => rfl⟩)
  | _ => cases edits

theorem keeps_step (catalog : Catalog) (valid : canvas.graph.Sequenced) (edits : command.edited? = some id)
    (unused : ¬ canvas.graph.Used id) : canvas.graph.Keeps (canvas.step catalog command).1.graph := by
  rcases edited_cases catalog canvas edits with same | ⟨edit, changed, definitions⟩ | deleted
  · rw [same]
    exact .refl _
  · rw [changed]
    exact valid.keeps_change unused definitions
  · rw [deleted]
    exact valid.keeps_delete unused

def steps (catalog : Catalog) (canvas : Canvas) (commands : List Command) : Canvas :=
  commands.foldl (fun canvas command => (canvas.step catalog command).1) canvas

theorem keeps_steps (path : Reached catalog canvas)
    (edits : ∀ command ∈ commands, ∃ id, command.edited? = some id ∧ ¬ canvas.graph.Used id) :
    Reached catalog (canvas.steps catalog commands) ∧ canvas.graph.Keeps (canvas.steps catalog commands).graph := by
  induction commands generalizing canvas with
  | nil => exact ⟨path, .refl _⟩
  | cons command rest ih =>
      obtain ⟨⟨id, edited, unused⟩, later⟩ := List.forall_mem_cons.mp edits
      have known : command.Known catalog := by
        cases command <;> trivial
      have first := keeps_step catalog path.grown.sequenced edited unused
      obtain ⟨reached, second⟩ := ih (path.step known) fun other member => by
        obtain ⟨wanted, named, idle⟩ := later other member
        exact ⟨wanted, named, fun used => idle (first.unused wanted used)⟩
      exact ⟨reached, first.trans second⟩

end Canvas

namespace Graph
variable {graph : Graph} {id : String}

-- The block cannot stand in a chain, and its data come to no block that can.
def Unused (graph : Graph) (id : String) : Prop :=
  ∀ goal, ReflTransGen (fun source target => (source, target) ∈ graph.dataEdges) id goal → ¬ graph.IsChainCapable goal

theorem Wired.unused_iff (wired : Wired graph) : graph.Unused id ↔ ¬ graph.Used id := by
  simp only [Unused, Used, wired.mem_dataEdges_iff, not_exists, not_and]

end Graph

variable {catalog : Catalog} {canvas : Canvas} {commands : List Command}

-- Any number of edits, one of them alone included, each of a block that is unused at the start.
theorem reached_unused (path : Reached catalog canvas)
    (edits : ∀ command ∈ commands, ∃ id, command.edited? = some id ∧ canvas.graph.Unused id) :
    canvas.graph.CompilesAs (canvas.steps catalog commands).graph := by
  have wired := path.grown.wired
  obtain ⟨reached, keeps⟩ := Canvas.keeps_steps path fun command member => by
    obtain ⟨id, edited, unused⟩ := edits command member
    exact ⟨id, edited, wired.unused_iff.mp unused⟩
  exact wired.compilesAs reached.grown.wired keeps.program

-- Ids that no connection leads out of, none of them of a block that can stand in a chain.
theorem Graph.unused_of_closed {graph : Graph} (ids : List String)
    (closed : graph.dataEdges.all (fun edge => edge.1 ∉ ids || edge.2 ∈ ids) = true)
    (loose : ids.all (fun id => (graph.definition? id).all fun definition => !definition.isChainCapable) = true) :
    ∀ id ∈ ids, graph.Unused id := by
  intro id member goal way
  have inside : goal ∈ ids := by
    induction way with
    | refl => exact member
    | tail _ taken ih => simpa [ih] using List.all_eq_true.mp closed _ taken
  rintro ⟨block, found, capable⟩
  have plain := List.all_eq_true.mp loose goal inside
  rw [Graph.definition?_of_get? found, Option.all_some, capable] at plain
  cases plain

-- What is read is written. It is also compared with a number, and the comparison goes nowhere.
def idleCommands : List Command :=
  [.create "io.write" none, .create "io.read" none, .create "op.compare.equal" none, .create "literal.number" none,
    .connect "gen-1" "value" "gen-2", .connect "gen-3" "left" "gen-2", .connect "gen-3" "right" "gen-4"]

def idleEdits : List Command :=
  [.setValue "gen-4" "value" (.int 7), .disconnect "gen-3" "right", .connect "gen-3" "right" "gen-2",
    .setValue "gen-3" "left" (.int 1), .clearValue "gen-3" "left", .delete "gen-4", .delete "gen-3"]

theorem reached_unused_idle :
    (Canvas.run Catalog.builtin idleCommands).graph.CompilesAs
        ((Canvas.run Catalog.builtin idleCommands).steps Catalog.builtin idleEdits).graph ∧
      ((Canvas.run Catalog.builtin idleCommands).steps Catalog.builtin idleEdits).graph.ids = ["gen-1", "gen-2"] ∧
      (Canvas.run Catalog.builtin idleCommands).graph.program.value =
        [.write (.read none (some "gen-2")) (some "gen-1")] := by
  have path : Reached Catalog.builtin (Canvas.run Catalog.builtin idleCommands) :=
    reached_run (by simp [idleCommands, Command.Known])
  have unused : ∀ id ∈ ["gen-3", "gen-4"], (Canvas.run Catalog.builtin idleCommands).graph.Unused id :=
    Graph.unused_of_closed _ (by cbv) (by cbv)
  refine ⟨reached_unused path ?_, by cbv, by cbv⟩
  simp [idleEdits, Command.edited?, unused]

end BlockCanvas
