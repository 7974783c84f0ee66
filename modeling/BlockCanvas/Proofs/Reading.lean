import BlockCanvas.Proofs.Diagnostics
import BlockCanvas.Proofs.Recompile
import BlockCanvas.Proofs.Renaming
import BlockCanvas.Proofs.Statements
namespace BlockCanvas

-- What building makes of a socket: the source of its connection or else the stored value, and the
-- stored value alone where connections are not followed.
inductive Reading where
  | fed (source : String)
  | stored (value : Option Value)

def Block.reading (block : Block) (socket : String) : Reading :=
  match (block.inputs.get? socket).filter fun _ => socket ∈ followedSockets block.definition.id with
  | some connection => .fed connection.source
  | none => .stored (block.values.get? socket)

-- Two blocks that building cannot tell apart.
structure Block.ReadsAs (block twin : Block) : Prop where
  definition : block.definition = twin.definition
  reading : ∀ socket, block.reading socket = twin.reading socket

namespace Block
variable {block twin : Block} {socket : String} {connection : Connection}

theorem reading_connected (followed : socket ∈ followedSockets block.definition.id)
    (connected : block.inputs.get? socket = some connection) : block.reading socket = .fed connection.source := by
  simp [reading, connected, followed, Option.filter]

theorem reading_free (free : block.inputs.get? socket = none) :
    block.reading socket = .stored (block.values.get? socket) := by
  simp [reading, free]

theorem reading_unfollowed (unfollowed : socket ∉ followedSockets block.definition.id) :
    block.reading socket = .stored (block.values.get? socket) := by
  simp [reading, unfollowed]

namespace ReadsAs
variable (alike : block.ReadsAs twin)
include alike

theorem value_unfollowed (unfollowed : socket ∉ followedSockets block.definition.id) :
    block.values.get? socket = twin.values.get? socket := by
  have same := alike.reading socket
  rw [reading_unfollowed unfollowed, reading_unfollowed (alike.definition ▸ unfollowed)] at same
  exact Reading.stored.inj same

theorem source (followed : socket ∈ followedSockets block.definition.id) :
    (block.inputs.get? socket).map Connection.source = (twin.inputs.get? socket).map Connection.source := by
  have followedToo : socket ∈ followedSockets twin.definition.id := alike.definition ▸ followed
  have same := alike.reading socket
  cases one : block.inputs.get? socket with
  | none =>
      cases two : twin.inputs.get? socket with
      | none => rfl
      | some connection =>
          rw [reading_free one, reading_connected followedToo two] at same
          cases same
  | some connection =>
      cases two : twin.inputs.get? socket with
      | none =>
          rw [reading_connected followed one, reading_free two] at same
          cases same
      | some other =>
          rw [reading_connected followed one, reading_connected followedToo two] at same
          exact congrArg some (Reading.fed.inj same)

theorem value_free (followed : socket ∈ followedSockets block.definition.id)
    (free : block.inputs.get? socket = none) : block.values.get? socket = twin.values.get? socket := by
  have freeToo : twin.inputs.get? socket = none := by
    have sources := alike.source followed
    rw [free, Option.map_none] at sources
    exact Option.map_eq_none_iff.mp sources.symm
  have same := alike.reading socket
  rw [reading_free free, reading_free freeToo] at same
  exact Reading.stored.inj same

end ReadsAs

theorem ReadsAs.refl (block : Block) : block.ReadsAs block := ⟨rfl, fun _ => rfl⟩

-- Where a connection is followed, the value stored beside it is not seen.
theorem readsAs_values {values : Table Value} (followed : socket ∈ followedSockets block.definition.id)
    (connected : block.inputs.get? socket = some connection)
    (apart : ∀ other, socket ≠ other → values.get? other = block.values.get? other) :
    block.ReadsAs { block with values := values } := by
  refine ⟨rfl, ?_⟩
  intro other
  by_cases same : socket = other
  · subst other
    have seen : ({ block with values := values } : Block).reading socket = .fed connection.source :=
      reading_connected followed connected
    rw [reading_connected followed connected, seen]
  · simp only [reading, apart other same]

-- Where it is not followed, the connection is not seen.
theorem readsAs_detach (unfollowed : socket ∉ followedSockets block.definition.id) :
    block.ReadsAs (block.detach socket) := by
  refine ⟨rfl, ?_⟩
  intro other
  by_cases same : socket = other
  · subst other
    have seen : (block.detach socket).reading socket = .stored (block.values.get? socket) :=
      reading_unfollowed unfollowed
    rw [reading_unfollowed unfollowed, seen]
  · simp only [reading, detach, Table.get?_erase, if_neg same]
    rfl

end Block

theorem followedSockets_of_statement {name : String} (known : StatementForm.of name ≠ .unknown) :
    followedSockets name = statementSockets name := by
  have listed : name ∈ Rows.keys statementKinds := by
    by_contra missing
    exact known (StatementForm.of_eq_unknown_iff.mpr missing)
  simp only [Rows.keys, statementKinds, List.map_cons, List.map_nil, List.mem_cons, List.not_mem_nil, or_false] at listed
  rcases listed with rfl | rfl | rfl | rfl | rfl <;> rfl

namespace Build
variable {left right : Graph} {id socket : String} {block twin : Block} {default : Value}
  {build buildToo : String → Built Node}

theorem given?_congr (same : block.values.get? socket = twin.values.get? socket) :
    block.given? socket = twin.given? socket := by
  rw [Block.given?, Block.given?, same]

theorem variableName_congr (same : block.values.get? "name" = twin.values.get? "name") :
    variableName block = variableName twin := by
  rw [variableName, variableName, same]

section Twins
variable (leftWired : left.Wired) (rightWired : right.Wired) (found : left.get? id = some block)
  (present : right.get? id = some twin) (alike : block.ReadsAs twin)
include leftWired rightWired found present alike

theorem operand_readsAs (fed : ∀ feeding, left.Feeds feeding id → build feeding = buildToo feeding)
    (followed : socket ∈ followedSockets block.definition.id) :
    operand build left id block socket default = operand buildToo right id twin socket default := by
  rw [operand, operand, source_eq leftWired found, source_eq rightWired present, ← alike.source followed]
  cases stored : block.inputs.get? socket with
  | none =>
      rw [given?_congr (alike.value_free followed stored)]
      rfl
  | some connection =>
      simp only [Option.map_some, Built.pure_bind]
      rw [fed connection.source ⟨block, socket, connection, found, stored, rfl⟩]

theorem readNode_readsAs (fed : ∀ feeding, left.Feeds feeding id → build feeding = buildToo feeding)
    (followed : "prompt" ∈ followedSockets block.definition.id) :
    readNode build left id block = readNode buildToo right id twin := by
  rw [readNode, readNode, source_eq leftWired found, source_eq rightWired present, ← alike.source followed]
  cases stored : block.inputs.get? "prompt" with
  | none => simp only [Option.map_none, Built.pure_bind, storedPrompt, alike.value_free followed stored]
  | some connection =>
      simp only [Option.map_some, Built.pure_bind, warn, alike.definition]
      rw [fed connection.source ⟨block, "prompt", connection, found, stored, rfl⟩]

theorem initialValue_readsAs (fed : ∀ feeding, left.Feeds feeding id → build feeding = buildToo feeding)
    (followed : "value" ∈ followedSockets block.definition.id) :
    initialValue build left id block = initialValue buildToo right id twin := by
  rw [initialValue, initialValue, source_eq leftWired found, source_eq rightWired present, ← alike.source followed]
  cases stored : block.inputs.get? "value" with
  | none =>
      rw [given?_congr (alike.value_free followed stored)]
      rfl
  | some connection =>
      simp only [Option.map_some, Built.pure_bind]
      rw [fed connection.source ⟨block, "value", connection, found, stored, rfl⟩]

-- A block of no known form would have its value read whatever is connected.
theorem formNode_readsAs (fed : ∀ feeding, left.Feeds feeding id → build feeding = buildToo feeding)
    (known : ExpressionForm.of block.definition.id ≠ .unknown)
    (follows : followedSockets block.definition.id = expressionSockets block.definition.id) :
    formNode build left id block = formNode buildToo right id twin := by
  have operand : ∀ socket ∈ followedSockets block.definition.id, ∀ default,
      operand build left id block socket default = operand buildToo right id twin socket default :=
    fun _ followed _ => operand_readsAs leftWired rightWired found present alike fed followed
  unfold formNode
  rw [← alike.definition]
  cases form : ExpressionForm.of block.definition.id with
  | read =>
      apply readNode_readsAs leftWired rightWired found present alike fed
      simp [follows, expressionSockets, form]
  | lookup =>
      have raw : "name" ∉ followedSockets block.definition.id := by simp [follows, expressionSockets, form]
      dsimp only
      rw [variableName_congr (alike.value_unfollowed raw)]
  | literal default =>
      have raw : "value" ∉ followedSockets block.definition.id := by simp [follows, expressionSockets, form]
      dsimp only
      rw [given?_congr (alike.value_unfollowed raw)]
  | operation operator =>
      have left : "left" ∈ followedSockets block.definition.id := by simp [follows, expressionSockets, form]
      have right : "right" ∈ followedSockets block.definition.id := by simp [follows, expressionSockets, form]
      simp only [operationNode, chosenOperator, warn, alike.definition, operand "left" left, operand "right" right]
  | unknown => exact absurd form known

theorem statement_readsAs (fed : ∀ feeding, left.Feeds feeding id → build feeding = buildToo feeding) :
    statement build left id block = statement buildToo right id twin := by
  have operand : ∀ socket ∈ followedSockets block.definition.id, ∀ default,
      operand build left id block socket default = operand buildToo right id twin socket default :=
    fun _ followed _ => operand_readsAs leftWired rightWired found present alike fed followed
  have sockets := @followedSockets_of_statement block.definition.id
  unfold statementSockets at sockets
  unfold statement
  rw [← alike.definition]
  cases form : StatementForm.of block.definition.id with
  | write =>
      have value : "value" ∈ followedSockets block.definition.id := by simp [sockets, form]
      simp only [operand "value" value]
  | declare =>
      have value : "value" ∈ followedSockets block.definition.id := by simp [sockets, form]
      have name : "name" ∉ followedSockets block.definition.id := by simp [sockets, form]
      simp only [initialValue_readsAs leftWired rightWired found present alike fed value,
        variableName_congr (alike.value_unfollowed name)]
  | assign =>
      have value : "value" ∈ followedSockets block.definition.id := by simp [sockets, form]
      have name : "name" ∉ followedSockets block.definition.id := by simp [sockets, form]
      simp only [operand "value" value, variableName_congr (alike.value_unfollowed name)]
  | branch =>
      have condition : "condition" ∈ followedSockets block.definition.id := by simp [sockets, form]
      simp only [operand "condition" condition]
  | loop =>
      have condition : "condition" ∈ followedSockets block.definition.id := by simp [sockets, form]
      simp only [operand "condition" condition]
  | unknown => simp only [warn, alike.definition]

end Twins
end Build

namespace Graph

-- Two canvases with the same links, whose blocks cannot be told apart one by one.
structure ReadsAs (left right : Graph) : Prop where
  ids : left.ids = right.ids
  next : left.next = right.next
  previous : left.previous = right.previous
  blocks : ∀ id block twin, left.get? id = some block → right.get? id = some twin → block.ReadsAs twin

theorem roots_eq (graph : Graph) : graph.roots = graph.ids.filter fun id =>
    !graph.previous.contains id && (graph.definition? id).any Definition.isChainCapable := by
  rw [roots, ids, Table.keys, Rows.keys, List.filter_map]
  congr 1
  apply List.filter_congr
  intro row listed
  have found : graph.get? row.1 = some row.2 := Table.mem_rows_iff.mp listed
  simp [definition?_of_get? found]

namespace ReadsAs
variable {left right : Graph} {id : String} (alike : ReadsAs left right)
include alike

theorem get?_eq_none (absent : left.get? id = none) : right.get? id = none := by
  have missing : id ∉ left.ids := Table.get?_eq_none_iff.mp absent
  rw [alike.ids] at missing
  exact Table.get?_eq_none_iff.mpr missing

theorem twin {block : Block} (found : left.get? id = some block) :
    ∃ twin, right.get? id = some twin ∧ block.ReadsAs twin := by
  have listed : id ∈ left.ids := mem_ids_iff.mpr ⟨block, found⟩
  rw [alike.ids] at listed
  obtain ⟨twin, present⟩ := mem_ids_iff.mp listed
  exact ⟨twin, present, alike.blocks id block twin found present⟩

theorem definition? : left.definition? = right.definition? := by
  funext id
  cases found : left.get? id with
  | none => rw [Graph.definition?, Graph.definition?, found, alike.get?_eq_none found]
  | some block =>
      obtain ⟨twin, present, same⟩ := alike.twin found
      rw [definition?_of_get? found, definition?_of_get? present, same.definition]

theorem chained : left.chained = right.chained := by
  have chain : left.chain = right.chain := by
    funext start
    rw [chain, chain, alike.ids]
    exact walk_congr (fun _ => by rw [alike.next]) _ start
  rw [Graph.chained, Graph.chained, chain, roots_eq, roots_eq, alike.ids, alike.previous, alike.definition?]

section Builtin
variable (leftSound : Sound Catalog.builtin left) (rightSound : Sound Catalog.builtin right)
include leftSound rightSound

theorem expression (gives : left.Gives id) (opened : List String) :
    Build.expression left opened id = Build.expression right opened id := by
  induction size : opened.length using Nat.strong_induction_on generalizing opened id with
  | _ size ih =>
    rw [Build.expression, Build.expression]
    congr 1
    cases found : left.get? id with
    | none => rw [alike.get?_eq_none found]
    | some block =>
        obtain ⟨twin, present, same⟩ := alike.twin found
        rw [present]
        by_cases listed : id ∈ opened
        · obtain ⟨definition, output, here, out⟩ := gives
          rw [definition?_of_get? found] at here
          cases here
          have known := leftSound.known id _ (definition?_of_get? found)
          obtain ⟨form, _, follows⟩ := Definition.expression_of_buildable (Definition.builtin_buildable known) out
          have fed : ∀ feeding, left.Feeds feeding id →
              Build.expression left (opened.erase id) feeding = Build.expression right (opened.erase id) feeding :=
            fun feeding feeds =>
              ih (opened.erase id).length (size ▸ length_erase_lt listed) (leftSound.wired.gives feeds) _ rfl
          simp only [listed, dite_true]
          exact Build.formNode_readsAs leftSound.wired rightSound.wired found present same fed form follows
        · simp only [listed, dite_false, Build.warn, same.definition]

theorem statements (ids : List String) :
    Build.statements (Build.expression left left.ids) left ids =
      Build.statements (Build.expression right right.ids) right ids := by
  induction ids with
  | nil => rfl
  | cons id rest ih =>
      simp only [Build.statements, Build.statementAt, ih]
      cases found : left.get? id with
      | none => rw [alike.get?_eq_none found]
      | some block =>
          obtain ⟨twin, present, same⟩ := alike.twin found
          have built : Build.statement (Build.expression left left.ids) left id block =
              Build.statement (Build.expression right right.ids) right id twin := by
            apply Build.statement_readsAs leftSound.wired rightSound.wired found present same
            intro feeding feeds
            rw [alike.expression leftSound rightSound (leftSound.wired.gives feeds), alike.ids]
          simp only [present, built]

theorem program : left.program = right.program := by
  have order : left.roots.flatMap left.chain = right.roots.flatMap right.chain := alike.chained
  rw [Graph.program, Graph.program, order, alike.statements leftSound rightSound]

end Builtin
end ReadsAs

theorem readsAs_change {graph : Graph} {id : String} {block : Block} {edit : Block → Block}
    (found : graph.get? id = some block) (same : block.ReadsAs (edit block)) :
    graph.ReadsAs (graph.change id edit) := by
  refine ⟨(graph.ids_change id edit).symm, rfl, rfl, ?_⟩
  intro wanted one two present presentToo
  rw [get?_change] at presentToo
  by_cases here : id = wanted
  · subst wanted
    rw [found] at present
    rw [if_pos rfl, found] at presentToo
    cases present
    cases presentToo
    exact same
  · rw [if_neg here, present] at presentToo
    cases presentToo
    exact .refl one

-- An edit that leaves connections alone leaves the order of evaluation alone.
theorem dataEdges_change {graph : Graph} {id : String} {edit : Block → Block}
    (same : ∀ block, (edit block).inputs = block.inputs) : (graph.change id edit).dataEdges = graph.dataEdges := by
  have inputs : (graph.blocks.update id edit).map Block.inputs = graph.blocks.map Block.inputs := by
    have renamed : (graph.blocks.map Block.inputs).update id (fun inputs => inputs) =
        (graph.blocks.update id edit).map Block.inputs :=
      Table.update_rename (.refl String) Block.inputs (fun block => (same block).symm) graph.blocks id
    rw [← renamed]
    cases found : (graph.blocks.map Block.inputs).get? id with
    | none => rw [Table.update, found]
    | some inputs => exact Table.update_eq_self found rfl
  have listed : ∀ graph : Graph, graph.connections = (graph.blocks.map Block.inputs).values.flatMap Table.values := by
    intro graph
    simp only [connections, Table.values, Table.map, List.flatMap_map, List.map_map]
    rfl
  rw [dataEdges, dataEdges, listed, listed]
  exact congrArg _ (congrArg _ (congrArg Table.values inputs))

theorem Sound.compile_change {graph : Graph} {id : String} {block : Block} {edit : Block → Block}
    (sound : Sound Catalog.builtin graph) (soundToo : Sound Catalog.builtin (graph.change id edit))
    (found : graph.get? id = some block) (same : block.ReadsAs (edit block))
    (inputs : ∀ block, (edit block).inputs = block.inputs) (room : Nat) (unit : String) :
    (graph.change id edit).compile room unit = graph.compile room unit := by
  have alike := readsAs_change found same
  have count : ∀ graph : Graph, graph.size = graph.ids.length := fun _ => (List.length_map _).symm
  have size : (graph.change id edit).size = graph.size := by rw [count, count, ids_change]
  have order : (graph.change id edit).evaluationOrder = graph.evaluationOrder := by
    rw [evaluationOrder, evaluationOrder, dataEdges_change inputs, ids_change]
  simp only [compile_eq, failure?, artifact, compileLog, warnings, order, size, alike.program sound soundToo]

-- Nobody who reads the code and what building had to say can tell the graphs apart.
structure CompilesAs (graph changed : Graph) : Prop where
  build : ∀ room visit, Builder.program room changed visit = Builder.program room graph visit
  compile : ∀ room unit, match graph.compile room unit, changed.compile room unit with
    | .ok before, .ok after => after.value.code = before.value.code ∧ after.value.diagnostics = before.value.diagnostics
    | .error before, .error after => after = before
    | _, _ => False

theorem Wired.compilesAs {graph changed : Graph} (wired : Wired graph) (wiredToo : Wired changed)
    (program : changed.program = graph.program) : graph.CompilesAs changed := by
  refine ⟨fun room visit => by rw [Builder.program_eq, Builder.program_eq, program], fun room unit => ?_⟩
  have same : changed.failure? room = graph.failure? room := by
    simp only [failure?, warnings, program, wired.cycleNotes_eq_nil, wiredToo.cycleNotes_eq_nil]
  rw [compile_eq, compile_eq, same]
  cases graph.failure? room with
  | some failure => rfl
  | none => simp only [artifact, program, wired.cycleNotes_eq_nil, wiredToo.cycleNotes_eq_nil, and_self]

end Graph

-- The sockets that are read as stored: names, and the values of literals.
def Definition.readsStored (definition : Definition) (socket : String) : Bool :=
  socket = "name" || socket = "value" && definition.id ∈ ["literal.number", "literal.text", "literal.boolean"]

theorem Definition.builtin_readsStored {definition : Definition} {socket : String} {input : Socket}
    (known : definition.Known Catalog.builtin) (declared : definition.input? socket = some input) :
    definition.readsStored socket = false ↔ socket ∈ followedSockets definition.id := by
  have every : ∀ definition ∈ Catalog.builtinDefinitions, ∀ input ∈ definition.inputs,
      (definition.readsStored input.id = false ↔ input.id ∈ followedSockets definition.id) := by decide +kernel
  have named : input.id = socket := by simpa using List.find?_some declared
  rw [← named]
  exact every definition (Catalog.mem_builtinDefinitions known) input (List.mem_of_find?_eq_some declared)

variable {canvas : Canvas}

theorem reached_connection_wins {id socket : String} {block : Block} {connection : Connection}
    (path : Reached Catalog.builtin canvas) (found : canvas.graph.get? id = some block)
    (connected : block.inputs.get? socket = some connection) (unit : String) :
    (canvas.graph.Compiles unit fun _ => True) ∧
      (block.definition.readsStored socket = false → ∀ room,
        (∀ value, (canvas.step Catalog.builtin (.setValue id socket value)).1.graph.compile room unit =
          canvas.graph.compile room unit) ∧
        (canvas.step Catalog.builtin (.clearValue id socket)).1.graph.compile room unit =
          canvas.graph.compile room unit) ∧
      (block.definition.readsStored socket = true →
        canvas.graph.CompilesAs (canvas.step Catalog.builtin (.disconnect id socket)).1.graph) := by
  have sound := path.grown.sound
  have changed : ∀ command, Command.Known Catalog.builtin command →
      Graph.Sound Catalog.builtin (canvas.step Catalog.builtin command).1.graph :=
    fun _ known => (path.step known).grown.sound
  obtain ⟨_, _, _, _, input, _, _, declared, _⟩ := (sound.wired.fits id block found).connection socket connection connected
  have kind := Definition.builtin_readsStored (sound.known id _ (Graph.definition?_of_get? found)) declared
  refine ⟨Graph.compiles_of fun _ => trivial, ?_, ?_⟩
  · intro followed room
    rw [kind] at followed
    refine ⟨?_, ?_⟩
    · intro value
      cases accepted : canvas.graph.setValue id socket value with
      | error refusal => simp only [Canvas.step, accepted, Canvas.judge]
      | ok next =>
          have soundToo := changed (.setValue id socket value) trivial
          simp only [Canvas.step, accepted, Canvas.judge] at soundToo ⊢
          obtain ⟨_, _, _, _, _, rfl⟩ := Graph.setValue_eq_ok_iff.mp accepted
          rw [sound.compile_change soundToo found ?_ (fun _ => rfl)]
          apply Block.readsAs_values followed connected
          intro other apart
          rw [Table.get?_put, if_neg apart]
    · have soundToo := changed (.clearValue id socket) trivial
      simp only [Canvas.step, Graph.clearValue] at soundToo ⊢
      rw [sound.compile_change soundToo found ?_ (fun _ => rfl)]
      apply Block.readsAs_values followed connected
      intro other apart
      rw [Table.get?_erase, if_neg apart]
  · intro stored
    have unfollowed : socket ∉ followedSockets block.definition.id := by
      rw [← kind, stored]
      decide
    have soundToo := changed (.disconnect id socket) trivial
    simp only [Canvas.step, Graph.disconnect] at soundToo ⊢
    have same := (Graph.readsAs_change found (Block.readsAs_detach unfollowed)).program sound soundToo
    exact sound.wired.compilesAs soundToo.wired same.symm

-- A declaration whose name is connected, and then its first value too.
def labelCommands : List Command :=
  [.create "var.declare" none, .create "literal.text" none, .setValue "gen-2" "value" (.text "total"),
    .connect "gen-1" "name" "gen-2"]

def filledCommands : List Command :=
  labelCommands ++
    [.create "literal.number" none, .connect "gen-1" "value" "gen-3", .setValue "gen-1" "value" (.int 9)]

theorem reached_connection_wins_filled :
    ∃ compiled,
      (Canvas.run Catalog.builtin filledCommands).graph.compile Builder.usualRoom "  " = .ok compiled ∧
      (∀ value, ((Canvas.run Catalog.builtin filledCommands).step Catalog.builtin
        (.setValue "gen-1" "value" value)).1.graph.compile Builder.usualRoom "  " = .ok compiled) ∧
      ((Canvas.run Catalog.builtin filledCommands).step Catalog.builtin
        (.clearValue "gen-1" "value")).1.graph.compile Builder.usualRoom "  " = .ok compiled ∧
      (Canvas.run Catalog.builtin filledCommands).graph.CompilesAs
        ((Canvas.run Catalog.builtin filledCommands).step Catalog.builtin (.disconnect "gen-1" "name")).1.graph := by
  have path : Reached Catalog.builtin (Canvas.run Catalog.builtin filledCommands) :=
    reached_run (by simp [filledCommands, labelCommands, Command.Known])
  have seen : ((Canvas.run Catalog.builtin filledCommands).graph.get? "gen-1").map (fun block =>
      (block.inputs.get? "value", block.inputs.get? "name", block.definition.id)) =
      some (some ⟨"gen-3", "gen-1", "value"⟩, some ⟨"gen-2", "gen-1", "name"⟩, "var.declare") := by cbv
  obtain ⟨block, found, same⟩ := Option.map_eq_some_iff.mp seen
  simp only [Prod.mk.injEq] at same
  obtain ⟨value, name, kind⟩ := same
  obtain ⟨_, followed, _⟩ := reached_connection_wins path found value "  "
  obtain ⟨_, _, stored⟩ := reached_connection_wins path found name "  "
  obtain ⟨set, cleared⟩ := followed (by simp [Definition.readsStored, kind]) Builder.usualRoom
  have compiled : (Canvas.run Catalog.builtin filledCommands).graph.compile Builder.usualRoom "  " = .ok _ :=
    Graph.compile_eq_ok (by cbv)
  exact ⟨_, compiled, fun value => (set value).trans compiled, cleared.trans compiled,
    stored (by simp [Definition.readsStored])⟩

theorem stored_name_wins :
    (Canvas.run Catalog.builtin labelCommands).graph.connection? "gen-1" "name" = some ⟨"gen-2", "gen-1", "name"⟩ ∧
    ∃ first second,
      (Canvas.run Catalog.builtin labelCommands).graph.compile Builder.usualRoom "  " = .ok first ∧
      ((Canvas.run Catalog.builtin labelCommands).step Catalog.builtin
        (.setValue "gen-1" "name" (.text "x"))).1.graph.compile Builder.usualRoom "  " = .ok second ∧
      first.value.code ≠ second.value.code := by
  have before : (Canvas.run Catalog.builtin labelCommands).graph.program.value =
      [.declare "variavel" .absent (some "gen-1")] := by cbv
  have after : ((Canvas.run Catalog.builtin labelCommands).step Catalog.builtin
      (.setValue "gen-1" "name" (.text "x"))).1.graph.program.value = [.declare "x" .absent (some "gen-1")] := by cbv
  refine ⟨by cbv, _, _, Graph.compile_eq_ok (by cbv), Graph.compile_eq_ok (by cbv), ?_⟩
  dsimp only [Graph.artifact]
  rw [before, after]
  decide

end BlockCanvas
