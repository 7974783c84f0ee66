import BlockCanvas.Graph.Connect
import BlockCanvas.Graph.Sequence
import BlockCanvas.Proofs.Table
namespace BlockCanvas.Graph

variable {graph next : Graph} {id socket : String}

-- A block keeps its definition for as long as it is on the canvas.
def definition? (graph : Graph) (id : String) : Option Definition :=
  (graph.get? id).map Block.definition

theorem definition?_of_get? {block : Block} (found : graph.get? id = some block) :
    graph.definition? id = some block.definition := by
  rw [definition?, found, Option.map_some]

theorem get?_of_definition? {definition : Definition} (found : graph.definition? id = some definition) :
    ∃ block, graph.get? id = some block ∧ block.definition = definition :=
  Option.map_eq_some_iff.mp found

theorem definition?_of_blocks (same : next.blocks = graph.blocks) : next.definition? = graph.definition? := by
  funext id
  rw [definition?, definition?, get?, get?, same]

theorem contains_eq_true_iff : graph.contains id = true ↔ ∃ block, graph.get? id = some block :=
  Option.isSome_iff_exists

theorem contains_of_get? {block : Block} (found : graph.get? id = some block) : graph.contains id = true :=
  contains_eq_true_iff.mpr ⟨block, found⟩

theorem mem_ids_iff : id ∈ graph.ids ↔ ∃ block, graph.get? id = some block :=
  Table.mem_keys_iff

theorem ids_nodup (graph : Graph) : graph.ids.Nodup := graph.blocks.distinct

-- Editing one block in place.

@[simp] theorem get?_change (graph : Graph) (id : String) (edit : Block → Block) (wanted : String) :
    (graph.change id edit).get? wanted =
      if id = wanted then (graph.get? wanted).map edit else graph.get? wanted :=
  Table.get?_update graph.blocks id edit wanted

@[simp] theorem ids_change (graph : Graph) (id : String) (edit : Block → Block) :
    (graph.change id edit).ids = graph.ids :=
  Table.keys_update graph.blocks id edit

theorem definition?_change {edit : Block → Block} (same : ∀ block, (edit block).definition = block.definition) :
    (graph.change id edit).definition? = graph.definition? := by
  funext wanted
  by_cases hit : id = wanted
  · simp [definition?, hit, Function.comp_def, same]
  · simp [definition?, hit]

theorem change_change (graph : Graph) (id : String) (first second : Block → Block) :
    (graph.change id first).change id second = graph.change id fun block => second (first block) := by
  simp only [change, Table.update_update]

theorem change_congr {block : Block} {first second : Block → Block} (found : graph.get? id = some block)
    (same : first block = second block) : graph.change id first = graph.change id second := by
  simp only [change, Table.update_congr found same]

theorem change_eq_self {block : Block} {edit : Block → Block} (found : graph.get? id = some block)
    (same : edit block = block) : graph.change id edit = graph := by
  simp only [change, Table.update_eq_self found same]

-- What an accepted request did.

theorem add_eq_some_iff {definition : Definition} {position : Position} :
    graph.add id definition position = some next ↔
      graph.get? id = none ∧
        { graph with blocks := graph.blocks.put id (.fresh definition position) } = next := by
  unfold add
  cases found : graph.get? id with
  | none => simp [contains, Table.contains, show graph.blocks.get? id = none from found]
  | some block => simp [contains_of_get? found]

theorem get?_add {definition : Definition} {position : Position}
    (added : graph.add id definition position = some next) (wanted : String) :
    next.get? wanted = if id = wanted then some (.fresh definition position) else graph.get? wanted := by
  obtain ⟨_, rfl⟩ := add_eq_some_iff.mp added
  exact Table.get?_put graph.blocks id _ wanted

theorem definition?_add {definition : Definition} {position : Position}
    (added : graph.add id definition position = some next) (wanted : String) :
    next.definition? wanted = if id = wanted then some definition else graph.definition? wanted := by
  rw [definition?, get?_add added]
  by_cases same : id = wanted
  · simp [same, Block.fresh]
  · simp [same, definition?]

theorem definition?_add_of_some {definition found : Definition} {position : Position} {wanted : String}
    (added : graph.add id definition position = some next) (present : graph.definition? wanted = some found) :
    next.definition? wanted = some found := by
  have absent : graph.get? id = none := (add_eq_some_iff.mp added).1
  have apart : id ≠ wanted := by
    intro equal
    rw [definition?, ← equal, absent] at present
    cases present
  rw [definition?_add added, if_neg apart, present]

theorem setValue_eq_ok_iff {value : Value} :
    graph.setValue id socket value = .ok next ↔
      ∃ block input, graph.get? id = some block ∧ block.definition.input? socket = some input ∧
        input.type.admits value = true ∧
        (graph.change id fun block => { block with values := block.values.put socket value }) = next := by
  unfold setValue Block.setValue
  cases found : graph.get? id with
  | none => simp
  | some block =>
      have stored : graph.blocks.get? id = some block := found
      cases declared : block.definition.input? socket with
      | none => simp [declared]
      | some input =>
          by_cases fit : input.type.admits value = true
          · simp [declared, fit, change, Table.update, stored]
          · simp [declared, fit]

theorem connect_eq_ok_iff {target source : String} :
    graph.connect target socket source = .ok next ↔
      ∃ targetBlock sourceBlock input output,
        graph.get? target = some targetBlock ∧ graph.get? source = some sourceBlock ∧
        targetBlock.definition.input? socket = some input ∧ sourceBlock.definition.output = some output ∧
        input.acceptsType output.type = true ∧ graph.dependsOn source target = false ∧
        graph.attach target ⟨source, target, socket⟩ = next := by
  unfold connect connectRefusal?
  cases foundTarget : graph.get? target with
  | none => simp
  | some targetBlock =>
      cases foundSource : graph.get? source with
      | none => simp
      | some sourceBlock =>
          cases declared : targetBlock.definition.input? socket with
          | none => simp [declared]
          | some input =>
              cases given : sourceBlock.definition.output with
              | none => simp [declared, given]
              | some output =>
                  by_cases fit : input.acceptsType output.type = true
                  · by_cases circle : graph.dependsOn source target = true
                    · simp [declared, given, fit, circle]
                    · simp [declared, given, fit, circle]
                  · simp [declared, given, fit]

theorem setNext_none_eq_ok_iff :
    graph.setNext id none = .ok next ↔ graph.contains id = true ∧ graph.unlinkNext id = next := by
  unfold setNext
  by_cases present : graph.contains id = true
  · simp [present]
  · simp [present]

theorem setNext_some_eq_ok_iff {wanted : String} :
    graph.setNext id (some wanted) = .ok next ↔
      ∃ block nextBlock, graph.get? id = some block ∧ graph.get? wanted = some nextBlock ∧
        block.definition.hasNext = true ∧ nextBlock.definition.hasPrevious = true ∧
        graph.chainReaches wanted id = false ∧
        ((graph.unlinkNext id).unlinkBefore wanted).link id wanted = next := by
  unfold setNext linkRefusal?
  cases found : graph.get? id with
  | none => simp
  | some block =>
      cases foundNext : graph.get? wanted with
      | none => simp [foundNext]
      | some nextBlock =>
          by_cases ahead : block.definition.hasNext = true
          · by_cases behind : nextBlock.definition.hasPrevious = true
            · by_cases circle : graph.chainReaches wanted id = true
              · simp [foundNext, ahead, behind, circle]
              · simp [foundNext, ahead, behind, circle]
            · simp [foundNext, ahead, behind]
          · simp [foundNext, ahead]

-- Relinking leaves the blocks alone.

@[simp] theorem blocks_unlinkNext (graph : Graph) (id : String) : (graph.unlinkNext id).blocks = graph.blocks := by
  unfold unlinkNext
  split <;> rfl

@[simp] theorem blocks_unlinkBefore (graph : Graph) (id : String) : (graph.unlinkBefore id).blocks = graph.blocks := by
  unfold unlinkBefore
  split
  · rfl
  · exact blocks_unlinkNext graph _

@[simp] theorem blocks_link (graph : Graph) (id wanted : String) : (graph.link id wanted).blocks = graph.blocks := rfl

theorem blocks_setNext {wanted : Option String} (accepted : graph.setNext id wanted = .ok next) :
    next.blocks = graph.blocks := by
  cases wanted with
  | none =>
      obtain ⟨_, rfl⟩ := setNext_none_eq_ok_iff.mp accepted
      exact blocks_unlinkNext graph id
  | some wanted =>
      obtain ⟨_, _, _, _, _, _, _, rfl⟩ := setNext_some_eq_ok_iff.mp accepted
      simp

@[simp] theorem blocks_spliceOut (graph : Graph) (id : String) : (graph.spliceOut id).blocks = graph.blocks := by
  unfold spliceOut
  dsimp only
  split
  · simp
  · split <;> simp

theorem get?_delete (graph : Graph) (id wanted : String) :
    (graph.delete id).get? wanted =
      if id = wanted then none else (graph.get? wanted).map fun block => block.dropSource id := by
  simp [delete, get?]

theorem definition?_delete (graph : Graph) (id wanted : String) :
    (graph.delete id).definition? wanted = if id = wanted then none else graph.definition? wanted := by
  rw [definition?, get?_delete]
  by_cases hit : id = wanted
  · simp [hit]
  · simp [hit, definition?, Function.comp_def, Block.dropSource]

end BlockCanvas.Graph
