import BlockCanvas.Proofs.RoundTrip
import Mathlib.Data.List.Nodup
import Mathlib.Logic.Embedding.Basic
namespace BlockCanvas

-- New identities for blocks: no two blocks come to share one.
abbrev Renaming := String ↪ String

namespace Rows
variable {α β : Type} (names : Renaming) (change : α → β)

def rename (rows : List (String × α)) : List (String × β) :=
  rows.map fun row => (names row.1, change row.2)

theorem keys_rename (rows : List (String × α)) : keys (rename names change rows) = (keys rows).map names := by
  simp [keys, rename, Function.comp_def]

theorem find?_rename (rows : List (String × α)) (key : String) :
    find? (names key) (rename names change rows) = (find? key rows).map change := by
  induction rows with
  | nil => rfl
  | cons row rest ih =>
      rw [rename] at ih
      by_cases same : row.1 = key
      · simp [rename, find?, same]
      · simp [rename, find?, same, ih]

theorem put_rename (rows : List (String × α)) (key : String) (value : α) :
    put (names key) (change value) (rename names change rows) = rename names change (put key value rows) := by
  induction rows with
  | nil => rfl
  | cons row rest ih =>
      rw [rename, rename] at ih
      by_cases same : row.1 = key
      · simp [rename, put, same]
      · simp [rename, put, same, ih]

theorem erase_rename (rows : List (String × α)) (key : String) :
    erase (names key) (rename names change rows) = rename names change (erase key rows) := by
  simp [erase, rename, List.filter_map, Function.comp_def]

end Rows

namespace Table
variable {α β : Type} (names : Renaming) (change : α → β)

-- Keys get their new names where they stand, and values are changed along.
def rename (table : Table α) : Table β :=
  ⟨Rows.rename names change table.rows, by
    rw [Rows.keys_rename]
    exact table.distinct.map names.injective⟩

@[simp] theorem keys_rename (table : Table α) : (table.rename names change).keys = table.keys.map names :=
  Rows.keys_rename names change table.rows

@[simp] theorem get?_rename (table : Table α) (key : String) :
    (table.rename names change).get? (names key) = (table.get? key).map change :=
  Rows.find?_rename names change table.rows key

@[simp] theorem contains_rename (table : Table α) (key : String) :
    (table.rename names change).contains (names key) = table.contains key := by
  rw [contains, get?_rename, Option.isSome_map, contains]

theorem put_rename (table : Table α) (key : String) (value : α) :
    (table.rename names change).put (names key) (change value) = (table.put key value).rename names change :=
  ext (Rows.put_rename names change table.rows key value)

theorem erase_rename (table : Table α) (key : String) :
    (table.rename names change).erase (names key) = (table.erase key).rename names change :=
  ext (Rows.erase_rename names change table.rows key)

theorem update_rename {edit : α → α} {editToo : β → β} (same : ∀ value, editToo (change value) = change (edit value))
    (table : Table α) (key : String) :
    (table.rename names change).update (names key) editToo = (table.update key edit).rename names change := by
  unfold update
  rw [get?_rename]
  cases table.get? key with
  | none => rfl
  | some value => simp only [Option.map_some, same, put_rename]

theorem ofRows_rename (rows : List (String × α)) :
    ofRows (Rows.rename names change rows) = (ofRows rows).rename names change := by
  induction rows using List.reverseRecOn with
  | nil => rfl
  | append_singleton rows row ih =>
      rw [Rows.rename, List.map_append] at *
      rw [List.map_singleton, ofRows_concat, ih, put_rename, ofRows_concat]

end Table

def Connection.rename (names : Renaming) (connection : Connection) : Connection :=
  { connection with source := names connection.source, target := names connection.target }

def BlockRecord.rename (names : Renaming) (record : BlockRecord) : BlockRecord :=
  { record with
    id := names record.id
    connections := record.connections.map (Connection.rename names)
    next := record.next.map names
    previous := record.previous.map names }

def Block.rename (names : Renaming) (block : Block) : Block :=
  { block with inputs := block.inputs.map (Connection.rename names) }

def Graph.rename (names : Renaming) (graph : Graph) : Graph :=
  ⟨graph.blocks.rename names (Block.rename names), graph.next.rename names names,
    graph.previous.rename names names⟩

def Refusal.rename (names : Renaming) : Refusal → Refusal
  | .unknownBlock block => .unknownBlock (names block)
  | .dataCycle source target socket => .dataCycle (names source) (names target) socket
  | .sequenceCycle block next => .sequenceCycle (names block) (names next)
  | other => other

def BuildNote.rename (names : Renaming) : BuildNote → BuildNote
  | .missingSource socket source => .missingSource socket (names source)
  | other => other

def Diagnostic.rename (names : Renaming) : Diagnostic → Diagnostic
  | .unknownDefinition block definition => .unknownDefinition (names block) definition
  | .refused block refusal => .refused (names block) (refusal.rename names)
  | .foreignConnection block target => .foreignConnection (names block) (names target)
  | .alreadyLinked block next previous => .alreadyLinked (names block) (names next) (names previous)
  | .disputedPrevious block next recorded => .disputedPrevious (names block) (names next) (names recorded)
  | .dataCycle blocks => .dataCycle (blocks.map names)
  | .build block definition note => .build (names block) definition (note.rename names)

namespace Block
variable (names : Renaming) (block : Block)

theorem setValue_rename (socket : String) (value : Value) :
    (block.rename names).setValue socket value = (block.setValue socket value).map (Block.rename names) := by
  unfold setValue Block.rename
  dsimp only
  split
  · rfl
  · split <;> rfl

theorem attach_rename (connection : Connection) :
    (block.rename names).attach (connection.rename names) = (block.attach connection).rename names := by
  have same : (block.inputs.map (Connection.rename names)).put connection.socket (connection.rename names) =
      (block.inputs.put connection.socket connection).map (Connection.rename names) :=
    Table.put_rename (.refl String) (Connection.rename names) block.inputs connection.socket connection
  exact congrArg (fun inputs => { block with inputs := inputs }) same

@[simp] theorem sources_rename : (block.rename names).connections.map Connection.source =
    (block.connections.map Connection.source).map names := by
  simp [connections, Block.rename, Table.values, Table.map, Connection.rename, Function.comp_def]

end Block

namespace Graph
variable (names : Renaming) (graph : Graph)

@[simp] theorem get?_rename (id : String) :
    (graph.rename names).get? (names id) = (graph.get? id).map (Block.rename names) :=
  Table.get?_rename names (Block.rename names) graph.blocks id

@[simp] theorem contains_rename (id : String) : (graph.rename names).contains (names id) = graph.contains id :=
  Table.contains_rename names (Block.rename names) graph.blocks id

@[simp] theorem ids_rename : (graph.rename names).ids = graph.ids.map names :=
  Table.keys_rename names (Block.rename names) graph.blocks

@[simp] theorem next_rename (id : String) :
    (graph.rename names).next.get? (names id) = (graph.next.get? id).map names :=
  Table.get?_rename names names graph.next id

@[simp] theorem previous_rename (id : String) :
    (graph.rename names).previous.get? (names id) = (graph.previous.get? id).map names :=
  Table.get?_rename names names graph.previous id

theorem change_rename {edit editToo : Block → Block} (id : String)
    (same : ∀ block, editToo (block.rename names) = (edit block).rename names) :
    (graph.rename names).change (names id) editToo = (graph.change id edit).rename names :=
  congrArg (fun blocks => (⟨blocks, _, _⟩ : Graph)) (Table.update_rename names _ same graph.blocks id)

theorem dependencies_rename (id : String) :
    (graph.rename names).dependencies (names id) = (graph.dependencies id).map names := by
  unfold dependencies
  rw [get?_rename]
  cases graph.get? id with
  | none => rfl
  | some block =>
      simp only [Option.map_some, Block.sources_rename, next_rename, List.map_append]
      cases graph.next.get? id <;> rfl

-- Searches and walks compare identities with each other only.

theorem search_rename (target : String) (pending unseen : List String) :
    (graph.rename names).search (names target) (pending.map names) (unseen.map names) =
      graph.search target pending unseen := by
  fun_induction search graph target pending unseen with
  | case1 unseen => rw [List.map_nil, search]
  | case2 unseen rest => rw [List.map_cons, search, if_pos rfl]
  | case3 unseen id rest apart present _ ih =>
      have listed : names id ∈ unseen.map names := List.mem_map_of_mem present
      rw [List.map_cons, search, if_neg (names.injective.ne apart), dif_pos listed, dependencies_rename,
        ← List.map_append]
      dsimp only
      rw [← List.map_erase names.injective, ih]
  | case4 unseen id rest apart absent ih =>
      have unlisted : names id ∉ unseen.map names := by
        rwa [List.mem_map_of_injective names.injective]
      rw [List.map_cons, search, if_neg (names.injective.ne apart), dif_neg unlisted, ih]

theorem dependsOn_rename (source target : String) :
    (graph.rename names).dependsOn (names source) (names target) = graph.dependsOn source target := by
  rw [dependsOn, ids_rename, dependsOn, ← search_rename names graph]
  rfl

theorem leadsTo_rename (wanted : String) (unseen : List String) (id : String) :
    (graph.rename names).leadsTo (names wanted) (unseen.map names) (names id) = graph.leadsTo wanted unseen id := by
  fun_induction leadsTo graph wanted unseen id with
  | case1 unseen => rw [leadsTo, if_pos rfl]
  | case2 unseen id apart present _ last =>
      have listed : names id ∈ unseen.map names := List.mem_map_of_mem present
      rw [leadsTo, if_neg (names.injective.ne apart), dif_pos listed, next_rename, last]
      rfl
  | case3 unseen id apart present _ next follows ih =>
      have listed : names id ∈ unseen.map names := List.mem_map_of_mem present
      rw [leadsTo, if_neg (names.injective.ne apart), dif_pos listed, next_rename, follows]
      dsimp only [Option.map_some]
      rw [← List.map_erase names.injective, ih]
  | case4 unseen id apart absent =>
      have unlisted : names id ∉ unseen.map names := by
        rwa [List.mem_map_of_injective names.injective]
      rw [leadsTo, if_neg (names.injective.ne apart), dif_neg unlisted]

theorem chainReaches_rename (start wanted : String) :
    (graph.rename names).chainReaches (names start) (names wanted) = graph.chainReaches start wanted := by
  have keys : (graph.rename names).next.keys = graph.next.keys.map names := Table.keys_rename names names graph.next
  rw [chainReaches, keys, leadsTo_rename, chainReaches]

-- Every operation gives the renamed graph or the renamed refusal.

def renameResult : Except Refusal Graph → Except Refusal Graph
  | .ok graph => .ok (graph.rename names)
  | .error refusal => .error (refusal.rename names)

theorem add_rename (id : String) (definition : Definition) (position : Position) :
    (graph.rename names).add (names id) definition position =
      (graph.add id definition position).map (Graph.rename names) := by
  unfold add
  rw [contains_rename]
  split
  · rfl
  · exact congrArg (fun blocks => some (⟨blocks, _, _⟩ : Graph))
      (Table.put_rename names (Block.rename names) graph.blocks id (.fresh definition position))

theorem setValue_rename (id socket : String) (value : Value) :
    (graph.rename names).setValue (names id) socket value = renameResult names (graph.setValue id socket value) := by
  unfold setValue
  rw [get?_rename]
  cases graph.get? id with
  | none => rfl
  | some block =>
      simp only [Option.map_some, Block.setValue_rename]
      cases kept : block.setValue socket value with
      | error refusal =>
          have own : refusal.rename names = refusal := by
            unfold Block.setValue at kept
            split at kept
            · cases kept
              rfl
            · split at kept
              · cases kept
              · cases kept
                rfl
          simp only [Except.map, renameResult, own]
      | ok changed =>
          exact congrArg (fun blocks => Except.ok (⟨blocks, _, _⟩ : Graph))
            (Table.put_rename names (Block.rename names) graph.blocks id changed)

theorem connectRefusal?_rename (target socket source : String) :
    (graph.rename names).connectRefusal? (names target) socket (names source) =
      (graph.connectRefusal? target socket source).map (Refusal.rename names) := by
  unfold connectRefusal?
  rw [get?_rename, get?_rename, dependsOn_rename]
  cases graph.get? target with
  | none => rfl
  | some targetBlock =>
      cases graph.get? source with
      | none => rfl
      | some sourceBlock =>
          simp only [Option.map_some, Block.rename]
          split
          · rfl
          · split
            · rfl
            · split
              · rfl
              · split <;> rfl

theorem connect_rename (target socket source : String) :
    (graph.rename names).connect (names target) socket (names source) =
      renameResult names (graph.connect target socket source) := by
  unfold connect
  rw [connectRefusal?_rename]
  cases graph.connectRefusal? target socket source with
  | some refusal => rfl
  | none =>
      exact congrArg Except.ok
        (change_rename names graph target fun block => block.attach_rename names ⟨source, target, socket⟩)

theorem link_rename (id next : String) :
    (graph.rename names).link (names id) (names next) = (graph.link id next).rename names := by
  simp only [link, rename, Table.put_rename]

theorem unlinkNext_rename (id : String) :
    (graph.rename names).unlinkNext (names id) = (graph.unlinkNext id).rename names := by
  unfold unlinkNext
  rw [next_rename]
  cases graph.next.get? id with
  | none => rfl
  | some next => simp only [Option.map_some, rename, Table.erase_rename]

theorem unlinkBefore_rename (id : String) :
    (graph.rename names).unlinkBefore (names id) = (graph.unlinkBefore id).rename names := by
  unfold unlinkBefore
  rw [previous_rename]
  cases graph.previous.get? id with
  | none => rfl
  | some previous => exact unlinkNext_rename names graph previous

theorem linkRefusal?_rename (id next : String) :
    (graph.rename names).linkRefusal? (names id) (names next) =
      (graph.linkRefusal? id next).map (Refusal.rename names) := by
  unfold linkRefusal?
  rw [get?_rename, get?_rename, chainReaches_rename]
  cases graph.get? id with
  | none => rfl
  | some block =>
      cases graph.get? next with
      | none => rfl
      | some nextBlock =>
          simp only [Option.map_some, Block.rename]
          split
          · rfl
          · split
            · rfl
            · split <;> rfl

theorem setNext_rename (id next : String) :
    (graph.rename names).setNext (names id) (some (names next)) = renameResult names (graph.setNext id (some next)) := by
  simp only [setNext]
  rw [linkRefusal?_rename]
  cases graph.linkRefusal? id next with
  | some refusal => rfl
  | none =>
      simp only [Option.map_none, unlinkNext_rename, unlinkBefore_rename, link_rename, renameResult]

namespace Restoring
variable (state : Restoring)

def rename : Restoring := ⟨state.graph.rename names, state.notes.map (Diagnostic.rename names)⟩

theorem graph_rename : (state.rename names).graph = state.graph.rename names := rfl

theorem note_rename (diagnostic : Diagnostic) :
    (state.rename names).note (diagnostic.rename names) = (state.note diagnostic).rename names := by
  simp [note, rename]

theorem attempt_rename (id : String) (result : Except Refusal Graph) :
    (state.rename names).attempt (names id) (renameResult names result) = (state.attempt id result).rename names := by
  cases result with
  | ok graph => rfl
  | error refusal => exact note_rename names state (.refused id refusal)

-- A pass over renamed items, when each of its steps goes along with the renaming.
theorem foldl_rename {α : Type} {pass passToo : Restoring → α → Restoring} {change : α → α}
    (step : ∀ state item, passToo (state.rename names) (change item) = (pass state item).rename names)
    (items : List α) :
    (items.map change).foldl passToo (state.rename names) = (items.foldl pass state).rename names := by
  induction items generalizing state with
  | nil => rfl
  | cons item rest ih => rw [List.map_cons, List.foldl_cons, step, ih, List.foldl_cons]

theorem placeValue_rename (id : String) (row : String × Value) :
    placeValue (names id) (state.rename names) row = (placeValue id state row).rename names := by
  rw [placeValue, rename, setValue_rename]
  exact attempt_rename names state id _

theorem placed_rename (catalog : Catalog) (record : BlockRecord) :
    placed catalog (state.rename names) (record.rename names) = (placed catalog state record).rename names := by
  rw [placed_eq, placed_eq]
  dsimp only [BlockRecord.rename]
  cases catalog.get? record.definition with
  | none => exact note_rename names state (.unknownDefinition record.id record.definition)
  | some definition =>
      dsimp only [rename]
      rw [add_rename]
      cases state.graph.add record.id definition record.position with
      | none => rfl
      | some graph =>
          have whole : (record.values.rows.map id).foldl (placeValue (names record.id))
              (rename names ⟨graph, state.notes⟩) = _ :=
            foldl_rename names ⟨graph, state.notes⟩
              (fun state row => placeValue_rename names state record.id row) record.values.rows
          rwa [List.map_id] at whole

theorem connectOne_rename (id : String) (connection : Connection) :
    connectOne (names id) (state.rename names) (connection.rename names) =
      (connectOne id state connection).rename names := by
  by_cases here : connection.target = id
  · have hereToo : (connection.rename names).target = names id := congrArg names here
    rw [connectOne, if_pos hereToo, connectOne, if_pos here]
    dsimp only [rename, Connection.rename]
    rw [connect_rename]
    exact attempt_rename names state id _
  · have elsewhere : (connection.rename names).target ≠ names id := names.injective.ne here
    rw [connectOne, if_neg elsewhere, connectOne, if_neg here]
    exact note_rename names state (.foreignConnection id connection.target)

theorem connectAll_rename (record : BlockRecord) :
    connectAll (state.rename names) (record.rename names) = (connectAll state record).rename names := by
  unfold connectAll
  have present : (state.rename names).graph.contains (record.rename names).id = state.graph.contains record.id :=
    contains_rename names state.graph record.id
  rw [present]
  split
  · exact foldl_rename names state (fun state connection => connectOne_rename names state record.id connection)
      record.connections
  · rfl

theorem filter_map_ne (found : Option String) (id : String) :
    (found.map names).filter (fun other => other ≠ names id) = (found.filter fun other => other ≠ id).map names := by
  cases found with
  | none => rfl
  | some other =>
      by_cases same : other = id
      · simp [Option.filter, same]
      · simp [Option.filter, same]

theorem linkNext_rename (claimed : Table (Option String)) (record : BlockRecord) :
    linkNext (claimed.rename names (Option.map names)) (state.rename names) (record.rename names) =
      (linkNext claimed state record).rename names := by
  have own : (record.rename names).id = names record.id := rfl
  have ahead : (record.rename names).next = record.next.map names := rfl
  unfold linkNext
  rw [ahead]
  cases record.next with
  | none => rfl
  | some next =>
      have recorded : ((claimed.rename names (Option.map names)).get? (names next)).bind id =
          ((claimed.get? next).bind id).map names := by
        rw [Table.get?_rename]
        cases claimed.get? next with
        | none => rfl
        | some previous => rfl
      simp only [Option.map_some, own, graph_rename, contains_rename, previous_rename, recorded, filter_map_ne,
        setNext_rename]
      split
      · cases (state.graph.previous.get? next).filter fun linked => linked ≠ record.id with
        | some linked => exact note_rename names state (.alreadyLinked record.id next linked)
        | none =>
            cases ((claimed.get? next).bind id).filter fun recorded => recorded ≠ record.id with
            | some recorded => exact note_rename names state (.disputedPrevious record.id next recorded)
            | none => exact attempt_rename names state record.id _
      · rfl

end Restoring

variable {records : List BlockRecord}

theorem ids_rename_records : (records.map (BlockRecord.rename names)).map BlockRecord.id =
    (records.map BlockRecord.id).map names := by
  simp [BlockRecord.rename, Function.comp_def]

-- Restoring goes along with the renaming, and fails on the same records.
theorem restore_rename (catalog : Catalog) (distinct : (records.map BlockRecord.id).Nodup) :
    ∃ restored, restore catalog records = .ok restored ∧
      restore catalog (records.map (BlockRecord.rename names)) = .ok (restored.rename names) := by
  have distinctToo : ((records.map (BlockRecord.rename names)).map BlockRecord.id).Nodup := by
    rw [ids_rename_records]
    exact distinct.map names.injective
  have claims : (records.map (BlockRecord.rename names)).map (fun record => (record.id, record.previous)) =
      Rows.rename names (Option.map names) (records.map fun record => (record.id, record.previous)) := by
    simp [Rows.rename, BlockRecord.rename, Function.comp_def]
  have placed := Restoring.foldl_rename names .start
    (fun state record => Restoring.placed_rename names state catalog record) records
  have connected := Restoring.foldl_rename names (records.foldl (Restoring.placed catalog) .start)
    (Restoring.connectAll_rename names) records
  have linked := Restoring.foldl_rename names
    (records.foldl Restoring.connectAll (records.foldl (Restoring.placed catalog) .start))
    (fun state record => Restoring.linkNext_rename names state
      (Table.ofRows (records.map fun record => (record.id, record.previous))) record) records
  refine ⟨_, restore_of_distinct distinct, ?_⟩
  rw [restore_of_distinct distinctToo, Restoring.ofRecords, Restoring.ofRecords]
  rw [claims, Table.ofRows_rename, ← linked, ← connected, ← placed]
  rfl

end Graph
end BlockCanvas
