import BlockCanvas.Graph.Command
import BlockCanvas.Proofs.Restoring
namespace BlockCanvas

theorem Catalog.id_of_get? {catalog : Catalog} {key : String} {definition : Definition}
    (found : catalog.get? key = some definition) : definition.id = key :=
  (catalog.keyed (key, definition) (Table.mem_rows_iff.mpr found)).symm

-- The definition is the one that the catalog has under its id.
def Definition.Known (catalog : Catalog) (definition : Definition) : Prop :=
  catalog.get? definition.id = some definition

theorem Definition.known_of_get? {catalog : Catalog} {key : String} {definition : Definition}
    (found : catalog.get? key = some definition) : definition.Known catalog := by
  rw [Known, Catalog.id_of_get? found, found]

-- Only add brings a definition of its own; every other command takes definitions from the catalog.
def Command.Known (catalog : Catalog) : Command → Prop
  | .add definition _ _ => definition.Known catalog
  | _ => True

-- Every canvas that commands can lead to. Identities are arbitrary, since add may ask for any.
inductive Reached (catalog : Catalog) : Canvas → Prop where
  | empty : Reached catalog Canvas.empty
  | step : Reached catalog canvas → Command.Known catalog command →
      Reached catalog (canvas.step catalog command).1

namespace Graph

-- The single changes of a graph that are made when they are accepted. Restoring makes many of them.
inductive Change (catalog : Catalog) : Graph → Graph → Prop where
  | add {id : String} (known : definition.Known catalog)
      (added : graph.add id definition position = some changed) : Change catalog graph changed
  | delete {id : String} (present : graph.contains id = true) : Change catalog graph (graph.delete id)
  | setValue {id : String} (accepted : graph.setValue id socket value = .ok changed) :
      Change catalog graph changed
  | clearValue {id : String} : Change catalog graph (graph.clearValue id socket)
  | move {id : String} : Change catalog graph (graph.move id position)
  | connect (accepted : graph.connect target socket source = .ok changed) : Change catalog graph changed
  | disconnect {id : String} : Change catalog graph (graph.disconnect id socket)
  | setNext {id : String} (accepted : graph.setNext id wanted = .ok changed) : Change catalog graph changed

inductive Grown (catalog : Catalog) : Graph → Prop where
  | empty : Grown catalog Graph.empty
  | change : Grown catalog graph → Change catalog graph changed → Grown catalog changed

variable {catalog : Catalog} {graph changed : Graph} {id : String}

-- Apart from adding, deleting and linking, a change edits one block in place and keeps its definition.
theorem Change.kind (step : Change catalog graph changed) :
    (∃ id definition position, definition.Known catalog ∧ graph.add id definition position = some changed) ∨
    (∃ id, graph.contains id = true ∧ graph.delete id = changed) ∨
    (∃ id edit, graph.change id edit = changed ∧ ∀ block, (edit block).definition = block.definition) ∨
    ∃ id wanted, graph.setNext id wanted = .ok changed := by
  cases step with
  | add known added => exact .inl ⟨_, _, _, known, added⟩
  | delete present => exact .inr (.inl ⟨_, present, rfl⟩)
  | setValue accepted =>
      obtain ⟨_, _, _, _, _, rfl⟩ := setValue_eq_ok_iff.mp accepted
      exact .inr (.inr (.inl ⟨_, _, rfl, fun _ => rfl⟩))
  | clearValue => exact .inr (.inr (.inl ⟨_, _, rfl, fun _ => rfl⟩))
  | move => exact .inr (.inr (.inl ⟨_, _, rfl, fun _ => rfl⟩))
  | connect accepted =>
      obtain ⟨_, _, _, _, _, _, _, _, _, _, rfl⟩ := connect_eq_ok_iff.mp accepted
      exact .inr (.inr (.inl ⟨_, _, rfl, fun _ => rfl⟩))
  | disconnect => exact .inr (.inr (.inl ⟨_, _, rfl, fun _ => rfl⟩))
  | setNext accepted => exact .inr (.inr (.inr ⟨_, _, accepted⟩))

theorem Change.known {definition : Definition} (step : Change catalog graph changed)
    (old : ∀ id definition, graph.definition? id = some definition → definition.Known catalog)
    (found : changed.definition? id = some definition) : definition.Known catalog := by
  rcases step.kind with ⟨_, _, _, known, added⟩ | ⟨_, _, rfl⟩ | ⟨_, _, rfl, same⟩ | ⟨_, _, accepted⟩
  · rw [definition?_add added] at found
    split at found
    · cases found
      exact known
    · exact old _ _ found
  · rw [definition?_delete] at found
    split at found
    · cases found
    · exact old _ _ found
  · rw [definition?_change same] at found
    exact old _ _ found
  · rw [definition?_of_blocks (blocks_setNext accepted)] at found
    exact old _ _ found

theorem Grown.known {definition : Definition} (grown : Grown catalog graph)
    (found : graph.definition? id = some definition) : definition.Known catalog := by
  induction grown generalizing id definition with
  | empty => cases found
  | change _ step ih => exact step.known (fun _ _ present => ih present) found

namespace Restoring
variable {state : Restoring}

theorem grown_foldl {step : Restoring → α → Restoring}
    (keeps : ∀ state item, Grown catalog state.graph → Grown catalog (step state item).graph)
    (items : List α) (grown : Grown catalog state.graph) :
    Grown catalog (items.foldl step state).graph := by
  induction items generalizing state with
  | nil => exact grown
  | cons item rest ih => exact ih (keeps state item grown)

theorem grown_attempt {result : Except Refusal Graph} (grown : Grown catalog state.graph)
    (changed : ∀ next, result = .ok next → Change catalog state.graph next) :
    Grown catalog (state.attempt id result).graph := by
  cases result with
  | error refusal => exact grown
  | ok next => exact grown.change (changed next rfl)

theorem grown_placeValue (state : Restoring) (row : String × Value) (grown : Grown catalog state.graph) :
    Grown catalog (placeValue id state row).graph :=
  grown_attempt grown fun _ accepted => .setValue accepted

theorem grown_placed (state : Restoring) (record : BlockRecord) (grown : Grown catalog state.graph) :
    Grown catalog (placed catalog state record).graph := by
  rw [placed_eq]
  split
  · exact grown
  · rename_i definition found
    split
    · exact grown
    · rename_i next added
      exact grown_foldl grown_placeValue record.values.rows
        (grown.change (.add (Definition.known_of_get? found) added))

theorem grown_connectOne (state : Restoring) (connection : Connection) (grown : Grown catalog state.graph) :
    Grown catalog (connectOne id state connection).graph := by
  unfold connectOne
  split
  · exact grown_attempt grown fun _ accepted => .connect accepted
  · exact grown

theorem grown_connectAll (state : Restoring) (record : BlockRecord) (grown : Grown catalog state.graph) :
    Grown catalog (connectAll state record).graph := by
  unfold connectAll
  split
  · exact grown_foldl grown_connectOne record.connections grown
  · exact grown

theorem grown_linkNext {claimed : Table (Option String)} (state : Restoring) (record : BlockRecord)
    (grown : Grown catalog state.graph) : Grown catalog (linkNext claimed state record).graph := by
  unfold linkNext
  split
  · exact grown
  · split
    · split
      · exact grown
      · split
        · exact grown
        · exact grown_attempt grown fun _ accepted => .setNext accepted
    · exact grown

end Restoring

theorem restore_grown {records : List BlockRecord} {restored : Restoring}
    (accepted : restore catalog records = .ok restored) : Grown catalog restored.graph := by
  obtain ⟨_, rfl⟩ := restore_eq_ok_iff.mp accepted
  have start : Grown catalog Restoring.start.graph := .empty
  have placed := Restoring.grown_foldl Restoring.grown_placed records start
  have connected := Restoring.grown_foldl Restoring.grown_connectAll records placed
  exact Restoring.grown_foldl Restoring.grown_linkNext records connected

end Graph

namespace Canvas
variable {catalog : Catalog} {canvas : Canvas}

theorem grown_add {definition : Definition} {position : Option Position} {requested : Option String}
    (grown : canvas.graph.Grown catalog) (known : definition.Known catalog) :
    (canvas.add definition position requested).1.graph.Grown catalog := by
  unfold add
  dsimp only
  split
  · exact grown
  · rename_i next added
    exact grown.change (.add known added)

theorem grown_judge {result : Except Refusal Graph} (grown : canvas.graph.Grown catalog)
    (changed : ∀ next, result = .ok next → canvas.graph.Change catalog next) :
    (canvas.judge result).1.graph.Grown catalog := by
  cases result with
  | error refusal => exact grown
  | ok next => exact grown.change (changed next rfl)

theorem grown_move {id : String} {x y : Json} (grown : canvas.graph.Grown catalog) :
    (canvas.move id x y).1.graph.Grown catalog := by
  unfold move
  split
  · split
    · exact grown.change .move
    · exact grown
  · exact grown

theorem grown_step {command : Command} (grown : canvas.graph.Grown catalog)
    (known : command.Known catalog) : (canvas.step catalog command).1.graph.Grown catalog := by
  cases command with
  | create definition position =>
      simp only [step]
      split
      · exact grown
      · rename_i found present
        exact grown_add grown (Definition.known_of_get? present)
  | add definition position id => exact grown_add grown known
  | delete id =>
      simp only [step]
      split
      · rename_i present
        exact grown.change (.delete present)
      · exact grown
  | clear => exact .empty
  | setValue id socket value => exact grown_judge grown fun _ accepted => .setValue accepted
  | clearValue id socket => exact grown.change .clearValue
  | move id x y => exact grown_move grown
  | connect target socket source => exact grown_judge grown fun _ accepted => .connect accepted
  | disconnect id socket => exact grown.change .disconnect
  | setNext id next => exact grown_judge grown fun _ accepted => .setNext accepted
  | restore records =>
      simp only [step]
      split
      · rename_i restored accepted
        exact Graph.restore_grown accepted
      · exact grown
      · exact grown

end Canvas

def Canvas.run (catalog : Catalog) (commands : List Command) : Canvas :=
  commands.foldl (fun canvas command => (canvas.step catalog command).1) Canvas.empty

theorem reached_run {commands : List Command} (known : ∀ command ∈ commands, command.Known catalog) :
    Reached catalog (Canvas.run catalog commands) := by
  unfold Canvas.run
  generalize start : Canvas.empty = canvas
  have path : Reached catalog canvas := start ▸ .empty
  clear start
  induction commands generalizing canvas with
  | nil => exact path
  | cons command rest ih =>
      exact ih (fun other member => known other (List.mem_cons_of_mem command member)) _
        (path.step (known command List.mem_cons_self))

-- What single changes keep, commands keep.
theorem Reached.grown (path : Reached catalog canvas) : canvas.graph.Grown catalog := by
  induction path with
  | empty => exact .empty
  | step _ known ih => exact Canvas.grown_step ih known

end BlockCanvas
