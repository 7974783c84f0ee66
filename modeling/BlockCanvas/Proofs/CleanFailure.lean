import BlockCanvas.Proofs.InPlace
import BlockCanvas.Proofs.Recompile
namespace BlockCanvas

theorem Table.ext_get? {α : Type} {left right : Table α} (keys : left.keys = right.keys)
    (same : ∀ key, left.get? key = right.get? key) : left = right := by
  apply Table.ext
  rw [← List.map_id left.rows]
  apply Graph.map_eq_of_keys keys
  intro row listed other also equal
  have found := Table.mem_rows_iff.mp listed
  rw [same, equal, Table.mem_rows_iff.mp also] at found
  exact Prod.ext equal (Option.some.inj found).symm

-- Every connection stands at the socket that it names.
def Graph.Keyed (graph : Graph) : Prop :=
  ∀ id block, graph.get? id = some block → ∀ row ∈ block.inputs.rows, row.2.socket = row.1

theorem Graph.Keyed.dropSource {start : Graph} (keyed : start.Keyed) (source id : String) :
    (start.change id fun block => block.dropSource source).Keyed := by
  intro other block found row listed
  rw [Graph.get?_change] at found
  split_ifs at found with same
  · obtain ⟨before, here, rfl⟩ := Option.map_eq_some_iff.mp found
    exact keyed other before here row (List.mem_of_mem_filter listed)
  · exact keyed other block found row listed

theorem Reached.keyed {catalog : Catalog} {canvas : Canvas} (path : Reached catalog canvas) : canvas.graph.Keyed :=
  fun _ _ found => path.grown.wired.keyed found

namespace InPlace
variable {start : Graph} {source id : String} {block : Block}

def eraseFrom (source : String) (inputs : Table Connection) (connection : Connection) : Table Connection :=
  if connection.source = source then inputs.erase connection.socket else inputs

theorem rows_foldl_eraseFrom (source : String) (connections : List Connection) (inputs : Table Connection) :
    (connections.foldl (eraseFrom source) inputs).rows =
      inputs.rows.filter fun row => ∀ connection ∈ connections, connection.source = source → connection.socket ≠ row.1 := by
  induction connections generalizing inputs with
  | nil => simp
  | cons connection rest ih =>
      rw [List.foldl_cons, ih, eraseFrom]
      by_cases hit : connection.source = source
      · rw [if_pos hit]
        change (inputs.rows.filter _).filter _ = _
        rw [List.filter_filter]
        apply List.filter_congr
        intro row _
        rw [← Bool.decide_and, decide_eq_decide, List.forall_mem_cons]
        constructor
        · rintro ⟨later, apart⟩
          exact ⟨fun _ => apart.symm, later⟩
        · rintro ⟨first, later⟩
          exact ⟨later, (first hit).symm⟩
      · simp [hit]

-- At each socket that a connection names stands that connection, so erasing by socket hits no other.
theorem foldl_eraseFrom {inputs : Table Connection} (keyed : ∀ row ∈ inputs.rows, row.2.socket = row.1) :
    inputs.values.foldl (eraseFrom source) inputs = inputs.filter fun connection => connection.source ≠ source := by
  apply Table.ext
  rw [rows_foldl_eraseFrom]
  apply List.filter_congr
  intro row listed
  rw [decide_eq_decide]
  constructor
  · intro kept equal
    exact kept row.2 (List.mem_map_of_mem listed) equal (keyed row listed)
  · intro apart connection among equal clash
    obtain ⟨other, also, rfl⟩ := List.mem_map.mp among
    have found := Table.mem_rows_iff.mp also
    rw [← keyed other also, clash, Table.mem_rows_iff.mp listed] at found
    rw [Option.some.inj found] at apart
    exact apart equal

theorem foldl_disconnect (connections : List Connection) (present : start.get? id = some block) :
    connections.foldl (fun graph connection =>
      if connection.source = source then graph.disconnect id connection.socket else graph) start =
      start.change id fun block => { block with inputs := connections.foldl (eraseFrom source) block.inputs } := by
  induction connections generalizing start block with
  | nil => exact (Graph.change_eq_self present rfl).symm
  | cons connection rest ih =>
      rw [List.foldl_cons]
      by_cases hit : connection.source = source
      · have found : (start.disconnect id connection.socket).get? id = some (block.detach connection.socket) := by
          simp [Graph.disconnect, present]
        rw [if_pos hit, ih found, Graph.disconnect, Graph.change_change]
        simp [Block.detach, eraseFrom, hit]
      · rw [if_neg hit, ih present]
        simp [eraseFrom, hit]

theorem detached_eq (keyed : start.Keyed) (source id : String) :
    detached source start id = start.change id fun block => block.dropSource source := by
  unfold detached
  cases found : start.get? id with
  | none => exact (change_absent found _).symm
  | some block =>
      dsimp only
      rw [foldl_disconnect _ found]
      apply Graph.change_congr found
      rw [Block.dropSource, ← foldl_eraseFrom (keyed id block found)]
      rfl

-- The loop passes each block once.
theorem foldl_detached {ids : List String} (distinct : ids.Nodup) (keyed : start.Keyed) (source : String) :
    ids.foldl (detached source) start = { start with blocks := (ids.foldl (detached source) start).blocks } ∧
    (ids.foldl (detached source) start).ids = start.ids ∧
    ∀ wanted, (ids.foldl (detached source) start).get? wanted =
      if wanted ∈ ids then (start.get? wanted).map fun block => block.dropSource source else start.get? wanted := by
  induction ids generalizing start with
  | nil => simp
  | cons id rest ih =>
      obtain ⟨apart, distinct⟩ := List.nodup_cons.mp distinct
      obtain ⟨links, ids, gets⟩ := ih distinct (keyed.dropSource source id)
      rw [List.foldl_cons, detached_eq keyed]
      refine ⟨links, ids.trans (Graph.ids_change start id _), ?_⟩
      intro wanted
      rw [gets, Graph.get?_change]
      by_cases same : id = wanted
      · subst same
        simp [apart]
      · simp [same, Ne.symm same]

theorem delete_in_place (keyed : start.Keyed) (id : String) :
    Write.apply ((start.spliceOut id).ids.foldl (detached id) (start.spliceOut id)) (.dropBlock id) = start.delete id := by
  have spliced : (start.spliceOut id).Keyed := by
    intro other block found
    exact keyed other block (by simpa [Graph.get?] using found)
  obtain ⟨links, ids, gets⟩ := foldl_detached (start.spliceOut id).ids_nodup spliced id
  have blocks : ((start.spliceOut id).ids.foldl (detached id) (start.spliceOut id)).blocks =
      (start.spliceOut id).blocks.map fun block => block.dropSource id := by
    refine Table.ext_get? ?_ ?_
    · refine ids.trans ?_
      simp [Graph.ids, Table.keys, Table.map, Rows.keys, Function.comp_def]
    · intro wanted
      rw [Table.get?_map]
      refine (gets wanted).trans ?_
      split_ifs with listed
      · rfl
      · have absent := Table.get?_eq_none_iff.mpr listed
        rw [Graph.get?, absent, Option.map_none]
  rw [links, blocks]
  rfl

end InPlace

-- Thrown or returned, the outcome is told.
def InPlace.ended : EStateM.Result Outcome Bench Outcome → Bench × Outcome
  | .ok outcome bench => (bench, outcome)
  | .error outcome bench => (bench, outcome)

theorem InPlace.ended_of_thrown {α : Type} {action : InPlace α} {bench after : Bench} {outcome : Outcome}
    (thrown : action bench = .error outcome after) (name : α → Outcome) : ended ((name <$> action) bench) = (after, outcome) := by
  change ended (EStateM.map name action bench) = _
  rw [EStateM.map, thrown, ended]

namespace Canvas
variable {catalog : Catalog} {canvas : Canvas} {command : Command} {outcome : Outcome} {rest : Graph} {supply : Supply}

def bench (canvas : Canvas) : Bench := ⟨canvas, []⟩

def inPlace (catalog : Catalog) (canvas : Canvas) (command : Command) : Bench × Outcome :=
  InPlace.ended (InPlace.perform catalog command canvas.bench)

-- Worked out write by write, a command has the outcome of its step; and with a failure nothing was written.
structure WorksOut (catalog : Catalog) (canvas : Canvas) (command : Command) : Prop where
  outcome : (canvas.inPlace catalog command).2 = (canvas.step catalog command).2
  agrees : canvas.graph.Keyed → (canvas.inPlace catalog command).1.toCanvas = (canvas.step catalog command).1
  failed : (canvas.inPlace catalog command).2.succeeded = false →
    (canvas.inPlace catalog command).1.writes = [] ∧ (canvas.inPlace catalog command).1.graph = canvas.graph ∧
      (canvas.step catalog command).1.graph = canvas.graph

theorem worksOut_of_success {bench : Bench} (ended : canvas.inPlace catalog command = (bench, outcome))
    (good : outcome.succeeded = true) (told : (canvas.step catalog command).2 = outcome)
    (same : canvas.graph.Keyed → bench.toCanvas = (canvas.step catalog command).1) : WorksOut catalog canvas command := by
  refine ⟨by rw [ended, told], fun keyed => by rw [ended, same keyed], ?_⟩
  intro failed
  rw [ended, good] at failed
  cases failed

theorem worksOut_of_failure (ended : canvas.inPlace catalog command = (⟨⟨canvas.graph, supply⟩, []⟩, outcome))
    (stepped : canvas.step catalog command = (⟨canvas.graph, supply⟩, outcome)) : WorksOut catalog canvas command := by
  refine ⟨by rw [ended, stepped], fun _ => by rw [ended, stepped], ?_⟩
  intro _
  rw [ended, stepped]
  exact ⟨rfl, rfl, rfl⟩

theorem worksOut_of_leaves (leaves : InPlace.Leaves (InPlace.perform catalog command) canvas.graph outcome rest)
    (good : outcome.succeeded = true) (told : (canvas.step catalog command).2 = outcome)
    (same : canvas.graph.Keyed → ⟨rest, canvas.supply⟩ = (canvas.step catalog command).1) :
    WorksOut catalog canvas command := by
  obtain ⟨writes, rfl, acts⟩ := leaves
  have ended : canvas.inPlace catalog command = (canvas.bench.after writes, outcome) := by
    rw [inPlace, acts canvas.bench rfl, InPlace.ended]
  exact worksOut_of_success ended good told same

theorem worksOut_of_quiet (quiet : InPlace.Quiet (InPlace.perform catalog command) canvas.graph outcome)
    (stepped : canvas.step catalog command = (canvas, outcome)) : WorksOut catalog canvas command := by
  have ended : canvas.inPlace catalog command = (canvas.bench, outcome) := by
    rw [inPlace, quiet canvas.bench rfl, InPlace.ended]
  exact worksOut_of_failure ended stepped

theorem worksOut_of_answers {action : InPlace (Option Refusal)} {result : Except Refusal Graph}
    (performs : InPlace.perform catalog command = Outcome.verdict <$> action)
    (answers : InPlace.Answers action canvas.graph result)
    (stepped : canvas.step catalog command = canvas.judge result) : WorksOut catalog canvas command := by
  cases result with
  | error refusal =>
      have quiet : InPlace.Quiet (InPlace.perform catalog command) canvas.graph (.verdict (some refusal)) := by
        rw [performs]
        exact InPlace.Quiet.map answers Outcome.verdict
      exact worksOut_of_quiet quiet stepped
  | ok rest =>
      have leaves : InPlace.Leaves (InPlace.perform catalog command) canvas.graph (.verdict none) rest := by
        rw [performs]
        exact InPlace.Leaves.map answers Outcome.verdict
      exact worksOut_of_leaves leaves rfl (by rw [stepped, judge]) fun _ => by rw [stepped, judge]

-- The id is drawn before it is looked up, so that a new one may be spent on a failure.
theorem worksOut_of_add {definition : Definition} {position : Option Position} {requested : Option String}
    (performs : InPlace.perform catalog command = Outcome.created <$> InPlace.add definition position requested)
    (stepped : canvas.step catalog command = canvas.add definition position requested) :
    WorksOut catalog canvas command := by
  rcases drawn : canvas.supply.resolve requested with ⟨id, supply⟩
  have begun : canvas.inPlace catalog command = InPlace.ended
      ((Outcome.created <$> InPlace.putFresh id definition (position.getD .zero)) ⟨⟨canvas.graph, supply⟩, []⟩) := by
    rw [inPlace, performs]
    change InPlace.ended ((Outcome.created <$> InPlace.putFresh (canvas.supply.resolve requested).1 definition _)
      ⟨⟨canvas.graph, (canvas.supply.resolve requested).2⟩, []⟩) = _
    rw [drawn]
  cases found : canvas.graph.get? id with
  | some block =>
      have present := Graph.contains_of_get? found
      have occupied : canvas.add definition position requested = (⟨canvas.graph, supply⟩, .occupied id) := by
        simp [add, drawn, Graph.add, present]
      have thrown : InPlace.putFresh id definition (position.getD .zero) ⟨⟨canvas.graph, supply⟩, []⟩ =
          .error (.occupied id) ⟨⟨canvas.graph, supply⟩, []⟩ := by
        change (if canvas.graph.contains id = true then throw (.occupied id) else _ : InPlace String) _ = _
        rw [if_pos present]
        rfl
      exact worksOut_of_failure (begun.trans (InPlace.ended_of_thrown thrown _)) (stepped.trans occupied)
  | none =>
      obtain ⟨writes, made, acts⟩ := (InPlace.putFresh_leaves found definition (position.getD .zero)).map Outcome.created
      have added := Graph.add_eq_some_iff.mpr ⟨found, made.symm⟩
      have created : canvas.add definition position requested =
          (⟨writes.foldl Write.apply canvas.graph, supply⟩, .created id) := by
        simp only [add, drawn, added]
      refine worksOut_of_success (begun.trans (by rw [acts _ rfl, InPlace.ended])) rfl (by rw [stepped, created]) ?_
      intro _
      rw [stepped, created]
      rfl

theorem worksOut_create (catalog : Catalog) (canvas : Canvas) (definition : String) (position : Option Position) :
    WorksOut catalog canvas (.create definition position) := by
  cases known : catalog.get? definition with
  | none =>
      refine worksOut_of_quiet ?_ (by rw [step, known])
      rw [InPlace.perform, InPlace.create, known]
      exact InPlace.quiet_pure canvas.graph _
  | some found =>
      refine worksOut_of_add ?_ (by rw [step, known])
      rw [InPlace.perform, InPlace.create, known]

theorem worksOut_delete (catalog : Catalog) (canvas : Canvas) (id : String) :
    WorksOut catalog canvas (.delete id) := by
  by_cases present : canvas.graph.contains id = true
  · have leaves := (InPlace.delete_leaves present).map Outcome.deleted
    refine worksOut_of_leaves leaves rfl (by rw [step, if_pos present]) ?_
    intro keyed
    rw [step, if_pos present, InPlace.delete_in_place keyed]
  · have quiet : InPlace.Quiet (InPlace.delete id) canvas.graph false := by
      refine InPlace.Quiet.read ?_
      rw [if_neg present]
      exact InPlace.quiet_pure canvas.graph false
    exact worksOut_of_quiet (quiet.map Outcome.deleted) (by rw [step, if_neg present])

theorem worksOut_move (catalog : Catalog) (canvas : Canvas) (id : String) (x y : Json) :
    WorksOut catalog canvas (.move id x y) := by
  by_cases present : canvas.graph.contains id = true
  · cases checked : Position.check .record (.object [("x", x), ("y", y)]) with
    | refused faults =>
        have thrown : InPlace.move id x y canvas.bench = .error (.badPosition faults) canvas.bench := by
          change (if canvas.graph.contains id = true then _ else _ : InPlace Bool) canvas.bench = _
          rw [if_pos present, checked]
          rfl
        exact worksOut_of_failure (InPlace.ended_of_thrown thrown _) (by rw [step, move, if_pos present, checked])
    | accepted position =>
        have leaves : InPlace.Leaves (InPlace.move id x y) canvas.graph true (canvas.graph.move id position) := by
          refine InPlace.Leaves.read ?_
          rw [if_pos present, checked]
          exact (InPlace.leaves_write _ (.putPosition id position)).bind (InPlace.leaves_pure _ true)
        refine worksOut_of_leaves (leaves.map Outcome.moved) rfl ?_ fun _ => ?_
        · rw [step, move, if_pos present, checked]
        · rw [step, move, if_pos present, checked]
  · have quiet : InPlace.Quiet (InPlace.move id x y) canvas.graph false := by
      refine InPlace.Quiet.read ?_
      rw [if_neg present]
      exact InPlace.quiet_pure canvas.graph false
    exact worksOut_of_quiet (quiet.map Outcome.moved) (by rw [step, move, if_neg present])

theorem worksOut_restore (catalog : Catalog) (canvas : Canvas) (records : List BlockRecord) :
    WorksOut catalog canvas (.restore records) := by
  by_cases distinct : (records.map BlockRecord.id).Nodup
  · have restoring : Graph.restore catalog records = _ := Graph.restore_of_distinct distinct
    have leaves := (InPlace.restore_leaves catalog canvas.graph distinct).map Outcome.restored
    exact worksOut_of_leaves leaves rfl (by rw [step, restoring]) fun _ => by rw [step, restoring]
  · have restoring : Graph.restore catalog records = _ := Graph.restore_eq_error_iff.mpr ⟨distinct, rfl⟩
    have thrown := InPlace.restore_throws catalog distinct canvas.bench
    exact worksOut_of_failure (InPlace.ended_of_thrown thrown _) (by rw [step, restoring])

theorem worksOut (catalog : Catalog) (canvas : Canvas) (command : Command) : WorksOut catalog canvas command := by
  cases command with
  | create definition position => exact worksOut_create catalog canvas definition position
  | add definition position id => exact worksOut_of_add rfl rfl
  | delete id => exact worksOut_delete catalog canvas id
  | clear => exact worksOut_of_leaves ((InPlace.clear_leaves canvas.graph).map _) rfl rfl fun _ => rfl
  | setValue id socket value => exact worksOut_of_answers rfl (InPlace.setValue_answers canvas.graph id socket value) rfl
  | clearValue id socket =>
      exact worksOut_of_leaves ((InPlace.whenPresent_leaves canvas.graph id rfl).map _) rfl rfl fun _ => rfl
  | move id x y => exact worksOut_move catalog canvas id x y
  | connect target socket source =>
      exact worksOut_of_answers rfl (InPlace.connect_answers canvas.graph target socket source) rfl
  | disconnect id socket =>
      exact worksOut_of_leaves ((InPlace.whenPresent_leaves canvas.graph id rfl).map _) rfl rfl fun _ => rfl
  | setNext id next => exact worksOut_of_answers rfl (InPlace.setNext_answers canvas.graph id next) rfl
  | restore records => exact worksOut_restore catalog canvas records

-- Asking whether a connection may be made is no command; it writes nothing, whatever the answer.
structure FailsCleanly (catalog : Catalog) (canvas : Canvas) : Prop where
  command : ∀ command, WorksOut catalog canvas command
  reached : Reached catalog canvas → ∀ command,
    (canvas.inPlace catalog command).1.toCanvas = (canvas.step catalog command).1
  asked : ∀ target socket source, InPlace.mayConnect target socket source canvas.bench =
    .ok (canvas.graph.connectRefusal? target socket source) canvas.bench

end Canvas

theorem canvas_fails_cleanly (catalog : Catalog) (canvas : Canvas) : canvas.FailsCleanly catalog :=
  ⟨Canvas.worksOut catalog canvas, fun path command => (Canvas.worksOut catalog canvas command).agrees path.keyed,
    fun target socket source => InPlace.mayConnect_quiet canvas.graph target socket source canvas.bench rfl⟩

-- No sequence of commands leads here: the links of the two directions do not match, and one leads to no block.
def tornCanvas : Canvas :=
  let canvas := Canvas.run Catalog.builtin sumCommands
  { canvas with graph := { canvas.graph with
      next := .ofRows [("gen-1", "gen-4"), ("gen-2", "gen-1")], previous := .ofRows [("gen-1", "gen-3")] } }

def vainRequests : List Command :=
  [.create "op.none" none, .add (Catalog.arithmetic "op.add" "+" "" 1 []) none (some "gen-1"), .delete "gen-4",
    .setValue "gen-3" "value" (.text "five"), .move "gen-4" (.int 0) (.int 0), .move "gen-1" (.text "left") (.int 0),
    .connect "gen-2" "left" "gen-2", .setNext "gen-1" (some "gen-1"),
    .restore [⟨"a", "io.write", Position.zero, Table.empty, [], none, none⟩,
      ⟨"a", "io.read", Position.zero, Table.empty, [], none, none⟩]]

theorem canvas_fails_cleanly_torn :
    vainRequests.map (fun command => (tornCanvas.inPlace Catalog.builtin command).2.succeeded) = List.replicate 9 false ∧
    ∀ command ∈ vainRequests, (tornCanvas.inPlace Catalog.builtin command).1.writes = [] ∧
      (tornCanvas.inPlace Catalog.builtin command).1.graph = tornCanvas.graph := by
  have failed : vainRequests.map (fun command => (tornCanvas.inPlace Catalog.builtin command).2.succeeded) =
      List.replicate 9 false := by cbv
  refine ⟨failed, ?_⟩
  intro command listed
  have clean := ((canvas_fails_cleanly Catalog.builtin tornCanvas).command command).failed
  obtain ⟨unwritten, same, _⟩ := clean (List.map_eq_replicate_iff.mp failed command listed)
  exact ⟨unwritten, same⟩

end BlockCanvas
