import BlockCanvas.Proofs.DataFlow
import BlockCanvas.Proofs.Sequence
namespace BlockCanvas

def Block.bare (block : Block) : Block := { block with inputs := Table.empty }

theorem Block.foldl_attach_rows {rows : List (String × Connection)} (start : Block)
    (keyed : ∀ row ∈ rows, row.2.socket = row.1) :
    (rows.map Prod.snd).foldl Block.attach start =
      { start with inputs := rows.foldl (fun table row => table.put row.1 row.2) start.inputs } := by
  induction rows generalizing start with
  | nil => rfl
  | cons row rest ih =>
      have own : row.2.socket = row.1 := keyed row List.mem_cons_self
      rw [List.map_cons, List.foldl_cons, ih _ fun other later => keyed other (List.mem_cons_of_mem row later)]
      simp only [Block.attach, own, List.foldl_cons]

theorem Block.foldl_attach {block : Block} (keyed : ∀ row ∈ block.inputs.rows, row.2.socket = row.1) :
    block.connections.foldl Block.attach block.bare = block := by
  have whole : block.inputs.rows.foldl (fun table row => table.put row.1 row.2) Table.empty = block.inputs :=
    Table.ofRows_rows block.inputs
  rw [connections, Table.values, foldl_attach_rows _ keyed, bare]
  simp only [whole]

namespace Graph
open Relation

variable {catalog : Catalog} {whole graph : Graph} {id : String} {block : Block}

def recordOf (graph : Graph) (id : String) (block : Block) : BlockRecord :=
  { id := id
    definition := block.definition.id
    position := block.position
    values := block.values
    connections := block.connections
    next := graph.next.get? id
    previous := graph.previous.get? id }

theorem records_eq (graph : Graph) : graph.records = graph.blocks.rows.map fun row => graph.recordOf row.1 row.2 := rfl

-- Everything that restoring relies on.
structure Sound (catalog : Catalog) (graph : Graph) : Prop where
  wired : Wired graph
  sequenced : Sequenced graph
  known : ∀ id definition, graph.definition? id = some definition → definition.Known catalog

theorem Grown.sound (grown : Grown catalog graph) : Sound catalog graph :=
  ⟨grown.wired, grown.sequenced, fun _ _ found => grown.known found⟩

namespace Restoring
variable {state : Restoring}

theorem foldl_placeValue {definition : Definition} {rows : List (String × Value)}
    (found : state.graph.definition? id = some definition)
    (fits : ∀ row ∈ rows, ∃ input, definition.input? row.1 = some input ∧ input.type.admits row.2 = true) :
    rows.foldl (placeValue id) state =
      { state with graph := state.graph.change id fun block =>
          { block with values := rows.foldl (fun table row => table.put row.1 row.2) block.values } } := by
  induction rows generalizing state with
  | nil =>
      obtain ⟨block, present, _⟩ := get?_of_definition? found
      rw [change_eq_self present rfl]
      rfl
  | cons row rest ih =>
      obtain ⟨block, present, rfl⟩ := get?_of_definition? found
      obtain ⟨input, declared, admitted⟩ := fits row List.mem_cons_self
      have accepted := setValue_eq_ok_iff.mpr ⟨block, input, present, declared, admitted, rfl⟩
      rw [List.foldl_cons, placeValue, accepted, attempt, ih]
      · simp only [change_change, List.foldl_cons]
      · dsimp only
        rw [definition?_change, found]
        exact fun _ => rfl
      · exact fun other later => fits other (List.mem_cons_of_mem row later)

-- A block comes back with everything but its connections.
theorem placed_recordOf (sound : Sound catalog whole) (found : whole.get? id = some block)
    (absent : state.graph.get? id = none) :
    placed catalog state (whole.recordOf id block) =
      { state with graph := { state.graph with blocks := state.graph.blocks.put id block.bare } } := by
  have known : catalog.get? block.definition.id = some block.definition :=
    sound.known id _ (definition?_of_get? found)
  have added := add_eq_some_iff.mpr
    ⟨absent, (rfl : { state.graph with
      blocks := state.graph.blocks.put id (.fresh block.definition block.position) } = _)⟩
  have fits : ∀ row ∈ block.values.rows,
      ∃ input, block.definition.input? row.1 = some input ∧ input.type.admits row.2 = true := by
    intro row member
    exact (sound.wired.fits id block found).value row.1 row.2 (Table.mem_rows_iff.mp member)
  have stored : block.values.rows.foldl (fun table row => table.put row.1 row.2) Table.empty = block.values :=
    Table.ofRows_rows block.values
  simp only [placed_eq, recordOf, known, added]
  rw [foldl_placeValue (by simp [definition?, get?, Block.fresh]) fits]
  simp only [change, Table.update_put, Block.fresh, stored, Block.bare]

end Restoring

-- Holds the same blocks, some of their connections and no links.
structure Part (whole part : Graph) : Prop where
  definition : part.definition? = whole.definition?
  feeds : ∀ source target, part.Feeds source target → whole.Feeds source target
  unlinked : part.next = Table.empty

namespace Part
variable {part : Graph} {socket : String} {connection : Connection}

theorem feeds_of_depends {source target : String} (inside : Part whole part)
    (depends : part.Depends target source) : part.Feeds source target := by
  cases found : part.get? target with
  | none => simp [Depends, dependencies, found] at depends
  | some block =>
      simp only [Depends, dependencies, found, inside.unlinked, Table.get?_empty, Option.toList_none,
        List.append_nil, List.mem_map] at depends
      obtain ⟨connection, listed, rfl⟩ := depends
      obtain ⟨socket, stored⟩ := mem_connections_iff.mp listed
      exact ⟨block, socket, connection, found, stored, rfl⟩

theorem reflTransGen_feeds {source target : String} (inside : Part whole part)
    (way : ReflTransGen part.Depends source target) : ReflTransGen whole.Feeds target source := by
  induction way with
  | refl => exact .refl
  | tail _ depends ih => exact .head (inside.feeds _ _ (inside.feeds_of_depends depends)) ih

-- A connection of the whole closes no circle in a part of it.
theorem connect (inside : Part whole part) (wired : Wired whole) (found : whole.get? id = some block)
    (stored : block.inputs.get? socket = some connection) :
    part.connect id connection.socket connection.source = .ok (part.attach id connection) := by
  obtain ⟨rfl, rfl, giving, output, input, given, out, declared, fit⟩ :=
    (wired.fits id block found).connection socket connection stored
  have definition : part.definition? connection.target = some block.definition := by
    rw [inside.definition, definition?_of_get? found]
  obtain ⟨targetBlock, present, same⟩ := get?_of_definition? definition
  rw [← inside.definition] at given
  obtain ⟨sourceBlock, presentSource, rfl⟩ := get?_of_definition? given
  have clear : part.dependsOn connection.source connection.target = false := by
    apply Bool.eq_false_iff.mpr
    intro circle
    have way := inside.reflTransGen_feeds (dependsOn_iff.mp circle)
    exact wired.acyclic _ (.tail' way ⟨block, connection.socket, connection, found, stored, rfl⟩)
  exact connect_eq_ok_iff.mpr ⟨targetBlock, sourceBlock, input, output, present, presentSource,
    same ▸ declared, out, fit, clear, rfl⟩

theorem attach (inside : Part whole part) (found : whole.get? id = some block)
    (stored : block.inputs.get? socket = some connection) : Part whole (part.attach id connection) := by
  refine ⟨?_, ?_, inside.unlinked⟩
  · rw [Graph.attach, definition?_change, inside.definition]
    exact fun _ => rfl
  · intro source target feeds
    rcases feeds_change feeds with old | ⟨rfl, before, other, held, present, kept, rfl⟩
    · exact inside.feeds source target old
    · rw [Block.attach, Table.get?_put] at kept
      split at kept
      · cases kept
        exact ⟨block, socket, connection, found, stored, rfl⟩
      · exact inside.feeds _ _ ⟨before, other, held, present, kept, rfl⟩

end Part

namespace Restoring
variable {state : Restoring}

theorem foldl_connectOne {connections : List Connection} (wired : Wired whole)
    (found : whole.get? id = some block) (inside : Part whole state.graph)
    (listed : ∀ connection ∈ connections, connection ∈ block.connections) :
    connections.foldl (connectOne id) state =
      { state with graph := state.graph.change id fun block => connections.foldl Block.attach block } := by
  induction connections generalizing state with
  | nil =>
      have definition : state.graph.definition? id = some block.definition := by
        rw [inside.definition, definition?_of_get? found]
      obtain ⟨_, present, _⟩ := get?_of_definition? definition
      rw [change_eq_self present rfl]
      rfl
  | cons connection rest ih =>
      obtain ⟨socket, stored⟩ := mem_connections_iff.mp (listed connection List.mem_cons_self)
      have here : connection.target = id := ((wired.fits id block found).connection socket connection stored).2.1
      rw [List.foldl_cons, connectOne, if_pos here, inside.connect wired found stored, attempt, ih]
      · simp only [Graph.attach, change_change, List.foldl_cons]
      · exact inside.attach found stored
      · exact fun other later => listed other (List.mem_cons_of_mem connection later)

theorem connectAll_recordOf (wired : Wired whole) (found : whole.get? id = some block)
    (inside : Part whole state.graph) (bare : state.graph.get? id = some block.bare) :
    connectAll state (whole.recordOf id block) =
      { state with graph := state.graph.change id fun _ => block } := by
  have keyed : ∀ row ∈ block.inputs.rows, row.2.socket = row.1 := by
    intro row member
    exact ((wired.fits id block found).connection row.1 row.2 (Table.mem_rows_iff.mp member)).1
  have full : (state.graph.change id fun before => block.connections.foldl Block.attach before) =
      state.graph.change id fun _ => block :=
    change_congr bare (Block.foldl_attach keyed)
  simp only [connectAll, recordOf, contains_of_get? bare, if_true]
  rw [foldl_connectOne wired found inside fun _ listed => listed, full]

def Written (whole : Graph) (record : BlockRecord) : Prop :=
  ∃ id block, whole.get? id = some block ∧ record = whole.recordOf id block

-- A pass that keeps its stage on a record of a new id brings it through all the records.
theorem foldl_stage {stage : List BlockRecord → Restoring → Prop} {pass : Restoring → BlockRecord → Restoring}
    {Suits : BlockRecord → Prop} {done rest : List BlockRecord}
    (step : ∀ done state record, stage done state → Suits record → record.id ∉ done.map BlockRecord.id →
      stage (done ++ [record]) (pass state record))
    (start : stage done state) (suits : ∀ record ∈ rest, Suits record)
    (distinct : ((done ++ rest).map BlockRecord.id).Nodup) :
    stage (done ++ rest) (rest.foldl pass state) := by
  induction rest generalizing done state with
  | nil => simpa using start
  | cons record rest ih =>
      have fresh : record.id ∉ done.map BlockRecord.id := by
        rw [List.map_append, List.nodup_append] at distinct
        intro member
        exact distinct.2.2 record.id member record.id List.mem_cons_self rfl
      rw [List.append_cons] at distinct ⊢
      exact ih (step done state record start (suits record List.mem_cons_self) fresh)
        (fun other later => suits other (List.mem_cons_of_mem _ later)) distinct

structure Placed (whole : Graph) (done : List BlockRecord) (state : Restoring) : Prop where
  notes : state.notes = []
  ids : state.graph.ids = done.map BlockRecord.id
  bare : ∀ id block, whole.get? id = some block → id ∈ done.map BlockRecord.id →
    state.graph.get? id = some block.bare
  next : state.graph.next = Table.empty
  previous : state.graph.previous = Table.empty

structure Joined (whole : Graph) (order : List String) (done : List BlockRecord) (state : Restoring) : Prop where
  notes : state.notes = []
  ids : state.graph.ids = order
  absent : ∀ id, whole.get? id = none → state.graph.get? id = none
  full : ∀ id block, whole.get? id = some block → id ∈ done.map BlockRecord.id →
    state.graph.get? id = some block
  bare : ∀ id block, whole.get? id = some block → id ∉ done.map BlockRecord.id →
    state.graph.get? id = some block.bare
  next : state.graph.next = Table.empty
  previous : state.graph.previous = Table.empty

structure Linked (whole : Graph) (order : List String) (done : List BlockRecord) (state : Restoring) : Prop where
  notes : state.notes = []
  ids : state.graph.ids = order
  blocks : ∀ id, state.graph.get? id = whole.get? id
  next : ∀ id, state.graph.next.get? id = if id ∈ done.map BlockRecord.id then whole.next.get? id else none
  sequenced : Sequenced state.graph

variable {done rest : List BlockRecord} {order : List String}

theorem Placed.step (placed : Placed whole done state) (sound : Sound catalog whole)
    (found : whole.get? id = some block) (fresh : id ∉ done.map BlockRecord.id) :
    Placed whole (done ++ [whole.recordOf id block]) (state.placed catalog (whole.recordOf id block)) := by
  have unlisted : id ∉ state.graph.ids := by
    rw [placed.ids]
    exact fresh
  have absent : state.graph.get? id = none := Table.get?_eq_none_iff.mpr unlisted
  rw [placed_recordOf sound found absent]
  refine ⟨placed.notes, ?_, ?_, placed.next, placed.previous⟩
  · rw [List.map_append, ← placed.ids]
    exact Table.keys_put_of_not_mem unlisted
  · intro wanted other present member
    simp only [get?, Table.get?_put]
    by_cases same : id = wanted
    · subst wanted
      rw [found] at present
      cases present
      rw [if_pos rfl]
    · rw [if_neg same]
      apply placed.bare wanted other present
      rw [List.map_append, List.mem_append] at member
      refine member.resolve_right ?_
      intro last
      exact same (List.mem_singleton.mp last).symm

theorem mem_concat_recordOf {wanted : String} :
    wanted ∈ (done ++ [whole.recordOf id block]).map BlockRecord.id ↔
      wanted ∈ done.map BlockRecord.id ∨ wanted = id := by
  rw [List.map_append, List.mem_append]
  exact or_congr_right List.mem_singleton

theorem Joined.part (joined : Joined whole order done state) : Part whole state.graph := by
  have shown : ∀ id block, whole.get? id = some block →
      state.graph.get? id = some block ∨ state.graph.get? id = some block.bare := by
    intro id block found
    by_cases member : id ∈ done.map BlockRecord.id
    · exact Or.inl (joined.full id block found member)
    · exact Or.inr (joined.bare id block found member)
  refine ⟨?_, ?_, joined.next⟩
  · funext id
    cases found : whole.get? id with
    | none => rw [definition?, definition?, joined.absent id found, found]
    | some block =>
        rcases shown id block found with same | bare
        · rw [definition?, definition?, same, found]
        · rw [definition?, definition?, bare, found]
          rfl
  · rintro source target ⟨block, socket, connection, present, stored, given⟩
    cases found : whole.get? target with
    | none =>
        rw [joined.absent target found] at present
        cases present
    | some original =>
        rcases shown target original found with same | bare
        · rw [same] at present
          cases present
          exact ⟨block, socket, connection, found, stored, given⟩
        · rw [bare] at present
          cases present
          simp [Block.bare] at stored

theorem Joined.step (joined : Joined whole order done state) (wired : Wired whole)
    (found : whole.get? id = some block) (fresh : id ∉ done.map BlockRecord.id) :
    Joined whole order (done ++ [whole.recordOf id block]) (connectAll state (whole.recordOf id block)) := by
  rw [connectAll_recordOf wired found joined.part (joined.bare id block found fresh)]
  refine ⟨joined.notes, ?_, ?_, ?_, ?_, joined.next, joined.previous⟩
  · rw [ids_change, joined.ids]
  · intro wanted missing
    rw [get?_change, joined.absent wanted missing]
    split <;> rfl
  · intro wanted other present member
    rw [get?_change]
    by_cases same : id = wanted
    · subst wanted
      rw [found] at present
      cases present
      rw [if_pos rfl, joined.bare id block found fresh]
      rfl
    · rw [if_neg same]
      rcases mem_concat_recordOf.mp member with before | last
      · exact joined.full wanted other present before
      · exact absurd last.symm same
  · intro wanted other present missing
    rw [mem_concat_recordOf, not_or] at missing
    rw [get?_change, if_neg (Ne.symm missing.2)]
    exact joined.bare wanted other present missing.1

-- The links made so far are links of the whole, so the next one finds both of its ends free.
theorem Linked.free {next : String} (linked : Linked whole order done state) (sequenced : Sequenced whole)
    (follows : whole.next.get? id = some next) (fresh : id ∉ done.map BlockRecord.id) :
    state.graph.next.get? id = none ∧ state.graph.previous.get? next = none := by
  refine ⟨by rw [linked.next, if_neg fresh], ?_⟩
  apply Option.eq_none_iff_forall_not_mem.mpr
  intro before behind
  have made : state.graph.next.get? before = some next := (linked.sequenced.inverse before next).mpr behind
  rw [linked.next] at made
  split at made
  · rename_i member
    have one := (sequenced.inverse before next).mp made
    rw [(sequenced.inverse id next).mp follows] at one
    exact fresh (Option.some.inj one ▸ member)
  · cases made

theorem Linked.accepted {next : String} (linked : Linked whole order done state) (sequenced : Sequenced whole)
    (follows : whole.next.get? id = some next) (fresh : id ∉ done.map BlockRecord.id) :
    state.graph.setNext id (some next) = .ok (state.graph.link id next) := by
  obtain ⟨last, root⟩ := linked.free sequenced follows fresh
  obtain ⟨before, after, present, presentNext, canLead, canFollow⟩ := sequenced.capable follows
  have clear : state.graph.chainReaches next id = false := by
    apply Bool.eq_false_iff.mpr
    intro circle
    have part : ∀ first second, state.graph.Follows first second → whole.Follows first second := by
      intro first second made
      rw [Follows, linked.next] at made
      split at made
      · exact made
      · cases made
    have way := ReflTransGen.mono part _ _ (chainReaches_iff.mp circle)
    exact sequenced.acyclic id (.head' follows way)
  refine setNext_some_eq_ok_iff.mpr ⟨before, after, ?_, ?_, canLead, canFollow, clear, ?_⟩
  · rw [linked.blocks, present]
  · rw [linked.blocks, presentNext]
  · rw [unlinkNext_eq_self last, unlinkBefore_eq_self root]

theorem linkNext_recordOf {claimed : Table (Option String)} (linked : Linked whole order done state)
    (sequenced : Sequenced whole) (found : whole.get? id = some block) (fresh : id ∉ done.map BlockRecord.id)
    (claims : ∀ next, whole.next.get? id = some next → claimed.get? next = some (some id)) :
    linkNext claimed state (whole.recordOf id block) =
      match whole.next.get? id with
      | none => state
      | some next => { state with graph := state.graph.link id next } := by
  have present : state.graph.contains id = true := contains_of_get? (by rw [linked.blocks, found])
  cases follows : whole.next.get? id with
  | none => simp [linkNext, recordOf, follows]
  | some next =>
      have root := (linked.free sequenced follows fresh).2
      have accepted := linked.accepted sequenced follows fresh
      simp [linkNext, recordOf, follows, present, root, claims next follows, accepted, attempt, Option.filter]

theorem Linked.step {claimed : Table (Option String)} (linked : Linked whole order done state)
    (sequenced : Sequenced whole) (found : whole.get? id = some block) (fresh : id ∉ done.map BlockRecord.id)
    (claims : ∀ next, whole.next.get? id = some next → claimed.get? next = some (some id)) :
    Linked whole order (done ++ [whole.recordOf id block])
      (linkNext claimed state (whole.recordOf id block)) := by
  rw [linkNext_recordOf linked sequenced found fresh claims]
  cases follows : whole.next.get? id with
  | none =>
      refine ⟨linked.notes, linked.ids, linked.blocks, ?_, linked.sequenced⟩
      intro wanted
      dsimp only
      rw [linked.next]
      by_cases same : wanted = id
      · subst wanted
        simp [fresh, follows]
      · simp only [mem_concat_recordOf, same, or_false]
  | some next =>
      refine ⟨linked.notes, linked.ids, linked.blocks, ?_,
        linked.sequenced.setNext (linked.accepted sequenced follows fresh)⟩
      intro wanted
      dsimp only
      rw [next_link, linked.next]
      by_cases same : id = wanted
      · subst wanted
        rw [if_pos rfl, if_pos (mem_concat_recordOf.mpr (Or.inr rfl)), follows]
      · simp only [mem_concat_recordOf, if_neg same, Ne.symm same, or_false]

end Restoring

theorem records_ids (graph : Graph) : graph.records.map BlockRecord.id = graph.ids := by
  rw [records_eq, List.map_map]
  rfl

theorem mem_records_iff {record : BlockRecord} :
    record ∈ graph.records ↔ ∃ id block, graph.get? id = some block ∧ record = graph.recordOf id block := by
  rw [records_eq, List.mem_map]
  constructor
  · rintro ⟨row, member, rfl⟩
    exact ⟨row.1, row.2, Table.mem_rows_iff.mp member, rfl⟩
  · rintro ⟨id, block, found, rfl⟩
    exact ⟨(id, block), Table.mem_rows_iff.mpr found, rfl⟩

-- Two lists with the same keys, where equal keys mean equal items.
theorem map_eq_of_keys {α β γ : Type} {key : α → γ} {name : β → γ} {write : α → β} {items : List α} {names : List β}
    (same : items.map key = names.map name)
    (agree : ∀ item ∈ items, ∀ other ∈ names, key item = name other → write item = other) :
    items.map write = names := by
  induction items generalizing names with
  | nil => simpa [eq_comm] using same
  | cons item rest ih =>
      cases names with
      | nil => cases same
      | cons other others =>
          obtain ⟨head, tail⟩ := List.cons.inj same
          have first := agree item List.mem_cons_self other List.mem_cons_self head
          have later := ih tail fun one member two also =>
            agree one (List.mem_cons_of_mem item member) two (List.mem_cons_of_mem other also)
          rw [List.map_cons, first, later]

-- A graph with the same blocks and next links writes the same records, in its own order.
theorem Restoring.Linked.records_eq {state : Restoring} {records : List BlockRecord}
    (linked : Restoring.Linked whole (records.map BlockRecord.id) records state) (sequenced : Sequenced whole)
    (order : records.Perm whole.records) : state.graph.records = records := by
  have next : ∀ id, state.graph.next.get? id = whole.next.get? id := by
    intro id
    rw [linked.next]
    split
    · rfl
    · rename_i missing
      symm
      apply Option.eq_none_iff_forall_not_mem.mpr
      intro second follows
      obtain ⟨before, _, present, _⟩ := sequenced.capable follows
      apply missing
      rw [(order.map BlockRecord.id).mem_iff, records_ids]
      exact mem_ids_iff.mpr ⟨before, present⟩
  have previous : ∀ id, state.graph.previous.get? id = whole.previous.get? id := by
    intro id
    ext before
    rw [← linked.sequenced.inverse, ← sequenced.inverse, next]
  apply map_eq_of_keys linked.ids
  intro row member record also same
  obtain ⟨id, block, found, rfl⟩ := mem_records_iff.mp (order.mem_iff.mp also)
  have here : row.1 = id := same
  have present : state.graph.get? id = some row.2 := Table.mem_rows_iff.mp (here ▸ member)
  rw [linked.blocks, found] at present
  cases present
  simp only [recordOf, here, next, previous]

theorem mem_recorded_iff {records : List BlockRecord} (order : records.Perm whole.records) :
    id ∈ records.map BlockRecord.id ↔ ∃ block, whole.get? id = some block := by
  rw [(order.map BlockRecord.id).mem_iff, records_ids, mem_ids_iff]

theorem recorded_nodup {records : List BlockRecord} (order : records.Perm whole.records) :
    (records.map BlockRecord.id).Nodup := by
  rw [(order.map BlockRecord.id).nodup_iff, records_ids]
  exact whole.ids_nodup

theorem Restoring.Placed.joined {state : Restoring} {records : List BlockRecord}
    (placed : Restoring.Placed whole records state) (order : records.Perm whole.records) :
    Restoring.Joined whole (records.map BlockRecord.id) [] state := by
  refine ⟨placed.notes, placed.ids, ?_, by simp, ?_, placed.next, placed.previous⟩
  · intro id missing
    apply Table.get?_eq_none_iff.mpr
    intro member
    have listed : id ∈ state.graph.ids := member
    rw [placed.ids] at listed
    obtain ⟨block, found⟩ := (mem_recorded_iff order).mp listed
    rw [missing] at found
    cases found
  · intro id block found _
    exact placed.bare id block found ((mem_recorded_iff order).mpr ⟨block, found⟩)

theorem Restoring.Joined.linked {state : Restoring} {records : List BlockRecord} {ids : List String}
    (joined : Restoring.Joined whole ids records state) (order : records.Perm whole.records)
    (sequenced : Sequenced state.graph) : Restoring.Linked whole ids [] state := by
  refine ⟨joined.notes, joined.ids, ?_, ?_, sequenced⟩
  · intro id
    cases found : whole.get? id with
    | none => exact joined.absent id found
    | some block => exact joined.full id block found ((mem_recorded_iff order).mpr ⟨block, found⟩)
  · intro id
    rw [joined.next]
    rfl

-- A block that follows another one says so in its own record.
theorem claimed_previous {records : List BlockRecord} {next : String} (sequenced : Sequenced whole)
    (order : records.Perm whole.records) (follows : whole.next.get? id = some next) :
    (Table.ofRows (records.map fun record => (record.id, record.previous))).get? next = some (some id) := by
  obtain ⟨_, after, _, present, _⟩ := sequenced.capable follows
  have written : whole.recordOf next after ∈ records :=
    order.mem_iff.mpr (mem_records_iff.mpr ⟨next, after, present, rfl⟩)
  apply Table.get?_ofRows
  · rw [Rows.keys, List.map_map]
    exact recorded_nodup order
  · refine List.mem_map.mpr ⟨_, written, ?_⟩
    rw [← (sequenced.inverse id next).mp follows]
    rfl

theorem Sound.restore_records {records : List BlockRecord} (sound : Sound catalog whole)
    (order : records.Perm whole.records) :
    ∃ restored, restore catalog records = .ok restored ∧ restored.notes = [] ∧
      restored.graph.records = records := by
  have written : ∀ record ∈ records, Restoring.Written whole record :=
    fun record member => mem_records_iff.mp (order.mem_iff.mp member)
  have distinct := recorded_nodup order
  have start : Restoring.Placed whole [] .start := ⟨rfl, rfl, by simp, rfl, rfl⟩
  have placed := Restoring.foldl_stage
    (fun _ _ _ stage ⟨_, _, found, same⟩ fresh => by
      subst same
      exact Restoring.Placed.step stage sound found fresh) start written distinct
  have joined := Restoring.foldl_stage
    (fun _ _ _ stage ⟨_, _, found, same⟩ fresh => by
      subst same
      exact Restoring.Joined.step stage sound.wired found fresh) (placed.joined order) written distinct
  have grown : Grown catalog (records.foldl Restoring.connectAll
      (records.foldl (Restoring.placed catalog) .start)).graph :=
    Restoring.grown_foldl Restoring.grown_connectAll records
      (Restoring.grown_foldl Restoring.grown_placed records .empty)
  have linked := Restoring.foldl_stage
    (fun _ _ _ stage ⟨_, _, found, same⟩ fresh => by
      subst same
      exact Restoring.Linked.step stage sound.sequenced found fresh
        fun _ follows => claimed_previous sound.sequenced order follows)
    (joined.linked order grown.sequenced) written distinct
  exact ⟨_, restore_of_distinct distinct, linked.notes, linked.records_eq sound.sequenced order⟩

end Graph

variable {catalog : Catalog} {canvas : Canvas}

theorem reached_round_trip {records : List BlockRecord} (path : Reached catalog canvas)
    (order : records.Perm canvas.graph.records) :
    ∃ restored, Graph.restore catalog records = .ok restored ∧ restored.notes = [] ∧
      restored.graph.records = records :=
  path.grown.sound.restore_records order

-- A sum is written and a loop follows.
def loopCommands : List Command :=
  sumCommands ++ [.create "control.while" none, .setNext "gen-1" (some "gen-4")]

theorem reached_round_trip_reversed :
    (Canvas.run Catalog.builtin loopCommands).graph.records.reverse.map
        (fun record => (record.id, record.connections.length, record.next)) =
      [("gen-4", 0, none), ("gen-3", 0, none), ("gen-2", 2, none), ("gen-1", 1, some "gen-4")] ∧
    ∃ restored,
      Graph.restore Catalog.builtin (Canvas.run Catalog.builtin loopCommands).graph.records.reverse = .ok restored ∧
        restored.notes = [] ∧
        restored.graph.records = (Canvas.run Catalog.builtin loopCommands).graph.records.reverse :=
  ⟨by cbv, reached_round_trip (reached_run (by simp [loopCommands, sumCommands, Command.Known]))
    (List.reverse_perm _)⟩

end BlockCanvas
