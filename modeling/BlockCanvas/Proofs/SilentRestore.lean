import BlockCanvas.Proofs.RoundTrip
namespace BlockCanvas

-- The blocks that a record asks for, before and after its connections are made.

def BlockRecord.bareBlock (record : BlockRecord) (definition : Definition) : Block :=
  ⟨definition, record.position, record.values, Table.empty⟩

def BlockRecord.block (record : BlockRecord) (definition : Definition) : Block :=
  record.connections.foldl Block.attach (record.bareBlock definition)

-- Of several connections for one socket, the last one listed stays.
theorem Block.inputs_foldl_attach (connections : List Connection) (block : Block) (socket : String) :
    (connections.foldl Block.attach block).inputs.get? socket =
      (connections.reverse.find? fun connection => connection.socket = socket).or (block.inputs.get? socket) := by
  induction connections using List.reverseRecOn with
  | nil => rfl
  | append_singleton rest last ih =>
      rw [List.foldl_append, List.reverse_append]
      simp only [List.foldl_cons, List.foldl_nil, Block.attach, Table.get?_put, ih, List.reverse_singleton,
        List.singleton_append, List.find?_cons]
      by_cases here : last.socket = socket
      · simp [here]
      · simp [here]

-- Attaching connections changes nothing else about a block.
theorem Block.foldl_attach_frame (connections : List Connection) (block : Block) :
    connections.foldl Block.attach block = { block with inputs := (connections.foldl Block.attach block).inputs } := by
  induction connections generalizing block with
  | nil => rfl
  | cons connection rest ih =>
      rw [List.foldl_cons, ih]
      rfl

namespace Graph

-- The block of a record is there, with its definition, position and values.
def Holds (graph : Graph) (catalog : Catalog) (record : BlockRecord) : Prop :=
  ∃ block, graph.get? record.id = some block ∧ catalog.get? record.definition = some block.definition ∧
    block.position = record.position ∧ block.values = record.values

-- All that a record says is found on the canvas.
structure Kept (catalog : Catalog) (graph : Graph) (record : BlockRecord) : Prop where
  block : graph.Holds catalog record
  connections : ∀ connection ∈ record.connections, graph.connection? record.id connection.socket = some connection
  next : ∀ next, record.next = some next → graph.nextOf? record.id = some next
  previous : ∀ before, record.previous = some before → graph.previousOf? record.id = some before

-- What is found there in any case: of the connections for a socket the last one, and of the links
-- those that some record names as its next, never against what the next record says.
structure Honoured (catalog : Catalog) (records : List BlockRecord) (graph : Graph) (record : BlockRecord) : Prop where
  block : graph.Holds catalog record
  connection : ∀ socket, graph.connection? record.id socket =
    record.connections.reverse.find? fun connection => connection.socket = socket
  next : graph.nextOf? record.id = record.next
  previous : ∀ before, graph.previousOf? record.id = some before ↔
    ∃ other ∈ records, other.id = before ∧ other.next = some record.id
  agreed : ∀ before recorded, graph.previousOf? record.id = some before → record.previous = some recorded →
    before = recorded

namespace Restoring
variable {catalog : Catalog} {state : Restoring} {id : String}

-- Notes are never taken back: a step that ends without any has started without any.

theorem note_ne_nil (state : Restoring) (diagnostic : Diagnostic) : (state.note diagnostic).notes ≠ [] := by
  simp [note]

theorem attempt_silent {result : Except Refusal Graph} (silent : (state.attempt id result).notes = []) :
    ∃ graph, result = .ok graph ∧ state.notes = [] := by
  cases result with
  | error refusal => exact absurd silent (note_ne_nil state _)
  | ok graph => exact ⟨graph, rfl, silent⟩

theorem foldl_clear {pass : Restoring → α → Restoring}
    (step : ∀ state item, (pass state item).notes = [] → state.notes = []) (items : List α)
    (silent : (items.foldl pass state).notes = []) : state.notes = [] := by
  induction items generalizing state with
  | nil => exact silent
  | cons item rest ih => exact step state item (ih silent)

theorem placeValue_clear (state : Restoring) (row : String × Value) (silent : (placeValue id state row).notes = []) :
    state.notes = [] := by
  obtain ⟨_, _, clear⟩ := attempt_silent silent
  exact clear

theorem connectOne_clear (state : Restoring) (connection : Connection)
    (silent : (connectOne id state connection).notes = []) : state.notes = [] := by
  unfold connectOne at silent
  split at silent
  · obtain ⟨_, _, clear⟩ := attempt_silent silent
    exact clear
  · exact absurd silent (note_ne_nil state _)

theorem placed_clear (state : Restoring) (record : BlockRecord) (silent : (placed catalog state record).notes = []) :
    state.notes = [] := by
  rw [placed_eq] at silent
  cases known : catalog.get? record.definition with
  | none =>
      rw [known] at silent
      exact absurd silent (note_ne_nil state _)
  | some definition =>
      rw [known] at silent
      cases added : state.graph.add record.id definition record.position with
      | none =>
          simp only [added] at silent
          exact silent
      | some graph =>
          simp only [added] at silent
          have clear : ({ state with graph := graph } : Restoring).notes = [] :=
            foldl_clear placeValue_clear record.values.rows silent
          exact clear

theorem connectAll_clear (state : Restoring) (record : BlockRecord) (silent : (connectAll state record).notes = []) :
    state.notes = [] := by
  unfold connectAll at silent
  split at silent
  · exact foldl_clear connectOne_clear _ silent
  · exact silent

theorem linkNext_clear {claimed : Table (Option String)} (state : Restoring) (record : BlockRecord)
    (silent : (linkNext claimed state record).notes = []) : state.notes = [] := by
  unfold linkNext at silent
  repeat' split at silent
  · exact silent
  · exact absurd silent (note_ne_nil state _)
  · exact absurd silent (note_ne_nil state _)
  · obtain ⟨_, _, clear⟩ := attempt_silent silent
    exact clear
  · exact silent

-- And it does what it was asked.

theorem placeValues_silent {definition : Definition} {rows : List (String × Value)}
    (found : state.graph.definition? id = some definition) (silent : (rows.foldl (placeValue id) state).notes = []) :
    ∀ row ∈ rows, ∃ input, definition.input? row.1 = some input ∧ input.type.admits row.2 = true := by
  induction rows generalizing state with
  | nil => exact List.forall_mem_nil _
  | cons row rest ih =>
      obtain ⟨graph, accepted, _⟩ := attempt_silent (foldl_clear placeValue_clear rest silent)
      have taken : placeValue id state row = { state with graph := graph } := by
        rw [placeValue, accepted]
        rfl
      obtain ⟨block, input, present, declared, admitted, rfl⟩ := setValue_eq_ok_iff.mp accepted
      rw [definition?_of_get? present] at found
      cases found
      have still : (placeValue id state row).graph.definition? id = some block.definition := by
        rw [taken]
        dsimp only
        rw [definition?_change, definition?_of_get? present]
        exact fun _ => rfl
      intro other listed
      rcases List.mem_cons.mp listed with rfl | later
      · exact ⟨input, declared, admitted⟩
      · exact ih still silent other later

theorem placed_silent {record : BlockRecord} (fresh : state.graph.get? record.id = none)
    (silent : (placed catalog state record).notes = []) :
    ∃ definition, catalog.get? record.definition = some definition ∧
      (placed catalog state record).graph =
        { state.graph with blocks := state.graph.blocks.put record.id (record.bareBlock definition) } := by
  rw [placed_eq] at silent ⊢
  cases known : catalog.get? record.definition with
  | none =>
      rw [known] at silent
      exact absurd silent (note_ne_nil state _)
  | some definition =>
      have added := add_eq_some_iff.mpr ⟨fresh, (rfl : { state.graph with
        blocks := state.graph.blocks.put record.id (.fresh definition record.position) } = _)⟩
      rw [known] at silent
      simp only [added] at silent ⊢
      have here : definition? { state.graph with
          blocks := state.graph.blocks.put record.id (.fresh definition record.position) } record.id =
          some definition := by
        simp [definition?, get?, Block.fresh]
      have fits := placeValues_silent here silent
      refine ⟨definition, rfl, ?_⟩
      have stored : record.values.rows.foldl (fun table row => table.put row.1 row.2) Table.empty = record.values :=
        Table.ofRows_rows record.values
      rw [foldl_placeValue here fits]
      simp only [change, Table.update_put, Block.fresh, stored, BlockRecord.bareBlock]

theorem connectOne_silent {connection : Connection} (silent : (connectOne id state connection).notes = []) :
    connection.target = id ∧ connectOne id state connection = { state with graph := state.graph.attach id connection } := by
  unfold connectOne at silent ⊢
  split at silent
  · rename_i here
    obtain ⟨graph, accepted, _⟩ := attempt_silent silent
    obtain ⟨_, _, _, _, _, _, _, _, _, _, rfl⟩ := connect_eq_ok_iff.mp accepted
    rw [if_pos here, accepted]
    subst here
    exact ⟨rfl, rfl⟩
  · exact absurd silent (note_ne_nil state _)

theorem connections_silent {block : Block} {connections : List Connection} (found : state.graph.get? id = some block)
    (silent : (connections.foldl (connectOne id) state).notes = []) :
    (connections.foldl (connectOne id) state).graph =
      state.graph.change id fun block => connections.foldl Block.attach block := by
  induction connections generalizing state block with
  | nil => exact (change_eq_self found rfl).symm
  | cons connection rest ih =>
      obtain ⟨here, taken⟩ := connectOne_silent (foldl_clear connectOne_clear rest silent)
      subst here
      have present : (state.graph.attach connection.target connection).get? connection.target =
          some (block.attach connection) := by
        rw [Graph.attach, get?_change, if_pos rfl, found]
        rfl
      rw [List.foldl_cons, taken] at silent
      rw [List.foldl_cons, taken, ih present silent]
      simp only [Graph.attach, change_change, List.foldl_cons]

theorem connectAll_silent {record : BlockRecord} {block : Block} (found : state.graph.get? record.id = some block)
    (silent : (connectAll state record).notes = []) :
    (connectAll state record).graph =
      state.graph.change record.id fun block => record.connections.foldl Block.attach block := by
  unfold connectAll at silent ⊢
  rw [if_pos (contains_of_get? found)] at silent ⊢
  exact connections_silent found silent

-- The next block is still free: a link to it would have been made for this very record.
theorem linkNext_silent {claimed : Table (Option String)} {record : BlockRecord} {block : Block} {next : String}
    (sequenced : Sequenced state.graph) (found : state.graph.get? record.id = some block)
    (free : state.graph.next.get? record.id = none) (follows : record.next = some next)
    (silent : (linkNext claimed state record).notes = []) :
    state.graph.setNext record.id (some next) = .ok (state.graph.link record.id next) ∧
      (linkNext claimed state record).graph = state.graph.link record.id next ∧
      ∀ recorded, claimed.get? next = some (some recorded) → recorded = record.id := by
  have root : state.graph.previous.get? next = none := by
    cases behind : state.graph.previous.get? next with
    | none => rfl
    | some linked =>
        have apart : linked ≠ record.id := by
          intro same
          rw [← sequenced.inverse, same, free] at behind
          cases behind
        have noted : linkNext claimed state record = state.note (.alreadyLinked record.id next linked) := by
          simp [linkNext, follows, contains_of_get? found, behind, Option.filter, apart]
        rw [noted] at silent
        exact absurd silent (note_ne_nil state _)
  have agreed : ∀ recorded, claimed.get? next = some (some recorded) → recorded = record.id := by
    intro recorded claims
    by_contra other
    have noted : linkNext claimed state record = state.note (.disputedPrevious record.id next recorded) := by
      simp [linkNext, follows, contains_of_get? found, root, claims, Option.filter, other]
    rw [noted] at silent
    exact absurd silent (note_ne_nil state _)
  have tried : linkNext claimed state record =
      state.attempt record.id (state.graph.setNext record.id (some next)) := by
    have undisputed : ((claimed.get? next).bind id).filter (fun recorded => recorded ≠ record.id) = none := by
      apply Option.filter_eq_none_iff.mpr
      intro recorded claims
      obtain ⟨_, given, rfl⟩ := Option.bind_eq_some_iff.mp claims
      simp [agreed recorded given]
    simp only [linkNext, follows, contains_of_get? found, if_true, root, Option.filter_none, undisputed]
  rw [tried] at silent ⊢
  obtain ⟨graph, accepted, _⟩ := attempt_silent silent
  obtain ⟨_, _, _, _, _, _, _, made⟩ := setNext_some_eq_ok_iff.mp accepted
  rw [unlinkNext_eq_self free, unlinkBefore_eq_self root] at made
  rw [accepted, made]
  exact ⟨rfl, rfl, agreed⟩

-- What the records say so far, as far as nothing had to be noted.

structure AllPlaced (catalog : Catalog) (done : List BlockRecord) (state : Restoring) : Prop where
  ids : state.graph.ids = done.map BlockRecord.id
  bare : ∀ record ∈ done, ∃ definition, catalog.get? record.definition = some definition ∧
    state.graph.get? record.id = some (record.bareBlock definition)
  next : state.graph.next = Table.empty

structure AllJoined (catalog : Catalog) (records done : List BlockRecord) (state : Restoring) : Prop where
  full : ∀ record ∈ done, ∃ definition, catalog.get? record.definition = some definition ∧
    state.graph.get? record.id = some (record.block definition)
  bare : ∀ record ∈ records, record.id ∉ done.map BlockRecord.id →
    ∃ definition, catalog.get? record.definition = some definition ∧
      state.graph.get? record.id = some (record.bareBlock definition)
  next : state.graph.next = Table.empty

structure AllLinked (catalog : Catalog) (claimed : Table (Option String)) (records done : List BlockRecord)
    (state : Restoring) : Prop where
  full : ∀ record ∈ records, ∃ definition, catalog.get? record.definition = some definition ∧
    state.graph.get? record.id = some (record.block definition)
  next : ∀ id after, state.graph.next.get? id = some after ↔
    ∃ record ∈ done, record.id = id ∧ record.next = some after
  agreed : ∀ record ∈ done, ∀ after recorded, record.next = some after →
    claimed.get? after = some (some recorded) → recorded = record.id
  sequenced : Sequenced state.graph

-- A stage has to be kept only as long as nothing is noted.
theorem foldl_silent_stage {stage : List BlockRecord → Restoring → Prop} {pass : Restoring → BlockRecord → Restoring}
    {Suits : BlockRecord → Prop} {records : List BlockRecord}
    (clear : ∀ state record, (pass state record).notes = [] → state.notes = [])
    (step : ∀ done state record, stage done state → Suits record → record.id ∉ done.map BlockRecord.id →
      (pass state record).notes = [] → stage (done ++ [record]) (pass state record))
    (start : stage [] state) (suits : ∀ record ∈ records, Suits record)
    (distinct : (records.map BlockRecord.id).Nodup) (silent : (records.foldl pass state).notes = []) :
    stage records (records.foldl pass state) := by
  refine @foldl_stage state (fun done state => state.notes = [] → stage done state) pass Suits [] records
    ?_ (fun _ => start) suits distinct silent
  intro done state record held suits fresh quiet
  exact step done state record (held (clear state record quiet)) suits fresh quiet

variable {claimed : Table (Option String)} {records done : List BlockRecord} {record : BlockRecord}

theorem ne_of_fresh {other : BlockRecord} (fresh : record.id ∉ done.map BlockRecord.id) (before : other ∈ done) :
    record.id ≠ other.id := by
  intro same
  exact fresh (same ▸ List.mem_map_of_mem before)

theorem AllPlaced.step (placed : AllPlaced catalog done state) (fresh : record.id ∉ done.map BlockRecord.id)
    (silent : (state.placed catalog record).notes = []) :
    AllPlaced catalog (done ++ [record]) (state.placed catalog record) := by
  have unlisted : record.id ∉ state.graph.ids := by
    rw [placed.ids]
    exact fresh
  obtain ⟨definition, known, made⟩ := placed_silent (Table.get?_eq_none_iff.mpr unlisted) silent
  refine ⟨?_, ?_, ?_⟩
  · rw [made, List.map_append, ← placed.ids]
    exact Table.keys_put_of_not_mem unlisted
  · intro other listed
    simp only [made, get?, Table.get?_put]
    rcases List.mem_append.mp listed with before | last
    · rw [if_neg (ne_of_fresh fresh before)]
      exact placed.bare other before
    · cases List.mem_singleton.mp last
      exact ⟨definition, known, if_pos rfl⟩
  · rw [made]
    exact placed.next

theorem AllPlaced.joined (placed : AllPlaced catalog records state) : AllJoined catalog records [] state :=
  ⟨by simp, fun record listed _ => placed.bare record listed, placed.next⟩

theorem AllJoined.step (joined : AllJoined catalog records done state) (listed : record ∈ records)
    (fresh : record.id ∉ done.map BlockRecord.id) (silent : (connectAll state record).notes = []) :
    AllJoined catalog records (done ++ [record]) (connectAll state record) := by
  obtain ⟨definition, known, found⟩ := joined.bare record listed fresh
  have made := connectAll_silent found silent
  refine ⟨?_, ?_, ?_⟩
  · intro other member
    rw [made, get?_change]
    rcases List.mem_append.mp member with before | last
    · rw [if_neg (ne_of_fresh fresh before)]
      exact joined.full other before
    · cases List.mem_singleton.mp last
      rw [if_pos rfl, found]
      exact ⟨definition, known, rfl⟩
  · intro other member missing
    rw [List.map_append, List.mem_append, not_or] at missing
    have apart : record.id ≠ other.id := fun same => missing.2 (List.mem_singleton.mpr same.symm)
    rw [made, get?_change, if_neg apart]
    exact joined.bare other member missing.1
  · rw [made]
    exact joined.next

theorem AllJoined.linked (joined : AllJoined catalog records records state) (sequenced : Sequenced state.graph) :
    AllLinked catalog claimed records [] state := by
  refine ⟨joined.full, ?_, by simp, sequenced⟩
  simp [joined.next]

theorem AllLinked.step (linked : AllLinked catalog claimed records done state) (listed : record ∈ records)
    (fresh : record.id ∉ done.map BlockRecord.id) (silent : (linkNext claimed state record).notes = []) :
    AllLinked catalog claimed records (done ++ [record]) (linkNext claimed state record) := by
  obtain ⟨definition, _, found⟩ := linked.full record listed
  cases follows : record.next with
  | none =>
      have made : linkNext claimed state record = state := by
        rw [linkNext, follows]
      rw [made]
      refine ⟨linked.full, ?_, ?_, linked.sequenced⟩
      · simp [linked.next, or_and_right, exists_or, follows]
      · intro other member after recorded ahead
        rcases List.mem_append.mp member with before | last
        · exact linked.agreed other before after recorded ahead
        · cases List.mem_singleton.mp last
          rw [follows] at ahead
          cases ahead
  | some next =>
      have free : state.graph.next.get? record.id = none := by
        apply Option.eq_none_iff_forall_not_mem.mpr
        intro after ahead
        obtain ⟨other, before, same, _⟩ := (linked.next record.id after).mp ahead
        exact ne_of_fresh fresh before same.symm
      obtain ⟨accepted, made, agreed⟩ := linkNext_silent linked.sequenced found free follows silent
      refine ⟨?_, ?_, ?_, ?_⟩
      · rw [made]
        exact linked.full
      · intro wanted after
        rw [made, next_link]
        by_cases same : record.id = wanted
        · subst wanted
          have first : ∀ other ∈ done, other.id ≠ record.id := fun _ before => (ne_of_fresh fresh before).symm
          simp only [if_true, List.mem_append, List.mem_singleton]
          constructor
          · intro same
            exact ⟨record, Or.inr rfl, rfl, follows.trans same⟩
          · intro made
            obtain ⟨other, listed, same, ahead⟩ := made
            rcases listed with before | rfl
            · exact absurd same (first other before)
            · rw [← follows, ahead]
        · simp [same, linked.next, or_and_right, exists_or]
      · intro other member after recorded ahead
        rcases List.mem_append.mp member with before | last
        · exact linked.agreed other before after recorded ahead
        · cases List.mem_singleton.mp last
          rw [follows] at ahead
          cases ahead
          exact agreed recorded
      · rw [made]
        exact linked.sequenced.setNext accepted

theorem AllLinked.honoured (linked : AllLinked catalog claimed records records state)
    (distinct : (records.map BlockRecord.id).Nodup)
    (claims : ∀ record ∈ records, claimed.get? record.id = some record.previous) (listed : record ∈ records) :
    Honoured catalog records state.graph record := by
  obtain ⟨definition, known, found⟩ := linked.full record listed
  have previous : ∀ before, state.graph.previousOf? record.id = some before ↔
      ∃ other ∈ records, other.id = before ∧ other.next = some record.id := by
    intro before
    rw [linked.sequenced.previousOf?_eq, ← linked.sequenced.inverse, linked.next]
  refine ⟨⟨_, found, ?_⟩, ?_, ?_, previous, ?_⟩
  · rw [BlockRecord.block, Block.foldl_attach_frame]
    exact ⟨known, rfl, rfl⟩
  · intro socket
    rw [connection?, found, Option.bind_some, BlockRecord.block, Block.inputs_foldl_attach]
    exact Option.or_none
  · rw [linked.sequenced.nextOf?_eq]
    ext after
    rw [linked.next]
    constructor
    · intro made
      obtain ⟨other, also, same, follows⟩ := made
      rw [← List.inj_on_of_nodup_map distinct also listed same]
      exact follows
    · intro follows
      exact ⟨record, listed, rfl, follows⟩
  · intro before recorded behind said
    obtain ⟨other, also, rfl, follows⟩ := (previous before).mp behind
    have claim := claims record listed
    rw [said] at claim
    exact (linked.agreed other also record.id recorded follows claim).symm

end Restoring

-- The two ways in which a record asks for more than can be had.
structure Coherent (records : List BlockRecord) (record : BlockRecord) : Prop where
  connections : ∀ one ∈ record.connections, ∀ two ∈ record.connections, one.socket = two.socket → one = two
  previous : ∀ before, record.previous = some before →
    ∃ other ∈ records, other.id = before ∧ other.next = some record.id

variable {catalog : Catalog} {records : List BlockRecord} {graph : Graph} {record : BlockRecord}

theorem Honoured.connections_iff (honoured : Honoured catalog records graph record) :
    (∀ connection ∈ record.connections, graph.connection? record.id connection.socket = some connection) ↔
      ∀ one ∈ record.connections, ∀ two ∈ record.connections, one.socket = two.socket → one = two := by
  constructor
  · intro present one listed two also same
    have first := present one listed
    rw [same, present two also] at first
    exact (Option.some.inj first).symm
  · intro single connection listed
    rw [honoured.connection]
    obtain ⟨last, found⟩ : ∃ last, record.connections.reverse.find?
        (fun other => other.socket = connection.socket) = some last := by
      apply Option.isSome_iff_exists.mp
      rw [List.find?_isSome]
      exact ⟨connection, List.mem_reverse.mpr listed, decide_eq_true rfl⟩
    have socket : last.socket = connection.socket := by simpa using List.find?_some found
    rw [found, single last (List.mem_reverse.mp (List.mem_of_find?_eq_some found)) connection listed socket]

theorem Honoured.kept_iff (honoured : Honoured catalog records graph record) :
    Kept catalog graph record ↔ Coherent records record := by
  constructor
  · intro kept
    refine ⟨honoured.connections_iff.mp kept.connections, ?_⟩
    intro before said
    exact (honoured.previous before).mp (kept.previous before said)
  · intro coherent
    refine ⟨honoured.block, honoured.connections_iff.mpr coherent.connections, ?_, ?_⟩
    · intro next follows
      rw [honoured.next, follows]
    · intro before said
      exact (honoured.previous before).mpr (coherent.previous before said)

theorem restore_silent {restored : Restoring} (distinct : (records.map BlockRecord.id).Nodup)
    (accepted : restore catalog records = .ok restored) (silent : restored.notes = []) :
    ∀ record ∈ records, Honoured catalog records restored.graph record := by
  rw [restore_of_distinct distinct] at accepted
  cases accepted
  have joinedSilent := Restoring.foldl_clear Restoring.linkNext_clear records silent
  have placedSilent := Restoring.foldl_clear Restoring.connectAll_clear records joinedSilent
  have start : Restoring.AllPlaced catalog [] .start := ⟨rfl, by simp, rfl⟩
  have placed := Restoring.foldl_silent_stage Restoring.placed_clear
    (fun _ _ _ stage _ fresh quiet => Restoring.AllPlaced.step stage fresh quiet) start
    (fun _ listed => listed) distinct placedSilent
  have joined := Restoring.foldl_silent_stage Restoring.connectAll_clear
    (fun _ _ _ stage listed fresh quiet => Restoring.AllJoined.step stage listed fresh quiet) placed.joined
    (fun _ listed => listed) distinct joinedSilent
  have grown : Grown catalog (records.foldl Restoring.connectAll
      (records.foldl (Restoring.placed catalog) .start)).graph :=
    Restoring.grown_foldl Restoring.grown_connectAll records
      (Restoring.grown_foldl Restoring.grown_placed records .empty)
  have linked := Restoring.foldl_silent_stage Restoring.linkNext_clear
    (fun _ _ _ stage listed fresh quiet => Restoring.AllLinked.step stage listed fresh quiet)
    (joined.linked grown.sequenced) (fun _ listed => listed) distinct silent
  intro record listed
  refine linked.honoured distinct ?_ listed
  intro other also
  apply Table.get?_ofRows
  · rw [Rows.keys, List.map_map]
    exact distinct
  · exact List.mem_map.mpr ⟨other, also, rfl⟩

end Graph

variable {catalog : Catalog} {records : List BlockRecord}

theorem restore_reports (distinct : (records.map BlockRecord.id).Nodup) :
    ∃ restored, Graph.restore catalog records = .ok restored ∧
      (restored.notes = [] → ∀ record ∈ records,
        Graph.Honoured catalog records restored.graph record ∧
        (Graph.Kept catalog restored.graph record ↔ Graph.Coherent records record)) := by
  have accepted := @Graph.restore_of_distinct catalog records distinct
  refine ⟨_, accepted, ?_⟩
  intro silent record listed
  have honoured := Graph.restore_silent distinct accepted silent record listed
  exact ⟨honoured, honoured.kept_iff⟩

-- Two blocks in a chain; the first one lists two connections for one socket.
def rivalHead : BlockRecord :=
  ⟨"head", "io.write", Position.zero, Table.empty, [⟨"one", "head", "value"⟩, ⟨"two", "head", "value"⟩], some "tail",
    none⟩

def rivalTail : BlockRecord := ⟨"tail", "io.write", Position.zero, Table.empty, [], none, some "head"⟩

def rivalRecords : List BlockRecord :=
  [rivalHead, rivalTail, ⟨"one", "literal.text", Position.zero, Table.ofRows [("value", .text "um")], [], none, none⟩,
    ⟨"two", "literal.text", Position.zero, Table.ofRows [("value", .text "dois")], [], none, none⟩]

theorem restore_reports_rival :
    ∃ restored, Graph.restore Catalog.builtin rivalRecords = .ok restored ∧ restored.notes = [] ∧
      Graph.Kept Catalog.builtin restored.graph rivalTail ∧
      ¬ Graph.Kept Catalog.builtin restored.graph rivalHead := by
  obtain ⟨restored, accepted, told⟩ := @restore_reports Catalog.builtin rivalRecords (by decide)
  have silent : (Graph.restore Catalog.builtin rivalRecords).map Graph.Restoring.notes = .ok [] := by cbv
  rw [accepted] at silent
  have notes : restored.notes = [] := Except.ok.inj silent
  refine ⟨restored, accepted, notes, (told notes rivalTail (by simp [rivalRecords])).2.mpr ?_, ?_⟩
  · refine ⟨by simp [rivalTail], ?_⟩
    intro before said
    cases said
    exact ⟨rivalHead, by simp [rivalRecords], rfl, rfl⟩
  · intro kept
    have coherent := (told notes rivalHead (by simp [rivalRecords])).2.mp kept
    have same := coherent.connections ⟨"one", "head", "value"⟩ (by simp [rivalHead]) ⟨"two", "head", "value"⟩
      (by simp [rivalHead]) rfl
    simp at same

-- Only the second of the two records says that it follows the first.
def oneSidedRecords : List BlockRecord :=
  [⟨"head", "io.write", Position.zero, Table.empty, [], none, none⟩, rivalTail]

theorem restore_drops_previous :
    ∃ restored, Graph.restore Catalog.builtin oneSidedRecords = .ok restored ∧ restored.notes = [] ∧
      ¬ ∀ record ∈ oneSidedRecords, Graph.Kept Catalog.builtin restored.graph record := by
  have evaluated : (Graph.restore Catalog.builtin oneSidedRecords).map
      (fun restored => (restored.notes, restored.graph.previousOf? "tail")) = .ok ([], none) := by cbv
  cases accepted : Graph.restore Catalog.builtin oneSidedRecords with
  | error error =>
      rw [accepted] at evaluated
      cases evaluated
  | ok restored =>
      rw [accepted] at evaluated
      obtain ⟨notes, previous⟩ := Prod.mk.inj (Except.ok.inj evaluated)
      refine ⟨restored, rfl, notes, ?_⟩
      intro kept
      have behind := (kept rivalTail (by simp [oneSidedRecords])).previous "head" rfl
      have lone : restored.graph.previousOf? rivalTail.id = none := previous
      rw [lone] at behind
      cases behind

end BlockCanvas
