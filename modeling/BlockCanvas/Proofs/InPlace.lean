import BlockCanvas.Proofs.CompileFailure
namespace BlockCanvas

-- One change at one place of one index of a graph.
inductive Write where
  | putBlock (id : String) (block : Block)
  | dropBlock (id : String)
  | putValue (id socket : String) (value : Value)
  | dropValue (id socket : String)
  | putPosition (id : String) (position : Position)
  | putInput (id : String) (connection : Connection)
  | dropInput (id socket : String)
  | putNext (id next : String)
  | dropNext (id : String)
  | putPrevious (id previous : String)
  | dropPrevious (id : String)
  | clearBlocks
  | clearNext
  | clearPrevious

def Write.apply (graph : Graph) : Write → Graph
  | .putBlock id block => { graph with blocks := graph.blocks.put id block }
  | .dropBlock id => { graph with blocks := graph.blocks.erase id }
  | .putValue id socket value => graph.change id fun block => { block with values := block.values.put socket value }
  | .dropValue id socket => graph.clearValue id socket
  | .putPosition id position => graph.move id position
  | .putInput id connection => graph.attach id connection
  | .dropInput id socket => graph.disconnect id socket
  | .putNext id next => { graph with next := graph.next.put id next }
  | .dropNext id => { graph with next := graph.next.erase id }
  | .putPrevious id previous => { graph with previous := graph.previous.put id previous }
  | .dropPrevious id => { graph with previous := graph.previous.erase id }
  | .clearBlocks => { graph with blocks := Table.empty }
  | .clearNext => { graph with next := Table.empty }
  | .clearPrevious => { graph with previous := Table.empty }

-- A canvas that is worked on in place, with all that was written on its graph so far.
structure Bench extends Canvas where
  writes : List Write

def Bench.after (bench : Bench) (writes : List Write) : Bench :=
  { bench with graph := writes.foldl Write.apply bench.graph, writes := bench.writes ++ writes }

-- An outcome that is thrown ends the work where it stands; what was written before stays written.
abbrev InPlace := EStateM Outcome Bench

namespace InPlace

def graph : InPlace Graph := fun bench => .ok bench.graph bench

def write (change : Write) : InPlace Unit := fun bench => .ok () (bench.after [change])

def resolve (requested : Option String) : InPlace String := fun bench =>
  .ok (bench.supply.resolve requested).1 { bench with supply := (bench.supply.resolve requested).2 }

def putFresh (id : String) (definition : Definition) (position : Position) : InPlace String := do
  if (← graph).contains id then throw (.occupied id)
  else
    write (.putBlock id (.fresh definition position))
    return id

def add (definition : Definition) (position : Option Position) (requested : Option String) : InPlace String := do
  putFresh (← resolve requested) definition (position.getD Position.zero)

def create (catalog : Catalog) (definition : String) (position : Option Position) : InPlace Outcome :=
  match catalog.get? definition with
  | none => return .unknownDefinition definition
  | some found => .created <$> add found position none

def clear : InPlace Unit := do
  write .clearBlocks
  write .clearNext
  write .clearPrevious

def setValue (id socket : String) (value : Value) : InPlace (Option Refusal) := do
  match (← graph).get? id with
  | none => return some (.unknownBlock id)
  | some block =>
    match block.definition.input? socket with
    | none => return some (.unknownSocket socket block.definition.id)
    | some input =>
      if input.type.admits value then
        write (.putValue id socket value)
        return none
      else return some (.valueType socket input.type value)

def whenPresent (id : String) (change : Write) : InPlace Unit := do
  match (← graph).get? id with
  | none => return ()
  | some _ => write change

def move (id : String) (x y : Json) : InPlace Bool := do
  if (← graph).contains id then
    match Position.check .record (.object [("x", x), ("y", y)]) with
    | .refused faults => throw (.badPosition faults)
    | .accepted position =>
        write (.putPosition id position)
        return true
  else return false

def mayConnect (target socket source : String) : InPlace (Option Refusal) := do
  match (← graph).get? target with
  | none => return some (.unknownBlock target)
  | some targetBlock =>
    match (← graph).get? source with
    | none => return some (.unknownBlock source)
    | some sourceBlock =>
      match targetBlock.definition.input? socket with
      | none => return some (.unknownSocket socket targetBlock.definition.id)
      | some input =>
        match sourceBlock.definition.output with
        | none => return some (.noOutput sourceBlock.definition.id)
        | some output =>
          if !input.acceptsType output.type then return some (.outputType output.type socket input.acceptedTypes)
          else
            if (← graph).dependsOn source target then return some (.dataCycle source target socket)
            else return none

def connect (target socket source : String) : InPlace (Option Refusal) := do
  match ← mayConnect target socket source with
  | some refusal => return some refusal
  | none =>
      write (.putInput target ⟨source, target, socket⟩)
      return none

def link (id next : String) : InPlace Unit := do
  write (.putNext id next)
  write (.putPrevious next id)

def unlinkNext (id : String) : InPlace Unit := do
  match (← graph).next.get? id with
  | none => return ()
  | some next =>
      write (.dropNext id)
      write (.dropPrevious next)

def unlinkBefore (id : String) : InPlace Unit := do
  match (← graph).previous.get? id with
  | none => return ()
  | some previous => unlinkNext previous

def setNext (id : String) (next : Option String) : InPlace (Option Refusal) := do
  match (← graph).get? id with
  | none => return some (.unknownBlock id)
  | some block =>
    match next with
    | none =>
        unlinkNext id
        return none
    | some wanted =>
      match (← graph).get? wanted with
      | none => return some (.unknownBlock wanted)
      | some nextBlock =>
        if !block.definition.hasNext then return some (.noNext block.definition.id)
        else if !nextBlock.definition.hasPrevious then return some (.noPrevious nextBlock.definition.id)
        else
          if (← graph).chainReaches wanted id then return some (.sequenceCycle id wanted)
          else
            unlinkNext id
            unlinkBefore wanted
            link id wanted
            return none

-- The neighbours are those from before the first write.
def spliceOut (id : String) : InPlace Unit := do
  let start ← graph
  unlinkNext id
  match start.previous.get? id with
  | none => return ()
  | some previous =>
      unlinkNext previous
      match start.next.get? id with
      | none => return ()
      | some next => link previous next

def detachOne (source id : String) (connection : Connection) : InPlace Unit :=
  if connection.source = source then write (.dropInput id connection.socket) else return ()

def detachAll (source id : String) : InPlace Unit := do
  match (← graph).get? id with
  | none => return ()
  | some block => block.connections.forM (detachOne source id)

def delete (id : String) : InPlace Bool := do
  if (← graph).contains id then
    spliceOut id
    (← graph).ids.forM (detachAll id)
    write (.dropBlock id)
    return true
  else return false

-- A restoring keeps its own list of what had to be left out.
def noted (id : String) (notes : List Diagnostic) : Option Refusal → List Diagnostic
  | none => notes
  | some refusal => notes ++ [.refused id refusal]

def placeValue (id : String) (notes : List Diagnostic) (row : String × Value) : InPlace (List Diagnostic) := do
  return noted id notes (← setValue id row.1 row.2)

def place (catalog : Catalog) (notes : List Diagnostic) (record : BlockRecord) : InPlace (List Diagnostic) := do
  match catalog.get? record.definition with
  | none => return notes ++ [.unknownDefinition record.id record.definition]
  | some definition =>
      let _ ← putFresh record.id definition record.position
      record.values.rows.foldlM (placeValue record.id) notes

def connectOne (id : String) (notes : List Diagnostic) (connection : Connection) : InPlace (List Diagnostic) := do
  if connection.target = id then return noted id notes (← connect id connection.socket connection.source)
  else return notes ++ [.foreignConnection id connection.target]

def connectAll (notes : List Diagnostic) (record : BlockRecord) : InPlace (List Diagnostic) := do
  if (← graph).contains record.id then record.connections.foldlM (connectOne record.id) notes
  else return notes

def linkNext (claimed : Table (Option String)) (notes : List Diagnostic) (record : BlockRecord) :
    InPlace (List Diagnostic) := do
  match record.next with
  | none => return notes
  | some next =>
    if (← graph).contains record.id then
      match ((← graph).previous.get? next).filter fun linked => linked ≠ record.id with
      | some linked => return notes ++ [.alreadyLinked record.id next linked]
      | none =>
        match ((claimed.get? next).bind id).filter fun recorded => recorded ≠ record.id with
        | some recorded => return notes ++ [.disputedPrevious record.id next recorded]
        | none => return noted record.id notes (← setNext record.id (some next))
    else return notes

def restore (catalog : Catalog) (records : List BlockRecord) : InPlace (List Diagnostic) := do
  match Graph.repeatedIds (records.map BlockRecord.id) with
  | [] =>
      clear
      let claimed := Table.ofRows (records.map fun record => (record.id, record.previous))
      let placed ← records.foldlM (place catalog) []
      let connected ← records.foldlM connectAll placed
      records.foldlM (linkNext claimed) connected
  | ids => throw (.repeated ids)

def perform (catalog : Catalog) : Command → InPlace Outcome
  | .create definition position => create catalog definition position
  | .add definition position id => .created <$> add definition position id
  | .delete id => .deleted <$> delete id
  | .clear => (fun _ => .done) <$> clear
  | .setValue id socket value => .verdict <$> setValue id socket value
  | .clearValue id socket => (fun _ => .done) <$> whenPresent id (.dropValue id socket)
  | .move id x y => .moved <$> move id x y
  | .connect target socket source => .verdict <$> connect target socket source
  | .disconnect id socket => (fun _ => .done) <$> whenPresent id (.dropInput id socket)
  | .setNext id next => .verdict <$> setNext id next
  | .restore records => .restored <$> restore catalog records

-- The work on a graph writes nothing and gives the value.
def Quiet {α : Type} (action : InPlace α) (start : Graph) (value : α) : Prop :=
  ∀ bench : Bench, bench.graph = start → action bench = .ok value bench

-- The work on a graph gives the value and leaves the second graph, by its writes alone.
def Leaves {α : Type} (action : InPlace α) (start : Graph) (value : α) (rest : Graph) : Prop :=
  ∃ writes, writes.foldl Write.apply start = rest ∧
    ∀ bench : Bench, bench.graph = start → action bench = .ok value (bench.after writes)

section Composition
variable {α β : Type} {action : InPlace α} {later : α → InPlace β} {start middle rest : Graph} {value : α} {last : β}

theorem quiet_pure (start : Graph) (value : α) : Quiet (pure value) start value := fun _ _ => rfl

theorem quiet_graph (start : Graph) : Quiet graph start start := by
  intro bench same
  rw [graph, same]

theorem Quiet.bind (first : Quiet action start value) (second : Quiet (later value) start last) :
    Quiet (action >>= later) start last := by
  intro bench same
  change EStateM.bind action later bench = _
  rw [EStateM.bind, first bench same]
  exact second bench same

theorem Quiet.leaves (quiet : Quiet action start value) : Leaves action start value start := by
  refine ⟨[], rfl, ?_⟩
  intro bench same
  rw [quiet bench same]
  simp [Bench.after]

theorem Leaves.bind (first : Leaves action start value middle) (second : Leaves (later value) middle last rest) :
    Leaves (action >>= later) start last rest := by
  obtain ⟨before, reached, acts⟩ := first
  obtain ⟨after, ended, continues⟩ := second
  refine ⟨before ++ after, by rw [List.foldl_append, reached, ended], ?_⟩
  intro bench same
  change EStateM.bind action later bench = _
  rw [EStateM.bind, acts bench same]
  have between : (bench.after before).graph = middle := by rw [← reached, ← same, Bench.after]
  dsimp only
  rw [continues _ between]
  simp [Bench.after]

-- What is read off the graph is known.
theorem Leaves.read {later : Graph → InPlace β} (second : Leaves (later start) start last rest) :
    Leaves (graph >>= later) start last rest :=
  (quiet_graph start).leaves.bind second

theorem Quiet.read {later : Graph → InPlace β} (second : Quiet (later start) start last) :
    Quiet (graph >>= later) start last :=
  (quiet_graph start).bind second

theorem leaves_pure (start : Graph) (value : α) : Leaves (pure value) start value start :=
  (quiet_pure start value).leaves

theorem leaves_write (start : Graph) (change : Write) : Leaves (write change) start () (change.apply start) :=
  ⟨[change], rfl, fun _ _ => rfl⟩

theorem Leaves.map (leaves : Leaves action start value rest) (rename : α → β) :
    Leaves (rename <$> action) start (rename value) rest := by
  obtain ⟨writes, ended, acts⟩ := leaves
  refine ⟨writes, ended, ?_⟩
  intro bench same
  change EStateM.map rename action bench = _
  rw [EStateM.map, acts bench same]

theorem Quiet.map (quiet : Quiet action start value) (rename : α → β) : Quiet (rename <$> action) start (rename value) := by
  intro bench same
  change EStateM.map rename action bench = _
  rw [EStateM.map, quiet bench same]

-- A loop does what its passes do.
theorem leaves_forM {item : Type} {body : item → InPlace Unit} {pass : Graph → item → Graph}
    (each : ∀ start item, Leaves (body item) start () (pass start item)) (items : List item) (start : Graph) :
    Leaves (items.forM body) start () (items.foldl pass start) := by
  induction items generalizing start with
  | nil => exact leaves_pure start ()
  | cons item rest ih => exact (each start item).bind (ih (pass start item))

end Composition

-- A check that is followed by writes: refused, it writes nothing.
def Answers (action : InPlace (Option Refusal)) (start : Graph) : Except Refusal Graph → Prop
  | .error refusal => Quiet action start (some refusal)
  | .ok rest => Leaves action start none rest

theorem Answers.read {later : Graph → InPlace (Option Refusal)} {start : Graph} {result : Except Refusal Graph}
    (answers : Answers (later start) start result) : Answers (graph >>= later) start result := by
  cases result with
  | error refusal => exact Quiet.read answers
  | ok rest => exact Leaves.read answers

section Operations
variable {start : Graph} {id socket : String}

theorem setValue_answers (start : Graph) (id socket : String) (value : Value) :
    Answers (setValue id socket value) start (start.setValue id socket value) := by
  unfold setValue
  refine Answers.read ?_
  cases found : start.get? id with
  | none =>
      rw [Graph.setValue, found]
      exact quiet_pure start _
  | some block =>
      cases declared : block.definition.input? socket with
      | none =>
          rw [Graph.setValue, found]
          simp only [Block.setValue, declared]
          exact quiet_pure start _
      | some input =>
          dsimp only
          simp only [declared]
          by_cases fit : input.type.admits value = true
          · have accepted := Graph.setValue_eq_ok_iff.mpr ⟨block, input, found, declared, fit, rfl⟩
            rw [accepted, if_pos fit]
            exact (leaves_write start (.putValue id socket value)).bind (leaves_pure _ _)
          · rw [Graph.setValue, found]
            simp only [Block.setValue, declared, if_neg fit]
            exact quiet_pure start _

theorem change_absent (absent : start.get? id = none) (edit : Block → Block) : start.change id edit = start := by
  rw [Graph.change, Table.update, show start.blocks.get? id = none from absent]

theorem whenPresent_leaves (start : Graph) (id : String) {change : Write} {edit : Block → Block}
    (edits : change.apply start = start.change id edit) :
    Leaves (whenPresent id change) start () (start.change id edit) := by
  unfold whenPresent
  refine Leaves.read ?_
  cases found : start.get? id with
  | none =>
      rw [change_absent found]
      exact leaves_pure start ()
  | some block =>
      rw [← edits]
      exact leaves_write start change

theorem mayConnect_quiet (start : Graph) (target socket source : String) :
    Quiet (mayConnect target socket source) start (start.connectRefusal? target socket source) := by
  unfold mayConnect Graph.connectRefusal?
  refine Quiet.read ?_
  cases start.get? target with
  | none => exact quiet_pure start _
  | some targetBlock =>
      refine Quiet.read ?_
      cases start.get? source with
      | none => exact quiet_pure start _
      | some sourceBlock =>
          dsimp only
          cases targetBlock.definition.input? socket with
          | none => exact quiet_pure start _
          | some input =>
              dsimp only
              cases sourceBlock.definition.output with
              | none => exact quiet_pure start _
              | some output =>
                  dsimp only
                  cases input.acceptsType output.type with
                  | false => exact quiet_pure start _
                  | true =>
                      refine Quiet.read ?_
                      cases start.dependsOn source target with
                      | true => exact quiet_pure start _
                      | false => exact quiet_pure start _

theorem connect_answers (start : Graph) (target socket source : String) :
    Answers (connect target socket source) start (start.connect target socket source) := by
  have asked := mayConnect_quiet start target socket source
  unfold connect Graph.connect
  cases verdict : start.connectRefusal? target socket source with
  | some refusal =>
      rw [verdict] at asked
      exact asked.bind (quiet_pure start _)
  | none =>
      rw [verdict] at asked
      exact asked.leaves.bind ((leaves_write start (.putInput target ⟨source, target, socket⟩)).bind (leaves_pure _ _))

theorem link_leaves (start : Graph) (id next : String) : Leaves (link id next) start () (start.link id next) :=
  (leaves_write start (.putNext id next)).bind (leaves_write _ (.putPrevious next id))

theorem unlinkNext_leaves (start : Graph) (id : String) : Leaves (unlinkNext id) start () (start.unlinkNext id) := by
  unfold unlinkNext Graph.unlinkNext
  refine Leaves.read ?_
  cases start.next.get? id with
  | none => exact leaves_pure start ()
  | some next => exact (leaves_write start (.dropNext id)).bind (leaves_write _ (.dropPrevious next))

theorem unlinkBefore_leaves (start : Graph) (id : String) :
    Leaves (unlinkBefore id) start () (start.unlinkBefore id) := by
  unfold unlinkBefore Graph.unlinkBefore
  refine Leaves.read ?_
  cases start.previous.get? id with
  | none => exact leaves_pure start ()
  | some previous => exact unlinkNext_leaves start previous

theorem setNext_answers (start : Graph) (id : String) (next : Option String) :
    Answers (setNext id next) start (start.setNext id next) := by
  unfold setNext
  refine Answers.read ?_
  cases next with
  | none =>
      unfold Graph.setNext
      cases found : start.get? id with
      | none =>
          have absent : ¬ start.contains id = true := by simp [Graph.contains_eq_true_iff, found]
          rw [if_neg absent]
          exact quiet_pure start _
      | some block =>
          rw [if_pos (Graph.contains_of_get? found)]
          exact (unlinkNext_leaves start id).bind (leaves_pure _ _)
  | some wanted =>
      unfold Graph.setNext Graph.linkRefusal?
      dsimp only
      cases start.get? id with
      | none => exact quiet_pure start _
      | some block =>
          refine Answers.read ?_
          cases start.get? wanted with
          | none => exact quiet_pure start _
          | some nextBlock =>
              dsimp only
              cases block.definition.hasNext with
              | false => exact quiet_pure start _
              | true =>
                  cases nextBlock.definition.hasPrevious with
                  | false => exact quiet_pure start _
                  | true =>
                      refine Answers.read ?_
                      cases start.chainReaches wanted id with
                      | true => exact quiet_pure start _
                      | false =>
                          -- All checks are passed on the graph as it was, before the first of the writes.
                          exact (unlinkNext_leaves start id).bind
                            ((unlinkBefore_leaves _ wanted).bind ((link_leaves _ id wanted).bind (leaves_pure _ _)))

theorem spliceOut_leaves (start : Graph) (id : String) : Leaves (spliceOut id) start () (start.spliceOut id) := by
  unfold spliceOut Graph.spliceOut
  refine Leaves.read ((unlinkNext_leaves start id).bind ?_)
  cases start.previous.get? id with
  | none => exact leaves_pure _ ()
  | some previous =>
      refine (unlinkNext_leaves _ previous).bind ?_
      cases start.next.get? id with
      | none => exact leaves_pure _ ()
      | some next => exact link_leaves _ previous next

-- The sources are taken off socket by socket.
def detached (source : String) (start : Graph) (id : String) : Graph :=
  match start.get? id with
  | none => start
  | some block => block.connections.foldl (fun graph connection =>
      if connection.source = source then graph.disconnect id connection.socket else graph) start

theorem detachAll_leaves (source : String) (start : Graph) (id : String) :
    Leaves (detachAll source id) start () (detached source start id) := by
  unfold detachAll detached
  refine Leaves.read ?_
  cases start.get? id with
  | none => exact leaves_pure start ()
  | some block =>
      refine leaves_forM ?_ block.connections start
      intro start connection
      unfold detachOne
      split_ifs with hit
      · exact leaves_write start (.dropInput id connection.socket)
      · exact leaves_pure start ()

theorem delete_leaves (present : start.contains id = true) :
    Leaves (delete id) start true
      (Write.apply ((start.spliceOut id).ids.foldl (detached id) (start.spliceOut id)) (.dropBlock id)) := by
  unfold delete
  refine Leaves.read ?_
  rw [if_pos present]
  refine (spliceOut_leaves start id).bind (Leaves.read ?_)
  refine (leaves_forM (detachAll_leaves id) _ _).bind ?_
  exact (leaves_write _ (.dropBlock id)).bind (leaves_pure _ _)

theorem clear_leaves (start : Graph) : Leaves clear start () Graph.empty :=
  (leaves_write start .clearBlocks).bind ((leaves_write _ .clearNext).bind (leaves_write _ .clearPrevious))

end Operations

section Restoring
variable {catalog : Catalog} {state : Graph.Restoring} {records : List BlockRecord} {id : String}

theorem leaves_foldlM {item : Type} {body : List Diagnostic → item → InPlace (List Diagnostic)}
    {pass : Graph.Restoring → item → Graph.Restoring}
    (each : ∀ state item, Leaves (body state.notes item) state.graph (pass state item).notes (pass state item).graph)
    (items : List item) (state : Graph.Restoring) :
    Leaves (items.foldlM body state.notes) state.graph (items.foldl pass state).notes (items.foldl pass state).graph := by
  induction items generalizing state with
  | nil => exact leaves_pure _ _
  | cons item rest ih =>
      rw [List.foldlM_cons]
      exact (each state item).bind (ih (pass state item))

theorem noted_leaves {action : InPlace (Option Refusal)} {result : Except Refusal Graph} (id : String)
    (answers : Answers action state.graph result) :
    Leaves (do return noted id state.notes (← action)) state.graph (state.attempt id result).notes
      (state.attempt id result).graph := by
  cases result with
  | error refusal => exact (Quiet.leaves answers).bind (leaves_pure _ _)
  | ok rest => exact Leaves.bind answers (leaves_pure _ _)

theorem putFresh_leaves {start : Graph} (absent : start.get? id = none) (definition : Definition) (position : Position) :
    Leaves (putFresh id definition position) start id
      { start with blocks := start.blocks.put id (.fresh definition position) } := by
  have missing : ¬ start.contains id = true := by simp [Graph.contains_eq_true_iff, absent]
  unfold putFresh
  refine Leaves.read ?_
  rw [if_neg missing]
  exact (leaves_write start (.putBlock id (.fresh definition position))).bind (leaves_pure _ id)

theorem place_leaves {record : BlockRecord} (absent : state.graph.get? record.id = none) :
    Leaves (place catalog state.notes record) state.graph (state.placed catalog record).notes
      (state.placed catalog record).graph := by
  rw [Graph.Restoring.placed_eq]
  unfold place
  cases catalog.get? record.definition with
  | none => exact leaves_pure _ _
  | some definition =>
      have added : state.graph.add record.id definition record.position = some _ :=
        Graph.add_eq_some_iff.mpr ⟨absent, rfl⟩
      simp only [added]
      refine (putFresh_leaves absent definition record.position).bind ?_
      refine leaves_foldlM ?_ record.values.rows { state with graph := _ }
      intro state row
      exact noted_leaves record.id (setValue_answers state.graph record.id row.1 row.2)

-- No id is met a second time, so that no placing is broken off.
theorem placing_leaves (distinct : (records.map BlockRecord.id).Nodup)
    (fresh : ∀ record ∈ records, state.graph.get? record.id = none) :
    Leaves (records.foldlM (place catalog) state.notes) state.graph
      (records.foldl (Graph.Restoring.placed catalog) state).notes
      (records.foldl (Graph.Restoring.placed catalog) state).graph := by
  induction records generalizing state with
  | nil => exact leaves_pure _ _
  | cons record rest ih =>
      obtain ⟨apart, distinct⟩ := List.nodup_cons.mp distinct
      rw [List.foldlM_cons]
      refine (place_leaves (fresh record List.mem_cons_self)).bind (ih distinct ?_)
      intro other later
      refine Graph.Restoring.placed_absent (fresh other (List.mem_cons_of_mem record later)) ?_
      intro same
      exact apart (same ▸ List.mem_map_of_mem later)

theorem connectAll_leaves (state : Graph.Restoring) (record : BlockRecord) :
    Leaves (connectAll state.notes record) state.graph (state.connectAll record).notes
      (state.connectAll record).graph := by
  unfold connectAll Graph.Restoring.connectAll
  refine Leaves.read ?_
  split_ifs with present
  · refine leaves_foldlM ?_ record.connections state
    intro state connection
    unfold connectOne Graph.Restoring.connectOne
    split_ifs with own
    · exact noted_leaves record.id (connect_answers state.graph record.id connection.socket connection.source)
    · exact leaves_pure _ _
  · exact leaves_pure _ _

theorem linkNext_leaves (claimed : Table (Option String)) (state : Graph.Restoring) (record : BlockRecord) :
    Leaves (linkNext claimed state.notes record) state.graph (state.linkNext claimed record).notes
      (state.linkNext claimed record).graph := by
  unfold linkNext Graph.Restoring.linkNext
  cases record.next with
  | none => exact leaves_pure _ _
  | some next =>
      refine Leaves.read ?_
      dsimp only
      split_ifs with present
      · refine Leaves.read ?_
        cases (state.graph.previous.get? next).filter fun linked => linked ≠ record.id with
        | some linked => exact leaves_pure _ _
        | none =>
            dsimp only
            cases ((claimed.get? next).bind id).filter fun recorded => recorded ≠ record.id with
            | some recorded => exact leaves_pure _ _
            | none => exact noted_leaves record.id (setNext_answers state.graph record.id (some next))
      · exact leaves_pure _ _

theorem restore_leaves (catalog : Catalog) (start : Graph) (distinct : (records.map BlockRecord.id).Nodup) :
    Leaves (restore catalog records) start (Graph.Restoring.ofRecords catalog records).notes
      (Graph.Restoring.ofRecords catalog records).graph := by
  unfold restore
  rw [Graph.repeatedIds_eq_nil_iff.mpr distinct]
  have placed : Leaves (records.foldlM (place catalog) Graph.Restoring.start.notes) Graph.Restoring.start.graph _ _ :=
    placing_leaves distinct fun _ _ => rfl
  refine (clear_leaves start).bind (placed.bind ?_)
  exact (leaves_foldlM connectAll_leaves records _).bind (leaves_foldlM (linkNext_leaves _) records _)

theorem restore_throws (catalog : Catalog) (shared : ¬(records.map BlockRecord.id).Nodup) (bench : Bench) :
    restore catalog records bench = .error (.repeated (Graph.repeatedIds (records.map BlockRecord.id))) bench := by
  unfold restore
  cases repeated : Graph.repeatedIds (records.map BlockRecord.id) with
  | nil => exact absurd (Graph.repeatedIds_eq_nil_iff.mp repeated) shared
  | cons first rest => rfl

end Restoring

end InPlace

end BlockCanvas
