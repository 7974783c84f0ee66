import BlockCanvas.Catalog.Builtin
import BlockCanvas.Proofs.EvaluationOrder
import BlockCanvas.Proofs.Growth
import BlockCanvas.Proofs.Path
import Mathlib.Data.List.Permutation
namespace BlockCanvas
open Relation

-- What is stored at the sockets of a block agrees with its definition and with those of its sources.
structure Block.Fits (definition? : String → Option Definition) (id : String) (block : Block) : Prop where
  connection : ∀ socket connection, block.inputs.get? socket = some connection →
    connection.socket = socket ∧ connection.target = id ∧
      ∃ source output input, definition? connection.source = some source ∧ source.output = some output ∧
        block.definition.input? socket = some input ∧ input.acceptsType output.type = true
  value : ∀ socket value, block.values.get? socket = some value →
    ∃ input, block.definition.input? socket = some input ∧ input.type.admits value = true

namespace Block.Fits
variable {known more : String → Option Definition} {id socket : String} {block : Block}

theorem fresh (known : String → Option Definition) (id : String) (definition : Definition)
    (position : Position) : (Block.fresh definition position).Fits known id := by
  refine ⟨?_, ?_⟩
  · intro socket connection found
    simp [Block.fresh] at found
  · intro socket value found
    simp [Block.fresh] at found

theorem mono (fits : block.Fits known id)
    (kept : ∀ socket connection, block.inputs.get? socket = some connection →
      ∀ definition, known connection.source = some definition → more connection.source = some definition) :
    block.Fits more id := by
  refine ⟨?_, fits.value⟩
  intro socket connection found
  obtain ⟨own, here, source, output, input, given, rest⟩ := fits.connection socket connection found
  exact ⟨own, here, source, output, input, kept socket connection found source given, rest⟩

theorem setValue {input : Socket} {value : Value} (fits : block.Fits known id)
    (declared : block.definition.input? socket = some input) (admitted : input.type.admits value = true) :
    Block.Fits known id { block with values := block.values.put socket value } := by
  refine ⟨fits.connection, ?_⟩
  intro other stored found
  rw [Table.get?_put] at found
  by_cases same : socket = other
  · subst other
    rw [if_pos rfl] at found
    cases found
    exact ⟨input, declared, admitted⟩
  · rw [if_neg same] at found
    exact fits.value other stored found

theorem clearValue (fits : block.Fits known id) (socket : String) : (block.clearValue socket).Fits known id := by
  refine ⟨fits.connection, ?_⟩
  intro other stored found
  simp only [Block.clearValue, Table.get?_erase] at found
  split at found
  · cases found
  · exact fits.value other stored found

theorem attach {source : String} {giving : Definition} {output input : Socket} (fits : block.Fits known id)
    (given : known source = some giving) (out : giving.output = some output)
    (declared : block.definition.input? socket = some input)
    (accepted : input.acceptsType output.type = true) : (block.attach ⟨source, id, socket⟩).Fits known id := by
  refine ⟨?_, fits.value⟩
  intro other connection found
  rw [Block.attach, Table.get?_put] at found
  by_cases same : socket = other
  · subst other
    rw [if_pos rfl] at found
    cases found
    exact ⟨rfl, rfl, giving, output, input, given, out, declared, accepted⟩
  · rw [if_neg same] at found
    exact fits.connection other connection found

theorem detach (fits : block.Fits known id) (socket : String) : (block.detach socket).Fits known id := by
  refine ⟨?_, fits.value⟩
  intro other connection found
  simp only [Block.detach, Table.get?_erase] at found
  split at found
  · cases found
  · exact fits.connection other connection found

theorem dropSource (fits : block.Fits known id) (source : String) : (block.dropSource source).Fits known id := by
  refine ⟨?_, fits.value⟩
  intro other connection found
  simp only [Block.dropSource, Table.get?_filter, Option.filter_eq_some_iff] at found
  exact fits.connection other connection found.1

end Block.Fits

namespace Graph
variable {graph changed : Graph} {id socket source target : String}

-- The first block's output stands at a socket of the second.
def Feeds (graph : Graph) (source target : String) : Prop :=
  ∃ block socket connection, graph.get? target = some block ∧
    block.inputs.get? socket = some connection ∧ connection.source = source

def Depends (graph : Graph) (first second : String) : Prop :=
  second ∈ graph.dependencies first

structure Wired (graph : Graph) : Prop where
  fits : ∀ id block, graph.get? id = some block → block.Fits graph.definition? id
  acyclic : Acyclic graph.Feeds

-- The search finds what a block depends on, and only that, even where links and connections form circles.

theorem search_iff {pending unseen : List String} :
    graph.search target pending unseen = true ↔
      ∃ start ∈ pending, ReflTransGen (Leaving graph.Depends unseen) start target := by
  fun_induction search graph target pending unseen with
  | case1 unseen => simp
  | case2 unseen rest => exact ⟨fun _ => ⟨target, List.mem_cons_self, .refl⟩, fun _ => rfl⟩
  | case3 unseen id rest apart present _ ih =>
      have kept : ∀ a b, Leaving graph.Depends (unseen.erase id) a b → Leaving graph.Depends unseen a b :=
        fun _ _ taken => ⟨List.mem_of_mem_erase taken.1, taken.2⟩
      rw [ih]
      constructor
      · rintro ⟨start, member, way⟩
        have older := ReflTransGen.mono kept _ _ way
        rcases List.mem_append.mp member with below | waiting
        · exact ⟨id, List.mem_cons_self, .head ⟨present, below⟩ older⟩
        · exact ⟨start, List.mem_cons_of_mem id waiting, older⟩
      · rintro ⟨start, member, way⟩
        rcases List.mem_cons.mp member with same | waiting
        · subst start
          obtain ⟨_, next, below, rest⟩ := leave_start apart way
          exact ⟨next, List.mem_append_left _ below, rest⟩
        · rcases leave_once id way with direct | ⟨next, below, rest⟩
          · exact ⟨start, List.mem_append_right _ waiting, direct⟩
          · exact ⟨next, List.mem_append_left _ below, rest⟩
  | case4 unseen id rest apart absent ih =>
      rw [ih]
      constructor
      · rintro ⟨start, waiting, way⟩
        exact ⟨start, List.mem_cons_of_mem id waiting, way⟩
      · rintro ⟨start, member, way⟩
        rcases List.mem_cons.mp member with same | waiting
        · subst start
          exact absurd (leave_start apart way).1 absent
        · exact ⟨start, waiting, way⟩

theorem mem_ids_of_depends (depends : graph.Depends source target) : source ∈ graph.ids := by
  cases found : graph.get? source with
  | none => simp [Depends, dependencies, found] at depends
  | some block => exact mem_ids_iff.mpr ⟨block, found⟩

theorem dependsOn_iff : graph.dependsOn source target = true ↔ ReflTransGen graph.Depends source target := by
  have same : Leaving graph.Depends graph.ids = graph.Depends := by
    funext first second
    exact propext ⟨And.right, fun depends => ⟨mem_ids_of_depends depends, depends⟩⟩
  rw [dependsOn, search_iff, same]
  simp

theorem mem_connections_iff {block : Block} {connection : Connection} :
    connection ∈ block.connections ↔ ∃ socket, block.inputs.get? socket = some connection :=
  Table.mem_values_iff

theorem Feeds.depends (feeds : graph.Feeds source target) : graph.Depends target source := by
  obtain ⟨block, socket, connection, found, stored, rfl⟩ := feeds
  have listed : connection ∈ block.connections := mem_connections_iff.mpr ⟨socket, stored⟩
  simp only [Depends, dependencies, found]
  exact List.mem_append_left _ (List.mem_map.mpr ⟨connection, listed, rfl⟩)

-- Ways along connections and ways along dependencies run against each other.
theorem reflTransGen_depends (way : ReflTransGen graph.Feeds source target) :
    ReflTransGen graph.Depends target source := by
  induction way with
  | refl => exact .refl
  | tail _ feeds ih => exact .head feeds.depends ih

-- What editing one block does to the flow of data.

theorem feeds_change {edit : Block → Block} (feeds : (graph.change id edit).Feeds source target) :
    graph.Feeds source target ∨
      target = id ∧ ∃ block socket connection, graph.get? id = some block ∧
        (edit block).inputs.get? socket = some connection ∧ connection.source = source := by
  obtain ⟨block, socket, connection, found, stored, given⟩ := feeds
  rw [get?_change] at found
  by_cases same : id = target
  · subst target
    rw [if_pos rfl] at found
    obtain ⟨old, present, rfl⟩ := Option.map_eq_some_iff.mp found
    exact Or.inr ⟨rfl, old, socket, connection, present, stored, given⟩
  · rw [if_neg same] at found
    exact Or.inl ⟨block, socket, connection, found, stored, given⟩

namespace Wired

theorem empty : Wired Graph.empty := by
  refine ⟨?_, ?_⟩
  · intro id block found
    simp [Graph.empty, get?] at found
  · intro id cycle
    obtain ⟨_, _, feeds⟩ := TransGen.tail'_iff.mp cycle
    obtain ⟨block, _, _, found, _⟩ := feeds
    simp [Graph.empty, get?] at found

theorem relink (valid : Wired graph) (same : changed.blocks = graph.blocks) : Wired changed := by
  have definitions : changed.definition? = graph.definition? := definition?_of_blocks same
  have feeds : changed.Feeds = graph.Feeds := by
    funext source target
    rw [Feeds, Feeds, get?, get?, same]
  refine ⟨?_, ?_⟩
  · intro id block found
    rw [get?, same] at found
    rw [definitions]
    exact valid.fits id block found
  · rw [feeds]
    exact valid.acyclic

theorem add {definition : Definition} {position : Position} (valid : Wired graph)
    (added : graph.add id definition position = some changed) : Wired changed := by
  refine ⟨?_, ?_⟩
  · intro wanted block found
    rw [get?_add added] at found
    by_cases same : id = wanted
    · rw [if_pos same] at found
      cases found
      exact .fresh _ _ _ _
    · rw [if_neg same] at found
      exact (valid.fits wanted block found).mono fun _ _ _ _ known => definition?_add_of_some added known
  · apply valid.acyclic.mono
    rintro source target ⟨block, socket, connection, found, stored, given⟩
    rw [get?_add added] at found
    by_cases same : id = target
    · rw [if_pos same] at found
      cases found
      simp [Block.fresh] at stored
    · rw [if_neg same] at found
      exact ⟨block, socket, connection, found, stored, given⟩

theorem edit {edit : Block → Block} (valid : Wired graph)
    (same : ∀ block, (edit block).definition = block.definition)
    (fits : ∀ block, graph.get? id = some block → (edit block).Fits graph.definition? id)
    (acyclic : Acyclic (graph.change id edit).Feeds) : Wired (graph.change id edit) := by
  refine ⟨?_, acyclic⟩
  intro wanted block found
  rw [definition?_change same]
  rw [get?_change] at found
  by_cases hit : id = wanted
  · subst wanted
    rw [if_pos rfl] at found
    obtain ⟨old, present, rfl⟩ := Option.map_eq_some_iff.mp found
    exact fits old present
  · rw [if_neg hit] at found
    exact valid.fits wanted block found

-- An edit that brings no connection keeps the flow free of circles.
theorem narrow {edit : Block → Block} (valid : Wired graph)
    (same : ∀ block, (edit block).definition = block.definition)
    (fits : ∀ block, graph.get? id = some block → (edit block).Fits graph.definition? id)
    (fewer : ∀ block socket connection, (edit block).inputs.get? socket = some connection →
      block.inputs.get? socket = some connection) : Wired (graph.change id edit) := by
  refine valid.edit same fits (valid.acyclic.mono ?_)
  intro source target feeds
  rcases feeds_change feeds with old | ⟨rfl, block, socket, connection, found, stored, given⟩
  · exact old
  · exact ⟨block, socket, connection, found, fewer block socket connection stored, given⟩

theorem setValue {value : Value} (valid : Wired graph)
    (accepted : graph.setValue id socket value = .ok changed) : Wired changed := by
  obtain ⟨block, input, found, declared, admitted, rfl⟩ := setValue_eq_ok_iff.mp accepted
  refine valid.narrow (fun _ => rfl) ?_ fun _ _ _ stored => stored
  intro other present
  rw [found] at present
  cases present
  exact (valid.fits id block found).setValue declared admitted

theorem connect (valid : Wired graph) (accepted : graph.connect target socket source = .ok changed) :
    Wired changed := by
  obtain ⟨targetBlock, sourceBlock, input, output, found, foundSource, declared, out, fit, clear, rfl⟩ :=
    connect_eq_ok_iff.mp accepted
  refine valid.edit (fun _ => rfl) ?_ ?_
  · intro other present
    rw [found] at present
    cases present
    exact (valid.fits target targetBlock found).attach (definition?_of_get? foundSource) out declared fit
  · have apart : ¬ ReflTransGen graph.Feeds target source := by
      intro way
      have circle := dependsOn_iff.mpr (reflTransGen_depends way)
      rw [clear] at circle
      cases circle
    apply valid.acyclic.insert apart
    intro first second feeds
    rcases feeds_change feeds with old | ⟨rfl, block, other, connection, present, stored, given⟩
    · exact Or.inl old
    · rw [Block.attach, Table.get?_put] at stored
      by_cases same : socket = other
      · rw [if_pos same] at stored
        cases stored
        exact Or.inr ⟨given.symm, rfl⟩
      · rw [if_neg same] at stored
        exact Or.inl ⟨block, other, connection, present, stored, given⟩

theorem delete (valid : Wired graph) (id : String) : Wired (graph.delete id) := by
  refine ⟨?_, ?_⟩
  · intro wanted block found
    rw [get?_delete] at found
    by_cases same : id = wanted
    · rw [if_pos same] at found
      cases found
    · rw [if_neg same] at found
      obtain ⟨old, present, rfl⟩ := Option.map_eq_some_iff.mp found
      refine ((valid.fits wanted old present).dropSource id).mono ?_
      intro socket connection stored definition known
      simp only [Block.dropSource, Table.get?_filter, Option.filter_eq_some_iff, decide_eq_true_eq] at stored
      rw [definition?_delete, if_neg (Ne.symm stored.2), known]
  · apply valid.acyclic.mono
    rintro source target ⟨block, socket, connection, found, stored, given⟩
    rw [get?_delete] at found
    by_cases same : id = target
    · rw [if_pos same] at found
      cases found
    · rw [if_neg same] at found
      obtain ⟨old, present, rfl⟩ := Option.map_eq_some_iff.mp found
      simp only [Block.dropSource, Table.get?_filter, Option.filter_eq_some_iff] at stored
      exact ⟨old, socket, connection, present, stored.1, given⟩

theorem change {catalog : Catalog} (valid : Wired graph) (step : Change catalog graph changed) :
    Wired changed := by
  cases step with
  | add known added => exact valid.add added
  | delete present => exact valid.delete _
  | setValue accepted => exact valid.setValue accepted
  | clearValue =>
      exact valid.narrow (fun _ => rfl) (fun block found => (valid.fits _ block found).clearValue _)
        fun _ _ _ stored => stored
  | move =>
      refine valid.narrow (fun _ => rfl) ?_ fun _ _ _ stored => stored
      intro block found
      exact ⟨(valid.fits _ block found).connection, (valid.fits _ block found).value⟩
  | connect accepted => exact valid.connect accepted
  | disconnect =>
      refine valid.narrow (fun _ => rfl) (fun block found => (valid.fits _ block found).detach _) ?_
      intro block other connection stored
      simp only [Block.detach, Table.get?_erase] at stored
      split at stored
      · cases stored
      · exact stored
  | setNext accepted => exact valid.relink (blocks_setNext accepted)

end Wired

theorem Grown.wired {catalog : Catalog} (grown : Grown catalog graph) : Wired graph := by
  induction grown with
  | empty => exact .empty
  | change _ step ih => exact ih.change step

-- The listed edges are the connections.

theorem mem_graph_connections_iff {connection : Connection} :
    connection ∈ graph.connections ↔
      ∃ id block socket, graph.get? id = some block ∧ block.inputs.get? socket = some connection := by
  simp only [connections, List.mem_flatMap, Table.mem_values_iff, mem_connections_iff]
  constructor
  · rintro ⟨block, ⟨id, found⟩, socket, stored⟩
    exact ⟨id, block, socket, found, stored⟩
  · rintro ⟨id, block, socket, found, stored⟩
    exact ⟨block, ⟨id, found⟩, socket, stored⟩

theorem Wired.mem_dataEdges_iff (valid : Wired graph) :
    (source, target) ∈ graph.dataEdges ↔ graph.Feeds source target := by
  simp only [dataEdges, List.mem_map, mem_graph_connections_iff]
  constructor
  · rintro ⟨connection, ⟨id, block, socket, found, stored⟩, equal⟩
    cases equal
    have here : connection.target = id := ((valid.fits id block found).connection socket connection stored).2.1
    exact ⟨block, socket, connection, here ▸ found, stored, rfl⟩
  · rintro ⟨block, socket, connection, found, stored, rfl⟩
    have here : connection.target = target :=
      ((valid.fits target block found).connection socket connection stored).2.1
    exact ⟨connection, ⟨target, block, socket, found, stored⟩, by rw [here]⟩

theorem Wired.acyclic_dataEdges (valid : Wired graph) :
    Acyclic fun source target => (source, target) ∈ graph.dataEdges :=
  valid.acyclic.mono fun _ _ listed => valid.mem_dataEdges_iff.mp listed

theorem Wired.source_mem_ids (valid : Wired graph) (feeds : graph.Feeds source target) : source ∈ graph.ids := by
  obtain ⟨block, socket, connection, found, stored, rfl⟩ := feeds
  obtain ⟨_, _, definition, _, _, given, _⟩ := (valid.fits target block found).connection socket connection stored
  obtain ⟨giving, present, _⟩ := get?_of_definition? given
  exact mem_ids_iff.mpr ⟨giving, present⟩

theorem Wired.order_perm (valid : Wired graph) : graph.evaluationOrder.order.Perm graph.ids := by
  have whole := EvaluationOrder.ofEdges_perm graph.ids graph.dataEdges
  rw [EvaluationOrder.residue_eq_nil valid.acyclic_dataEdges, List.append_nil,
    EvaluationOrder.firsts_eq_self graph.ids_nodup] at whole
  exact whole

theorem Wired.sources_first (valid : Wired graph) (feeds : graph.Feeds source target) :
    [source, target].Sublist graph.evaluationOrder.order := by
  have placed : target ∈ graph.evaluationOrder.order := by
    obtain ⟨block, _, _, found, _⟩ := feeds
    exact valid.order_perm.mem_iff.mpr (mem_ids_iff.mpr ⟨block, found⟩)
  exact EvaluationOrder.ofEdges_ordered (valid.mem_dataEdges_iff.mpr feeds) (valid.source_mem_ids feeds) placed

-- Everything stored fits its socket, and the blocks can be evaluated one after the other.
structure Evaluable (graph : Graph) : Prop where
  connection : ∀ id block socket connection, graph.get? id = some block →
    block.inputs.get? socket = some connection →
      connection.socket = socket ∧ connection.target = id ∧
        ∃ source output input, graph.get? connection.source = some source ∧
          source.definition.output = some output ∧ block.definition.input? socket = some input ∧
          input.acceptsType output.type = true
  value : ∀ id block socket value, graph.get? id = some block → block.values.get? socket = some value →
    ∃ input, block.definition.input? socket = some input ∧ input.type.admits value = true
  acyclic : Acyclic fun source target => (source, target) ∈ graph.dataEdges
  complete : graph.evaluationOrder.residue = []
  distinct : graph.evaluationOrder.order.Nodup
  permutation : graph.evaluationOrder.order.Perm graph.ids
  ordered : ∀ connection ∈ graph.connections,
    [connection.source, connection.target].Sublist graph.evaluationOrder.order

theorem Wired.evaluable (valid : Wired graph) : Evaluable graph := by
  refine ⟨?_, fun id block socket value found => (valid.fits id block found).value socket value,
    valid.acyclic_dataEdges, EvaluationOrder.residue_eq_nil valid.acyclic_dataEdges,
    valid.order_perm.nodup_iff.mpr graph.ids_nodup, valid.order_perm, ?_⟩
  · intro id block socket connection found stored
    obtain ⟨own, here, _, output, input, given, out, rest⟩ :=
      (valid.fits id block found).connection socket connection stored
    obtain ⟨source, present, rfl⟩ := get?_of_definition? given
    exact ⟨own, here, source, output, input, present, out, rest⟩
  · intro connection listed
    apply valid.sources_first
    apply valid.mem_dataEdges_iff.mp
    exact List.mem_map.mpr ⟨connection, listed, rfl⟩

end Graph

variable {catalog : Catalog} {canvas : Canvas}

theorem reached_evaluable (path : Reached catalog canvas) : canvas.graph.Evaluable :=
  path.grown.wired.evaluable

-- A number goes into both operands of a sum, and the sum into a write that was placed before them.
def sumCommands : List Command :=
  [.create "io.write" none, .create "op.add" none, .create "literal.number" none,
    .setValue "gen-3" "value" (.int 5), .connect "gen-1" "value" "gen-2",
    .connect "gen-2" "left" "gen-3", .connect "gen-2" "right" "gen-3"]

theorem reached_evaluable_sum :
    (Canvas.run Catalog.builtin sumCommands).graph.Evaluable ∧
      (Canvas.run Catalog.builtin sumCommands).graph.evaluationOrder.order = ["gen-3", "gen-2", "gen-1"] :=
  ⟨reached_evaluable (reached_run (by simp [sumCommands, Command.Known])), by cbv⟩

end BlockCanvas
