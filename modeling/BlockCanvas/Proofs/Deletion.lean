import BlockCanvas.Proofs.Chain
import BlockCanvas.Proofs.CleanFailure
namespace BlockCanvas
open Relation

namespace Graph
variable {graph rest : Graph} {id start other : String} {block : Block}

-- The neighbours of the block that was taken out are joined, and every other link is as it was.
theorem Sequenced.next_delete (valid : Sequenced graph) (id start : String) :
    (graph.delete id).next.get? start =
      if start = id then none
      else if graph.next.get? start = some id then graph.next.get? id else graph.next.get? start := by
  change (graph.spliceOut id).next.get? start = _
  by_cases here : start = id
  · rw [if_pos here, here]
    exact (valid.spliceOut id).2.1
  · rw [if_neg here]
    unfold Graph.spliceOut
    cases behind : graph.previous.get? id with
    | none =>
        have loose : graph.next.get? start ≠ some id := by
          intro follows
          rw [valid.inverse, behind] at follows
          cases follows
        rw [if_neg loose]
        simp [next_unlinkNext, Ne.symm here]
    | some before =>
        have into : graph.next.get? start = some id ↔ before = start := by
          rw [valid.inverse, behind, Option.some.injEq]
        simp only [into]
        cases ahead : graph.next.get? id with
        | none =>
            dsimp only
            simp only [next_unlinkNext, if_neg (Ne.symm here)]
        | some after =>
            dsimp only
            rw [next_link]
            by_cases met : before = start
            · rw [if_pos met, if_pos met]
            · rw [if_neg met, if_neg met]
              simp only [next_unlinkNext, if_neg met, if_neg (Ne.symm here)]

theorem rows_delete (graph : Graph) (id : String) :
    (graph.delete id).blocks.rows =
      (graph.blocks.rows.filter fun row => row.1 ≠ id).map fun row => (row.1, row.2.dropSource id) := by
  change Rows.erase id ((graph.spliceOut id).blocks.rows.map fun row => (row.1, row.2.dropSource id)) = _
  rw [blocks_spliceOut, Rows.erase, List.filter_map]
  rfl

theorem ids_delete (graph : Graph) (id : String) : (graph.delete id).ids = graph.ids.filter fun other => other ≠ id := by
  rw [ids, Table.keys, Rows.keys, rows_delete, List.map_map, ids, Table.keys, Rows.keys, List.filter_map]
  rfl

-- The induction goes along the links, over the gap at once where the next block is the one taken out.
theorem Sequenced.chain_delete (valid : Sequenced graph) (apart : start ≠ id) :
    (graph.delete id).chain start = (graph.chain start).filter fun other => other ≠ id := by
  induction start using valid.finite.transGen.induction with
  | _ start ih =>
    by_cases present : start ∈ graph.ids
    · have kept : start ∈ (graph.delete id).ids := by
        rw [ids_delete]
        exact List.mem_filter.mpr ⟨present, by simpa using apart⟩
      rw [(valid.delete id).chain_eq kept, valid.chain_eq present, List.filter_cons_of_pos (by simpa using apart),
        valid.next_delete, if_neg apart]
      cases follows : graph.next.get? start with
      | none => rfl
      | some next =>
          by_cases gap : next = id
          · subst gap
            obtain ⟨_, _, _, found, _⟩ := valid.capable follows
            rw [if_pos rfl, Option.elim_some, valid.chain_eq (mem_ids_iff.mpr ⟨_, found⟩),
              List.filter_cons_of_neg (by simp)]
            cases ahead : graph.next.get? next with
            | none => rfl
            | some after =>
                have onward : TransGen (Function.swap graph.Follows) after start := .tail (.single ahead) follows
                exact congrArg _ (ih after onward (valid.acyclic.ne ahead).symm)
          · rw [if_neg (by simpa using gap)]
            exact congrArg _ (ih next (.single follows) gap)
    · have absent : start ∉ (graph.delete id).ids := by
        rw [ids_delete]
        exact fun member => present (List.mem_of_mem_filter member)
      rw [chain_of_absent absent, chain_of_absent present, List.filter_nil]

theorem connections_dropSource (block : Block) (id : String) :
    (block.dropSource id).connections = block.connections.filter fun connection => connection.source ≠ id := by
  rw [Block.connections, Block.connections, Table.values, Table.values, List.filter_map]
  rfl

-- A connection stands at its target, so that those of the block go with it and those from it out of the rest.
theorem connections_delete (wired : Wired graph) (id : String) :
    (graph.delete id).connections =
      graph.connections.filter fun connection => connection.source ≠ id ∧ connection.target ≠ id := by
  have target : ∀ row ∈ graph.blocks.rows, ∀ connection ∈ row.2.connections, connection.target = row.1 := by
    intro row listed connection among
    obtain ⟨socket, stored⟩ := Table.mem_values_iff.mp among
    exact ((wired.fits row.1 row.2 (Table.mem_rows_iff.mp listed)).connection socket connection stored).2.1
  rw [connections, connections, Table.values, Table.values, rows_delete]
  generalize graph.blocks.rows = rows at target ⊢
  induction rows with
  | nil => rfl
  | cons row rows ih =>
      obtain ⟨own, others⟩ := List.forall_mem_cons.mp target
      rw [List.map_cons, List.flatMap_cons, List.filter_append, ← ih others]
      by_cases hit : row.1 = id
      · have none : row.2.connections.filter
            (fun connection => connection.source ≠ id ∧ connection.target ≠ id) = [] := by
          apply List.filter_eq_nil_iff.mpr
          intro connection among
          simp [own connection among, hit]
        rw [none, List.filter_cons_of_neg (by simpa using hit), List.nil_append]
      · have same : row.2.connections.filter
            (fun connection => connection.source ≠ id ∧ connection.target ≠ id) = (row.2.dropSource id).connections := by
          rw [connections_dropSource]
          apply List.filter_congr
          intro connection among
          simp [own connection among, hit]
        rw [same, List.filter_cons_of_pos (by simpa using hit)]
        rfl

theorem dataEdges_delete (wired : Wired graph) (id : String) :
    (graph.delete id).dataEdges = graph.dataEdges.filter fun edge => edge.1 ≠ id ∧ edge.2 ≠ id := by
  rw [dataEdges, connections_delete wired, dataEdges, List.filter_map]
  rfl

-- What is left of a graph when one block is taken out.
structure Without (graph : Graph) (id : String) (rest : Graph) : Prop where
  gone : rest.get? id = none
  ids : rest.ids = graph.ids.filter fun other => other ≠ id
  kept : ∀ other block, other ≠ id → graph.get? other = some block → ∃ left, rest.get? other = some left ∧
    left.definition = block.definition ∧ left.position = block.position ∧ left.values = block.values ∧
    left.inputs.rows = block.inputs.rows.filter fun row => row.2.source ≠ id
  connections : rest.connections =
    graph.connections.filter fun connection => connection.source ≠ id ∧ connection.target ≠ id
  dataEdges : rest.dataEdges = graph.dataEdges.filter fun edge => edge.1 ≠ id ∧ edge.2 ≠ id
  chains : ∀ start, start ≠ id → rest.chain start = (graph.chain start).filter fun other => other ≠ id

theorem delete_without (sequenced : Sequenced graph) (wired : Wired graph) (id : String) :
    graph.Without id (graph.delete id) := by
  refine ⟨?_, ids_delete graph id, ?_, connections_delete wired id, dataEdges_delete wired id, ?_⟩
  · rw [get?_delete, if_pos rfl]
  · intro other block apart found
    refine ⟨block.dropSource id, ?_, rfl, rfl, rfl, rfl⟩
    rw [get?_delete, if_neg apart.symm, found, Option.map_some]
  · intro start apart
    exact sequenced.chain_delete apart

end Graph

variable {catalog : Catalog} {canvas : Canvas} {id : String}

-- Deleting succeeds for every block of the canvas, also when it is worked out write by write.
structure Canvas.Deletes (catalog : Catalog) (canvas : Canvas) (id : String) : Prop where
  outcome : (canvas.step catalog (.delete id)).2 = .deleted true
  inPlace : (canvas.inPlace catalog (.delete id)).1.toCanvas = (canvas.step catalog (.delete id)).1
  without : canvas.graph.Without id (canvas.step catalog (.delete id)).1.graph

theorem reached_deletes (path : Reached catalog canvas) (present : canvas.graph.contains id = true) :
    canvas.Deletes catalog id := by
  refine ⟨?_, (canvas.worksOut catalog (.delete id)).agrees path.keyed, ?_⟩
  · rw [Canvas.step, if_pos present]
  · rw [Canvas.step, if_pos present]
    exact Graph.delete_without path.grown.sequenced path.grown.wired id

-- The middle of three writes in a row. The text that it shows is shown by the first one too.
def rowCommands : List Command :=
  [.create "io.write" none, .create "io.write" none, .create "io.write" none, .create "literal.text" none,
    .setNext "gen-1" (some "gen-2"), .setNext "gen-2" (some "gen-3"), .connect "gen-1" "value" "gen-4",
    .connect "gen-2" "value" "gen-4"]

theorem reached_deletes_middle :
    (Canvas.run Catalog.builtin rowCommands).Deletes Catalog.builtin "gen-2" ∧
      (Canvas.run Catalog.builtin rowCommands).graph.chain "gen-1" = ["gen-1", "gen-2", "gen-3"] ∧
      ((Canvas.run Catalog.builtin rowCommands).graph.delete "gen-2").chain "gen-1" = ["gen-1", "gen-3"] ∧
      ((Canvas.run Catalog.builtin rowCommands).graph.delete "gen-2").connections =
        [⟨"gen-4", "gen-1", "value"⟩] :=
  ⟨reached_deletes (reached_run (by simp [rowCommands, Command.Known])) (by cbv), by cbv, by cbv, by cbv⟩

end BlockCanvas
