import BlockCanvas.Proofs.Rendering
import BlockCanvas.Proofs.RoundTrip
namespace BlockCanvas

namespace Build
variable {left right : Graph}

-- Building looks at the blocks only.

theorem source_congr (same : left.blocks = right.blocks) : source (m := Built) left = source right := by
  have present : left.contains = right.contains := by
    funext id
    rw [Graph.contains, Graph.contains, same]
  funext id block socket
  simp only [source, present]

theorem operand_congr (same : left.blocks = right.blocks) (build : String → Built Node) :
    operand build left = operand build right := by
  funext id block socket default
  simp only [operand, source_congr same]

theorem formNode_congr (same : left.blocks = right.blocks) (build : String → Built Node) :
    formNode build left = formNode build right := by
  funext id block
  simp only [formNode, readNode, operationNode, source_congr same, operand_congr same]

theorem expression_congr (same : left.blocks = right.blocks) (opened : List String) (id : String) :
    expression left opened id = expression right opened id := by
  induction size : opened.length using Nat.strong_induction_on generalizing opened id with
  | _ size ih =>
    rw [expression, expression, Graph.get?, Graph.get?, same, formNode_congr same]
    congr 1
    cases right.blocks.get? id with
    | none => rfl
    | some block =>
        by_cases present : id ∈ opened
        · simp only [present, dite_true]
          rw [funext fun inner => ih (opened.erase id).length (size ▸ length_erase_lt present) _ inner rfl]
        · simp only [present, dite_false]

theorem statements_congr (same : left.blocks = right.blocks) (build : String → Built Node) (ids : List String) :
    statements build left ids = statements build right ids := by
  have each : statement build left = statement build right := by
    funext id block
    simp only [statement, initialValue, source_congr same, operand_congr same]
  induction ids with
  | nil => rfl
  | cons id rest ih => simp only [statements, statementAt, Graph.get?, same, each, ih]

end Build

namespace Graph
variable {catalog : Catalog} {left right : Graph}

theorem walk_congr (same : ∀ id, left.next.get? id = right.next.get? id) (unseen : List String) (id : String) :
    left.walk unseen id = right.walk unseen id := by
  fun_induction walk left unseen id with
  | case1 unseen id present _ ih =>
      rw [walk, dif_pos present, ← same]
      cases left.next.get? id with
      | none => rfl
      | some next =>
          dsimp only
          rw [ih next]
  | case2 unseen id absent => rw [walk, dif_neg absent]

-- Only the order in which links were made can tell the two apart.
structure Alike (left right : Graph) : Prop where
  blocks : left.blocks = right.blocks
  next : ∀ id, left.next.get? id = right.next.get? id
  previous : ∀ id, left.previous.get? id = right.previous.get? id

namespace Alike

theorem roots (alike : Alike left right) : left.roots = right.roots := by
  simp only [Graph.roots, Table.contains, alike.blocks, alike.previous]

theorem program (alike : Alike left right) : left.program = right.program := by
  have chain : left.chain = right.chain := by
    funext start
    rw [Graph.chain, Graph.chain, Graph.ids, Graph.ids, alike.blocks]
    exact walk_congr alike.next _ start
  have inner : Build.expression left left.ids = Build.expression right right.ids := by
    rw [Graph.ids, alike.blocks]
    exact funext (Build.expression_congr alike.blocks _)
  rw [Graph.program, Graph.program, alike.roots, chain, inner, Build.statements_congr alike.blocks]

theorem compile (alike : Alike left right) (room : Nat) (unit : String) :
    left.compile room unit = right.compile room unit := by
  have order : left.evaluationOrder = right.evaluationOrder := by
    simp only [evaluationOrder, ids, dataEdges, connections, alike.blocks]
  simp only [compile_eq, failure?, artifact, compileLog, warnings, order, alike.program, size, alike.blocks]

end Alike

theorem Wired.keyed {graph : Graph} {id : String} {block : Block} (wired : Wired graph)
    (found : graph.get? id = some block) : ∀ row ∈ block.inputs.rows, row.2.socket = row.1 := by
  intro row member
  exact ((wired.fits id block found).connection row.1 row.2 (Table.mem_rows_iff.mp member)).1

theorem Sequenced.next_eq_none {graph : Graph} {id : String} (sequenced : Sequenced graph)
    (absent : graph.get? id = none) : graph.next.get? id = none := by
  apply Option.eq_none_iff_forall_not_mem.mpr
  intro second follows
  obtain ⟨_, _, present, _⟩ := sequenced.capable follows
  rw [absent] at present
  cases present

-- A record says everything about its block.
theorem Sound.row_eq (leftSound : Sound catalog left) (rightSound : Sound catalog right)
    {id other : String} {block twin : Block} (found : left.get? id = some block)
    (present : right.get? other = some twin) (same : left.recordOf id block = right.recordOf other twin) :
    id = other ∧ block = twin := by
  simp only [recordOf, BlockRecord.mk.injEq] at same
  obtain ⟨ids, definitions, positions, values, connections, _⟩ := same
  refine ⟨ids, ?_⟩
  have definition : block.definition = twin.definition := by
    have known := leftSound.known id _ (definition?_of_get? found)
    rw [Definition.Known, definitions, rightSound.known other _ (definition?_of_get? present)] at known
    exact (Option.some.inj known).symm
  have bare : block.bare = twin.bare := by
    simp only [Block.bare, definition, positions, values]
  rw [← Block.foldl_attach (leftSound.wired.keyed found), ← Block.foldl_attach (rightSound.wired.keyed present),
    connections, bare]

theorem Sound.alike (leftSound : Sound catalog left) (rightSound : Sound catalog right)
    (same : left.records = right.records) : Alike left right := by
  have rows : left.blocks.rows = right.blocks.rows := by
    rw [records_eq, records_eq] at same
    rw [← List.map_id left.blocks.rows]
    apply map_eq_of_keys same
    intro row member other also equal
    obtain ⟨ids, blocks⟩ := leftSound.row_eq rightSound (Table.mem_rows_iff.mp member) (Table.mem_rows_iff.mp also) equal
    exact Prod.ext ids blocks
  have blocks : left.blocks = right.blocks := Table.ext rows
  have next : ∀ id, left.next.get? id = right.next.get? id := by
    intro id
    cases found : left.get? id with
    | some block =>
        have written : left.recordOf id block ∈ right.records := same ▸ mem_records_iff.mpr ⟨id, block, found, rfl⟩
        obtain ⟨other, twin, _, equal⟩ := mem_records_iff.mp written
        simp only [recordOf, BlockRecord.mk.injEq] at equal
        obtain ⟨rfl, _, _, _, _, next, _⟩ := equal
        exact next
    | none =>
        have missing : right.get? id = none := by rw [get?, ← blocks, ← get?, found]
        rw [leftSound.sequenced.next_eq_none found, rightSound.sequenced.next_eq_none missing]
  refine ⟨blocks, next, fun id => ?_⟩
  ext before
  rw [← leftSound.sequenced.inverse, ← rightSound.sequenced.inverse, next]

end Graph

variable {catalog : Catalog} {canvas : Canvas}

end BlockCanvas
