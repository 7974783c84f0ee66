import BlockCanvas.Proofs.Rendering
import BlockCanvas.Proofs.Residue
namespace BlockCanvas
open Relation

namespace Node

-- The nodes that stand directly below a node, from left to right.
def children : Node → List Node
  | .binary _ left right _ => [left, right]
  | .declare _ initial _ => [initial]
  | .assign _ value _ => [value]
  | .write value _ => [value]
  | .branch condition consequent alternate _ => condition :: (consequent ++ alternate.getD [])
  | .loop condition body _ => condition :: body
  | _ => []

def IsChild (parent child : Node) : Prop := child ∈ parent.children

-- The node is one of the statements of a program or stands below one, at any depth.
def Occurs (program : List Node) (node : Node) : Prop :=
  ∃ top ∈ program, ReflTransGen IsChild top node

-- Every block of the program is in the order, and comes after the blocks of the nodes below its own.
structure InOrder (order : List String) (program : List Node) : Prop where
  listed : ∀ node id, Occurs program node → node.block? = some id → id ∈ order
  ordered : ∀ parent child id inner, Occurs program parent → child ∈ parent.children →
    parent.block? = some id → child.block? = some inner → inner ≠ id → order.idxOf inner < order.idxOf id

end Node

-- Each node of a tree comes from a block on the canvas, and a node below it from the same block or from one
-- that feeds it.
inductive Graph.Grounded (graph : Graph) : Node → Prop
  | absent : Grounded graph .absent
  | block {node : Node} {id : String} (own : node.block? = some id) (present : id ∈ graph.ids)
      (fed : ∀ child ∈ node.children, ∀ inner, child.block? = some inner → inner = id ∨ graph.Feeds inner id)
      (below : ∀ child ∈ node.children, Grounded graph child) : Grounded graph node

namespace Build
variable {graph : Graph} {id socket : String} {block : Block} {build : String → Built Node}

theorem feeds_of_source {feeding : String} (found : graph.get? id = some block)
    (given : (source (m := Built) graph id block socket).value = some feeding) : graph.Feeds feeding id := by
  unfold source at given
  cases stored : block.inputs.get? socket with
  | none =>
      rw [stored] at given
      cases given
  | some connection =>
      rw [stored] at given
      dsimp only at given
      split at given
      · cases given
        exact ⟨block, socket, connection, found, stored, rfl⟩
      · cases given

-- What may stand below a node of the block: a tree of the block itself, of one that feeds it, or nothing.
structure Below (graph : Graph) (id : String) (node : Node) : Prop where
  grounded : graph.Grounded node
  fed : ∀ inner, node.block? = some inner → inner = id ∨ graph.Feeds inner id

theorem Below.absent (graph : Graph) (id : String) : Below graph id .absent := by
  refine ⟨.absent, ?_⟩
  intro inner named
  cases named

theorem grounded_of_below {node : Node} (own : node.block? = some id) (found : graph.get? id = some block)
    (below : ∀ child ∈ node.children, Below graph id child) : graph.Grounded node :=
  .block own (Graph.mem_ids_iff.mpr ⟨block, found⟩) (fun child member => (below child member).fed)
    fun child member => (below child member).grounded

theorem block?_literal (id : String) (value : Value) : (literal id value).block? = some id := by
  cases value <;> rfl

theorem children_literal (id : String) (value : Value) : (literal id value).children = [] := by
  cases value <;> rfl

theorem literal_below (found : graph.get? id = some block) (value : Value) : Below graph id (literal id value) := by
  refine ⟨grounded_of_below (block?_literal id value) found ?_, ?_⟩
  · rw [children_literal]
    exact fun _ member => absurd member List.not_mem_nil
  · intro inner named
    rw [block?_literal] at named
    exact Or.inl (Option.some.inj named).symm

-- Every block on the canvas is built into a grounded tree with its own name on top.
def Rooted (graph : Graph) (build : String → Built Node) : Prop :=
  ∀ id, graph.contains id = true → graph.Grounded (build id).value ∧ (build id).value.block? = some id

theorem Rooted.below {feeding : String} (rooted : Rooted graph build) (found : graph.get? id = some block)
    (given : (source (m := Built) graph id block socket).value = some feeding) : Below graph id (build feeding).value := by
  obtain ⟨grounded, own⟩ := rooted feeding (contains_of_source given)
  refine ⟨grounded, ?_⟩
  intro inner named
  rw [own] at named
  cases named
  exact Or.inr (feeds_of_source found given)

theorem operand_below {default : Value} (rooted : Rooted graph build) (found : graph.get? id = some block) :
    Below graph id (operand build graph id block socket default).value := by
  simp only [operand, Built.value_bind]
  cases given : (source (m := Built) graph id block socket).value with
  | none => exact literal_below found _
  | some feeding => exact rooted.below found given

theorem formNode_grounded (rooted : Rooted graph build) (found : graph.get? id = some block) :
    graph.Grounded (formNode build graph id block).value ∧ (formNode build graph id block).value.block? = some id := by
  have leaf : ∀ node : Node, node.block? = some id → node.children = [] →
      graph.Grounded node ∧ node.block? = some id := by
    intro node own bare
    refine ⟨grounded_of_below own found ?_, own⟩
    rw [bare]
    exact fun _ member => absurd member List.not_mem_nil
  unfold formNode
  cases ExpressionForm.of block.definition.id with
  | read =>
      obtain ⟨prompt, equal⟩ := readNode_value build graph id block
      simp only [equal]
      exact leaf _ rfl rfl
  | lookup => exact leaf _ rfl rfl
  | literal default => exact leaf _ (block?_literal id _) (children_literal id _)
  | operation operator =>
      refine ⟨grounded_of_below rfl found ?_, rfl⟩
      intro child member
      have operands := (List.mem_cons.mp member).imp_right List.mem_singleton.mp
      rcases operands with left | right
      · exact left ▸ operand_below rooted found
      · exact right ▸ operand_below rooted found
  | unknown => exact leaf _ (block?_literal id _) (children_literal id _)

-- The induction is on the blocks still open. A block met again is a leaf with its own name.
theorem expression_rooted (graph : Graph) (opened : List String) : Rooted graph (expression graph opened) := by
  induction size : opened.length using Nat.strong_induction_on generalizing opened with
  | _ size ih =>
    intro id present
    obtain ⟨block, found⟩ := Graph.contains_eq_true_iff.mp present
    rw [expression]
    by_cases listed : id ∈ opened
    · simp only [found, listed, dite_true, Built.value_deepened]
      exact formNode_grounded (ih (opened.erase id).length (size ▸ length_erase_lt listed) _ rfl) found
    · simp only [found, listed, dite_false]
      exact ⟨(literal_below found (.text "")).grounded, rfl⟩

theorem initialValue_below (rooted : Rooted graph build) (found : graph.get? id = some block) :
    Below graph id (initialValue build graph id block).value := by
  simp only [initialValue, Built.value_bind]
  cases given : (source (m := Built) graph id block "value").value with
  | none =>
      dsimp only
      split
      · exact .absent graph id
      · exact .absent graph id
      · exact literal_below found _
  | some feeding => exact rooted.below found given

theorem statement_grounded (rooted : Rooted graph build) (found : graph.get? id = some block) :
    ∀ node ∈ (statement build graph id block).value, graph.Grounded node := by
  have single : ∀ (node child : Node), node.block? = some id → node.children = [child] →
      Below graph id child → ∀ other ∈ [node], graph.Grounded other := by
    intro node child own only below other member
    rw [List.mem_singleton.mp member]
    refine grounded_of_below own found ?_
    rw [only]
    exact List.forall_mem_singleton.mpr below
  unfold statement
  cases StatementForm.of block.definition.id with
  | write => exact single _ _ rfl rfl (operand_below rooted found)
  | declare => exact single _ _ rfl rfl (initialValue_below rooted found)
  | assign => exact single _ _ rfl rfl (operand_below rooted found)
  | branch => exact single _ _ rfl rfl (operand_below rooted found)
  | loop => exact single _ _ rfl rfl (operand_below rooted found)
  | unknown => exact List.forall_mem_nil _

theorem statements_grounded (rooted : Rooted graph build) (ids : List String) :
    ∀ node ∈ (statements build graph ids).value, graph.Grounded node := by
  intro node listed
  obtain ⟨id, _, block, found, made⟩ := (mem_value_statements ids).mp listed
  exact statement_grounded rooted found node made

end Build

namespace Graph
variable {graph : Graph} {node parent child : Node} {id inner : String}

theorem Grounded.descend (grounded : graph.Grounded parent) (below : parent.IsChild child) : graph.Grounded child := by
  cases grounded with
  | absent => cases below
  | block _ _ _ others => exact others child below

theorem Grounded.mem_ids (grounded : graph.Grounded node) (named : node.block? = some id) : id ∈ graph.ids := by
  cases grounded with
  | absent => cases named
  | block own present _ _ =>
      rw [own] at named
      cases named
      exact present

theorem Grounded.feeds (grounded : graph.Grounded parent) (below : parent.IsChild child)
    (named : parent.block? = some id) (childNamed : child.block? = some inner) (apart : inner ≠ id) :
    graph.Feeds inner id := by
  cases grounded with
  | absent => cases below
  | block own _ fed _ =>
      rw [own] at named
      cases named
      exact (fed child below inner childNamed).resolve_left apart

-- The whole tree of any graph is grounded, circles among its connections included.
theorem occurs_grounded (occurs : Node.Occurs graph.program.value node) : graph.Grounded node := by
  obtain ⟨top, listed, way⟩ := occurs
  induction way with
  | refl => exact Build.statements_grounded (Build.expression_rooted graph graph.ids) _ top listed
  | tail _ below ih => exact ih.descend below

-- The order of evaluation and the program tree that one compilation gives agree.
structure TreeOrdered (graph : Graph) : Prop where
  distinct : graph.evaluationOrder.order.Nodup
  built : graph.Builds fun program _ => Node.InOrder graph.evaluationOrder.order program
  compiled : ∀ unit, graph.Compiles unit fun compiled => compiled.value.order = graph.evaluationOrder.order ∧
    graph.Builds fun program _ => Source.program unit program = .ok compiled.value.code

theorem Wired.program_inOrder (wired : graph.Wired) :
    Node.InOrder graph.evaluationOrder.order graph.program.value := by
  have distinct : graph.evaluationOrder.order.Nodup := wired.order_perm.nodup_iff.mpr graph.ids_nodup
  refine ⟨?_, ?_⟩
  · intro node id occurs named
    exact wired.order_perm.mem_iff.mpr ((occurs_grounded occurs).mem_ids named)
  · intro parent child id inner occurs below named childNamed apart
    have feeds := (occurs_grounded occurs).feeds below named childNamed apart
    exact EvaluationOrder.idxOf_lt_of_sublist distinct (wired.sources_first feeds)

theorem Wired.treeOrdered (wired : graph.Wired) : graph.TreeOrdered where
  distinct := wired.order_perm.nodup_iff.mpr graph.ids_nodup
  built := builds_of wired.program_inOrder
  compiled unit := compiles_of fun short => ⟨rfl, builds_of (program_text unit short)⟩

end Graph

variable {catalog : Catalog} {canvas : Canvas}

theorem reached_tree_ordered (path : Reached catalog canvas) : canvas.graph.TreeOrdered :=
  path.grown.wired.treeOrdered

-- The sum stands below the write, and the number that both operands share below the sum, once for each.
theorem reached_tree_ordered_sum :
    (Canvas.run Catalog.builtin sumCommands).graph.TreeOrdered ∧
      Builder.program Builder.usualRoom (Canvas.run Catalog.builtin sumCommands).graph ⟨[], [], []⟩ =
        .ok [.write (.binary "+" (.literal (.int 5) .number (some "gen-3")) (.literal (.int 5) .number (some "gen-3"))
          (some "gen-2")) (some "gen-1")] ⟨[], [], []⟩ ∧
      (Canvas.run Catalog.builtin sumCommands).graph.evaluationOrder.order = ["gen-3", "gen-2", "gen-1"] := by
  refine ⟨reached_tree_ordered (reached_run (by simp [sumCommands, Command.Known])), ?_, by cbv⟩
  have program : (Canvas.run Catalog.builtin sumCommands).graph.program =
      ⟨[.write (.binary "+" (.literal (.int 5) .number (some "gen-3")) (.literal (.int 5) .number (some "gen-3"))
        (some "gen-2")) (some "gen-1")], [.nested 1, .nested 2, .nested 2]⟩ := by cbv
  rw [Builder.program_eq, program]
  rfl

end BlockCanvas
