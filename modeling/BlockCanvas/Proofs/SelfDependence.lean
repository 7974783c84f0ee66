import BlockCanvas.Proofs.TreeOrder
namespace BlockCanvas
open Relation

namespace Node

def isBinary : Node → Bool
  | .binary .. => true
  | _ => false

-- The nodes on a way from the node down to a leaf.
inductive Descent : Node → List Node → Prop where
  | leaf {node : Node} (bare : node.children = []) : Descent node [node]
  | down {node child : Node} {path : List Node} (listed : child ∈ node.children) (rest : Descent child path) :
      Descent node (node :: path)

-- The blocks whose operations stand on a path.
def operations (path : List Node) : List (Option String) :=
  (path.filter isBinary).map block?

-- On every way down the operations come from different blocks, all of them among the open ones.
def Simple (opened : List String) (node : Node) : Prop :=
  ∀ path, node.Descent path → (operations path).Nodup ∧ operations path ⊆ opened.map some

variable {opened : List String} {node left right : Node} {id symbol : String}

theorem simple_leaf (bare : node.children = []) (plain : node.isBinary = false) : node.Simple opened := by
  intro path way
  cases way with
  | leaf => simp [operations, plain]
  | down listed =>
      rw [bare] at listed
      cases listed

theorem simple_binary (distinct : opened.Nodup) (present : id ∈ opened) (onLeft : left.Simple (opened.erase id))
    (onRight : right.Simple (opened.erase id)) : (Node.binary symbol left right (some id)).Simple opened := by
  intro path way
  cases way with
  | leaf bare => cases bare
  | @down _ child path listed rest =>
      have inner : child.Simple (opened.erase id) := by
        have operands := (List.mem_cons.mp listed).imp_right List.mem_singleton.mp
        rcases operands with same | same
        · exact same ▸ onLeft
        · exact same ▸ onRight
      obtain ⟨apart, within⟩ := inner path rest
      have fresh : some id ∉ operations path := by
        intro again
        obtain ⟨other, listed, same⟩ := List.mem_map.mp (within again)
        cases same
        exact distinct.not_mem_erase listed
      have kept : operations path ⊆ opened.map some :=
        fun _ member => List.map_subset some List.erase_subset (within member)
      exact ⟨List.nodup_cons.mpr ⟨fresh, apart⟩, List.cons_subset.mpr ⟨List.mem_map_of_mem present, kept⟩⟩

end Node

namespace Build
variable {graph : Graph} {block : Block} {id socket : String} {opened : List String} {default : Value}
  {build : String → Built Node}

theorem literal_simple (id : String) (value : Value) : (literal id value).Simple opened :=
  Node.simple_leaf (children_literal id value) (by cases value <;> rfl)

theorem operand_simple (inner : ∀ feeding, (build feeding).value.Simple opened) :
    (operand build graph id block socket default).value.Simple opened := by
  simp only [operand, Built.value_bind]
  cases (source (m := Built) graph id block socket).value with
  | none => exact literal_simple id _
  | some feeding => exact inner feeding

theorem formNode_simple (distinct : opened.Nodup) (present : id ∈ opened)
    (inner : ∀ feeding, (build feeding).value.Simple (opened.erase id)) :
    (formNode build graph id block).value.Simple opened := by
  unfold formNode
  cases ExpressionForm.of block.definition.id with
  | read =>
      obtain ⟨prompt, equal⟩ := readNode_value build graph id block
      simp only [equal]
      exact Node.simple_leaf rfl rfl
  | lookup => exact Node.simple_leaf rfl rfl
  | literal default => exact literal_simple id _
  | operation operator => exact Node.simple_binary distinct present (operand_simple inner) (operand_simple inner)
  | unknown => exact literal_simple id _

theorem expression_simple (graph : Graph) (id : String) (distinct : opened.Nodup) :
    (expression graph opened id).value.Simple opened := by
  induction size : opened.length using Nat.strong_induction_on generalizing opened id with
  | _ size ih =>
    rw [expression]
    cases graph.get? id with
    | none => exact Node.simple_leaf rfl rfl
    | some block =>
        by_cases present : id ∈ opened
        · simp only [present, dite_true]
          exact formNode_simple distinct present fun feeding =>
            ih (opened.erase id).length (size ▸ length_erase_lt present) feeding (distinct.erase id) rfl
        · simp only [present, dite_false]
          exact Node.simple_leaf rfl rfl

theorem initialValue_simple (inner : ∀ feeding, (build feeding).value.Simple opened) :
    (initialValue build graph id block).value.Simple opened := by
  simp only [initialValue, Built.value_bind]
  cases (source (m := Built) graph id block "value").value with
  | none =>
      dsimp only
      split
      · exact Node.simple_leaf rfl rfl
      · exact Node.simple_leaf rfl rfl
      · exact literal_simple id _
  | some feeding => exact inner feeding

theorem statement_simple {node child : Node} (inner : ∀ feeding, (build feeding).value.Simple opened)
    (listed : node ∈ (statement build graph id block).value) (below : child ∈ node.children) : child.Simple opened := by
  have single : ∀ top only : Node, node ∈ [top] → top.children = [only] → only.Simple opened → child.Simple opened := by
    intro top only same children simple
    rw [List.mem_singleton.mp same, children] at below
    exact List.mem_singleton.mp below ▸ simple
  unfold statement at listed
  cases form : StatementForm.of block.definition.id with
  | write => exact single _ _ (by simpa [form] using listed) rfl (operand_simple inner)
  | declare => exact single _ _ (by simpa [form] using listed) rfl (initialValue_simple inner)
  | assign => exact single _ _ (by simpa [form] using listed) rfl (operand_simple inner)
  | branch => exact single _ _ (by simpa [form] using listed) rfl (operand_simple inner)
  | loop => exact single _ _ (by simpa [form] using listed) rfl (operand_simple inner)
  | unknown =>
      rw [form] at listed
      cases listed

end Build

-- A block as the builder meets it, in a chain or as a source. Where a block of a chain is met as a source, only
-- the sockets of a source are followed from it.
inductive Site where
  | statement (id : String)
  | operand (id : String)

-- One connection that the builder follows.
inductive Graph.Traces (graph : Graph) : Site → Site → Prop where
  | statement {id source : String} (draws : graph.Draws statementSockets id source) :
      Traces graph (.statement id) (.operand source)
  | operand {id source : String} (draws : graph.Draws expressionSockets id source) :
      Traces graph (.operand id) (.operand source)

-- Following connections from the site leads onto a cycle of them.
def Graph.Circular (graph : Graph) (site : Site) : Prop :=
  ∃ start, ReflTransGen graph.Traces site start ∧ TransGen graph.Traces start start

theorem Graph.circular_iff {graph : Graph} {site : Site} :
    graph.Circular site ↔ ∃ next, graph.Traces site next ∧ graph.Circular next := by
  constructor
  · rintro ⟨start, way, circle⟩
    rcases way.cases_head with same | ⟨next, traces, rest⟩
    · subst start
      obtain ⟨next, traces, rest⟩ := TransGen.head'_iff.mp circle
      exact ⟨next, traces, site, rest, circle⟩
    · exact ⟨next, traces, start, rest, circle⟩
  · rintro ⟨next, traces, start, rest, circle⟩
    exact ⟨start, rest.head traces, circle⟩

theorem Graph.Circular.present {graph : Graph} {id : String} (circular : graph.Circular (.operand id)) :
    graph.contains id = true := by
  obtain ⟨_, traces, _⟩ := Graph.circular_iff.mp circular
  cases traces with
  | operand draws =>
      obtain ⟨_, _, _, found, _⟩ := draws
      exact Graph.contains_of_get? found

-- Some expression was found to depend on itself.
def Event.Circles (event : Event) : Prop :=
  ∃ id definition, event = .noted (.build id definition .selfDependent)

theorem Event.circles_deeper (event : Event) : event.deeper.Circles ↔ event.Circles := by
  cases event <;> simp [Circles, deeper]

theorem Event.inherited_circles : Inherited Circles where
  shown value circles := by
    obtain ⟨_, _, same⟩ := circles
    cases same
  noted id definition note circles := by
    obtain ⟨_, _, same⟩ := circles
    cases same
    rfl

theorem Built.meets_circles_iff {built : Built α} :
    built.Meets Event.Circles ↔ ∃ id definition, .build id definition .selfDependent ∈ built.notes := by
  constructor
  · rintro ⟨_, listed, id, definition, rfl⟩
    exact ⟨id, definition, List.mem_filterMap.mpr ⟨_, listed, rfl⟩⟩
  · rintro ⟨id, definition, noted⟩
    obtain ⟨event, listed, same⟩ := List.mem_filterMap.mp noted
    cases event <;> cases same
    exact ⟨_, listed, id, definition, rfl⟩

namespace Build
open Built
variable {graph : Graph} {block : Block} {id : String} {opened : List String}

-- The induction is on the blocks still open. A block that is not open any more lies behind the one being built,
-- so that meeting it again closes a cycle; and a cycle cannot be followed for ever through blocks that are open.
theorem expression_circles (present : graph.contains id = true)
    (behind : ∀ other ∈ graph.ids, other ∉ opened → TransGen graph.Traces (.operand other) (.operand id)) :
    (expression graph opened id).Meets Event.Circles ↔ graph.Circular (.operand id) := by
  induction size : opened.length using Nat.strong_induction_on generalizing opened id with
  | _ size ih =>
    obtain ⟨block, found⟩ := Graph.contains_eq_true_iff.mp present
    have inner : ∀ built : Built Node, built.deepened.Meets Event.Circles ↔ built.Meets Event.Circles := by
      intro built
      have plain : ¬ (Event.nested 1).Circles := by simp [Event.Circles]
      simp only [meets_deepened, Event.circles_deeper, plain, false_or]
    rw [expression, inner]
    by_cases listed : id ∈ opened
    · simp only [found, listed, dite_true]
      have ahead : ∀ feeding, graph.Draws expressionSockets id feeding → graph.contains feeding = true →
          ((expression graph (opened.erase id) feeding).Meets Event.Circles ↔ graph.Circular (.operand feeding)) := by
        intro feeding draws there
        refine ih (opened.erase id).length (size ▸ length_erase_lt listed) there ?_ rfl
        intro other member closed
        by_cases same : other = id
        · exact .single (same ▸ .operand draws)
        · exact (behind other member fun still => closed ((List.mem_erase_of_ne same).mpr still)).tail (.operand draws)
      rw [formNode_meets Event.inherited_circles found, Graph.circular_iff]
      constructor
      · rintro ⟨feeding, draws, there, circles⟩
        exact ⟨_, .operand draws, (ahead feeding draws there).mp circles⟩
      · rintro ⟨_, traces, circular⟩
        cases traces with
        | operand draws =>
            have there := circular.present
            exact ⟨_, draws, there, (ahead _ draws there).mpr circular⟩
    · simp only [found, listed, dite_false]
      have circle := behind id (Graph.mem_ids_iff.mpr ⟨block, found⟩) listed
      exact iff_of_true ⟨_, List.mem_cons_self, id, _, rfl⟩ ⟨_, .refl, circle⟩

theorem program_circles (graph : Graph) :
    graph.program.Meets Event.Circles ↔ ∃ id ∈ graph.roots.flatMap graph.chain, graph.Circular (.statement id) := by
  have afresh : ∀ feeding, graph.contains feeding = true →
      ((expression graph graph.ids feeding).Meets Event.Circles ↔ graph.Circular (.operand feeding)) :=
    fun feeding present => expression_circles present fun _ member closed => absurd member closed
  rw [Graph.program, statements_meets Event.inherited_circles]
  refine exists_congr fun id => and_congr_right fun _ => ?_
  rw [Graph.circular_iff]
  constructor
  · rintro ⟨feeding, draws, there, circles⟩
    exact ⟨_, .statement draws, (afresh feeding there).mp circles⟩
  · rintro ⟨_, traces, circular⟩
    cases traces with
    | statement draws => exact ⟨_, draws, circular.present, (afresh _ circular.present).mpr circular⟩

end Build

-- The walk along next links as a loop: it keeps the blocks it has seen, and may take so many turns.
def Graph.follow (graph : Graph) : Nat → List String → Option String → Option (List String)
  | 0, _, _ => none
  | _ + 1, _, none => some []
  | turns + 1, seen, some id =>
      if id ∈ seen then some []
      else if graph.contains id then (graph.follow turns (id :: seen) (graph.next.get? id)).map (id :: ·)
      else some []

theorem Graph.follow_eq {turns : Nat} (graph : Graph) (seen : List String) (start : Option String)
    (enough : (unmet graph.ids seen).length < turns) :
    graph.follow turns seen start = some (start.elim [] (graph.walk (unmet graph.ids seen))) := by
  induction turns generalizing seen start with
  | zero => exact absurd enough (Nat.not_lt_zero _)
  | succ turns ih =>
      cases start with
      | none => rfl
      | some id =>
          rw [follow, Option.elim_some, walk]
          by_cases met : id ∈ seen
          · have closed : id ∉ unmet graph.ids seen := fun listed => (mem_unmet_iff.mp listed).2 met
            rw [if_pos met, dif_neg closed]
          · rw [if_neg met]
            by_cases present : graph.contains id = true
            · have opened : id ∈ unmet graph.ids seen :=
                mem_unmet_iff.mpr ⟨mem_ids_iff.mpr (contains_eq_true_iff.mp present), met⟩
              have smaller := length_erase_lt opened
              have rest := ih (id :: seen) (graph.next.get? id)
              rw [unmet_cons graph.ids_nodup] at rest
              rw [if_pos present, dif_pos opened, rest (by omega)]
              cases graph.next.get? id <;> rfl
            · have closed : id ∉ unmet graph.ids seen := fun listed =>
                present (contains_eq_true_iff.mpr (mem_ids_iff.mp (mem_unmet_iff.mp listed).1))
              rw [if_neg present, dif_neg closed]

-- What building does on any graph, whether or not its links and connections close circles or lead off the canvas.
structure Graph.SafelyBuilt (graph : Graph) : Prop where
  -- The builder ends with no mark left, and is stopped only at a limit.
  ends : ∀ room visit, match Builder.program room graph visit with
    | .ok _ after => after.visiting = []
    | .error error after => after.visiting = [] ∧ graph.Exceeds room error
  -- Expressions nest no deeper than there are blocks, and one that is met again.
  shallow : ∀ depth, graph.NestsTo depth → depth ≤ graph.size + 1
  -- A chain ends within as many turns as there are blocks, and one more.
  turns : ∀ turns start, graph.size < turns → graph.follow turns [] (some start) = some (graph.chain start)
  distinct : graph.Builds fun program _ => ∀ statement ∈ program, ∀ expression ∈ statement.children, ∀ path,
    expression.Descent path → (Node.operations path).Nodup
  -- The same for each expression on the way there, also one that is left out in the end.
  within : ∀ room visit id node after, Builder.expression graph room id visit = .ok node after → ∀ path,
    node.Descent path → (Node.operations path).Nodup
  noted : graph.Builds fun _ notes => (∃ id definition, .build id definition .selfDependent ∈ notes) ↔
    ∃ id ∈ graph.roots.flatMap graph.chain, ∃ start,
      ReflTransGen graph.Traces (.statement id) start ∧ TransGen graph.Traces start start

theorem Graph.safely_built (graph : Graph) : graph.SafelyBuilt := by
  refine ⟨?_, fun _ nests => nests.le, ?_, builds_of ?_, ?_, builds_of ?_⟩
  · intro room visit
    rw [Builder.program_eq, Built.run]
    cases stopped : graph.program.trace.findSome? (Event.stop? room) with
    | none => rfl
    | some error => exact ⟨rfl, exceeds_of_stop stopped⟩
  · intro turns start enough
    have bound : (unmet graph.ids []).length < turns := by
      rw [unmet_nil]
      exact (List.length_map _).trans_lt enough
    rw [follow_eq graph [] (some start) bound, unmet_nil]
    rfl
  · intro statement listed expression below path way
    obtain ⟨id, _, block, _, made⟩ := (Build.mem_value_statements _).mp listed
    have inner : ∀ feeding, (Build.expression graph graph.ids feeding).value.Simple graph.ids :=
      fun feeding => Build.expression_simple graph feeding graph.ids_nodup
    exact (Build.statement_simple inner made below path way).1
  · intro room visit id node after made path way
    rw [Builder.expression_runs graph room visit.visiting id visit rfl, Built.run] at made
    split at made
    · cases made
    · cases made
      exact (Build.expression_simple graph id (graph.ids_nodup.filter _) path way).1
  · rw [← Built.meets_circles_iff]
    exact Build.program_circles graph

-- A sum that feeds itself is noted. A sum that is fed by the write which shows it is not, since the write is no
-- operation and ends the way as a source.
example :
    let shown := (Canvas.run Catalog.builtin [.create "io.write" none, .create "op.add" none]).graph.attach "gen-1"
      ⟨"gen-2", "gen-1", "value"⟩
    (shown.attach "gen-2" ⟨"gen-2", "gen-2", "left"⟩).program.notes = [.build "gen-2" "op.add" .selfDependent] ∧
      (shown.attach "gen-2" ⟨"gen-1", "gen-2", "left"⟩).program.notes =
        [.build "gen-1" "io.write" .unknownExpression] := by decide +kernel

end BlockCanvas
