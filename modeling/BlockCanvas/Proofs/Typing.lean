import BlockCanvas.Proofs.DataFlow
import BlockCanvas.Proofs.Limits
namespace BlockCanvas
open Relation

-- Types of program trees.

def LiteralType.dataType : LiteralType → DataType
  | .number => .number
  | .text => .text
  | .boolean => .boolean

namespace Node

def arithmeticSymbols : List String := ["+", "-", "*", "/"]

def orderSymbols : List String := [">", "<", ">=", "<="]

def resultType? (symbol : String) : Option DataType :=
  if symbol ∈ arithmeticSymbols then some .number
  else if symbol = "==" ∨ symbol ∈ orderSymbols then some .boolean
  else none

-- Everything can be tested for equality; the other operations want numbers.
def wantsNumbers (symbol : String) : Bool :=
  symbol ∈ arithmeticSymbols || symbol ∈ orderSymbols

-- What is known before a run about the value of an expression; a statement has no value.
def type? : Node → Option DataType
  | .literal _ type _ => some type.dataType
  | .identifier .. => some .any
  | .read .. => some .text
  | .binary symbol .. => resultType? symbol
  | _ => none

-- A number that is written out is whole or a finite double.
def isFinite : Node → Bool
  | .literal (.int _) .number _ => true
  | .literal (.float value) .number _ => value.isFinite
  | .literal _ .number _ => false
  | _ => true

def isNumeric (node : Node) : Bool :=
  (node.type? = some .number || node.type? = some .any) && node.isFinite

def isCondition (node : Node) : Bool :=
  node.type? = some .boolean || node.type? = some .any

mutual

def isWellTyped : Node → Bool
  | .absent => true
  | .literal .. => true
  | .identifier .. => true
  | .read .. => true
  | .binary symbol left right _ =>
      (resultType? symbol).isSome && left.type?.isSome && right.type?.isSome &&
        (!wantsNumbers symbol || left.isNumeric && right.isNumeric) &&
        left.isWellTyped && right.isWellTyped
  | .declare _ initial _ => initial.isWellTyped
  | .assign _ value _ => value.type?.isSome && value.isWellTyped
  | .write value _ => value.type?.isSome && value.isWellTyped
  | .branch condition consequent alternate _ =>
      condition.isCondition && condition.isWellTyped && areWellTyped consequent &&
        isAlternateWellTyped alternate
  | .loop condition body _ => condition.isCondition && condition.isWellTyped && areWellTyped body

def areWellTyped : List Node → Bool
  | [] => true
  | node :: rest => node.isWellTyped && areWellTyped rest

def isAlternateWellTyped : Option (List Node) → Bool
  | none => true
  | some nodes => areWellTyped nodes

end

-- What the expression of a block promises to the block that it feeds.
structure Yields (node : Node) (type : DataType) : Prop where
  wellTyped : node.isWellTyped = true
  type : node.type? = some type
  finite : node.isFinite = true

theorem areWellTyped_append (first second : List Node) :
    areWellTyped (first ++ second) = (areWellTyped first && areWellTyped second) := by
  induction first with
  | nil => simp [areWellTyped]
  | cons node rest ih => simp [areWellTyped, ih, Bool.and_assoc]

end Node

-- Whatever stands at the socket is of the type, as far as it can be known.
def Definition.takes (definition : Definition) (socket : String) (type : DataType) : Bool :=
  (definition.input? socket).all fun input => input.type = type && input.acceptedTypes = [type]

theorem Definition.of_takes {definition : Definition} {input : Socket}
    (takes : definition.takes socket type = true) (known : definition.input? socket = some input) :
    input.type = type ∧ input.acceptedTypes = [type] := by
  simpa [Definition.takes, known] using takes

-- The expression of a block with the definition is of the type.
def Definition.standsFor (definition : Definition) (type : DataType) : Bool :=
  match ExpressionForm.of definition.id with
  | .read => type = .text
  | .lookup => type = .any
  | .literal default =>
      type ∈ Catalog.literalTypes && type.admits default && definition.takes "value" type
  | .operation none => false
  | .operation (some operator) =>
      Node.resultType? operator.symbol = some type &&
        (!Node.wantsNumbers operator.symbol ||
          definition.takes "left" .number && definition.takes "right" .number)
  | .unknown => false

-- What building a program relies on.
def Definition.isTyped (definition : Definition) : Bool :=
  (definition.output.all fun output => definition.standsFor output.type) &&
    definition.takes "condition" .boolean

namespace Catalog
variable {definition : Definition} {id : String}

theorem get?_foldl_insert {catalog : Catalog} {definitions : List Definition}
    (found : (definitions.foldl insert catalog).get? id = some definition) :
    definition ∈ definitions ∨ catalog.get? id = some definition := by
  induction definitions generalizing catalog with
  | nil => exact Or.inr found
  | cons head rest ih =>
      rcases ih found with later | now
      · exact Or.inl (List.mem_cons_of_mem head later)
      · rw [get?, insert, Table.get?_put] at now
        split at now
        · cases now
          exact Or.inl List.mem_cons_self
        · exact Or.inr now

theorem mem_builtinDefinitions (found : builtin.get? id = some definition) : definition ∈ builtinDefinitions := by
  rcases get?_foldl_insert found with listed | old
  · exact listed
  · simp [get?, empty] at old

theorem builtinDefinitions_typed : ∀ definition ∈ builtinDefinitions, definition.isTyped = true := by
  decide +kernel

theorem typed_of_known (known : definition.Known builtin) : definition.isTyped = true :=
  builtinDefinitions_typed definition (mem_builtinDefinitions known)

end Catalog

theorem Block.stored_of_given? {block : Block} (given : block.given? socket = some value) :
    block.values.get? socket = some value := by
  unfold Block.given? at given
  split at given
  · cases given
  · exact given

namespace Build
variable {graph : Graph} {block : Block} {id socket : String} {type : DataType} {default : Value}
  {build : String → Built Node}

theorem literal_yields {value : Value} (concrete : type ∈ Catalog.literalTypes)
    (admitted : type.admits value = true) : (literal id value).Yields type := by
  simp only [Catalog.literalTypes, List.mem_cons, List.not_mem_nil, or_false] at concrete
  rcases concrete with rfl | rfl | rfl <;> cases value <;> simp [DataType.admits] at admitted
  · exact ⟨rfl, rfl, rfl⟩
  · exact ⟨rfl, rfl, admitted⟩
  · exact ⟨rfl, rfl, rfl⟩
  · exact ⟨rfl, rfl, rfl⟩

theorem literal_wellTyped (id : String) (value : Value) :
    (literal id value).isWellTyped = true ∧ (literal id value).type?.isSome = true := by
  cases value <;> exact ⟨rfl, rfl⟩

-- The block that feeds a socket has an output which the socket accepts.
theorem source_cases (wired : graph.Wired) (found : graph.get? id = some block) (socket : String) :
    (source (m := Built) graph id block socket).value = none ∨
      ∃ feeding giving output input, (source (m := Built) graph id block socket).value = some feeding ∧
        graph.Feeds feeding id ∧ graph.get? feeding = some giving ∧ giving.definition.output = some output ∧
        block.definition.input? socket = some input ∧ input.acceptsType output.type = true := by
  unfold source
  cases stored : block.inputs.get? socket with
  | none => exact Or.inl rfl
  | some connection =>
      obtain ⟨_, _, _, output, input, given, out, known, accepted⟩ :=
        (wired.fits id block found).connection socket connection stored
      obtain ⟨giving, present, rfl⟩ := Graph.get?_of_definition? given
      refine Or.inr ⟨connection.source, giving, output, input, ?_, ?_, present, out, known, accepted⟩
      · simp [Graph.contains_of_get? present]
      · exact ⟨block, socket, connection, found, stored, rfl⟩

-- Each block that feeds this one is built into an expression of the type of its output.
def Served (graph : Graph) (id : String) (build : String → Built Node) : Prop :=
  ∀ feeding giving output, graph.Feeds feeding id → graph.get? feeding = some giving →
    giving.definition.output = some output → (build feeding).value.Yields output.type

theorem operand_cases (wired : graph.Wired) (found : graph.get? id = some block)
    (served : Served graph id build) (socket : String) (default : Value) :
    (∃ output input, (operand build graph id block socket default).value.Yields output ∧
      block.definition.input? socket = some input ∧ input.acceptsType output = true) ∨
    ∃ value, (operand build graph id block socket default).value = literal id value ∧
      (value = default ∨
        ∃ input, block.definition.input? socket = some input ∧ input.type.admits value = true) := by
  simp only [operand, Built.value_bind]
  rcases source_cases wired found socket with
    free | ⟨feeding, giving, output, input, fed, feeds, present, out, known, accepted⟩
  · rw [free]
    refine Or.inr ⟨(block.given? socket).getD default, rfl, ?_⟩
    cases given : block.given? socket with
    | none => exact Or.inl rfl
    | some value => exact Or.inr ((wired.fits id block found).value socket value (Block.stored_of_given? given))
  · rw [fed]
    exact Or.inl ⟨output.type, input, served feeding giving output feeds present out, known, accepted⟩

theorem operand_wellTyped (wired : graph.Wired) (found : graph.get? id = some block)
    (served : Served graph id build) (socket : String) (default : Value) :
    (operand build graph id block socket default).value.isWellTyped = true ∧
      (operand build graph id block socket default).value.type?.isSome = true := by
  rcases operand_cases wired found served socket default with ⟨_, _, yields, _⟩ | ⟨value, equal, _⟩
  · exact ⟨yields.wellTyped, by simp [yields.type]⟩
  · rw [equal]
    exact literal_wellTyped id value

theorem operand_yields (wired : graph.Wired) (found : graph.get? id = some block)
    (served : Served graph id build) (concrete : type ∈ Catalog.literalTypes)
    (takes : block.definition.takes socket type = true) (admitted : type.admits default = true) :
    (operand build graph id block socket default).value.Yields type ∨
      (operand build graph id block socket default).value.Yields .any := by
  rcases operand_cases wired found served socket default with
    ⟨output, input, yields, known, accepted⟩ | ⟨value, equal, rfl | ⟨input, known, fitting⟩⟩
  · simp only [Socket.acceptsType, (Definition.of_takes takes known).2, List.mem_singleton, Bool.or_eq_true,
      decide_eq_true_eq] at accepted
    rcases accepted with (everything | unknown) | same
    · subst everything
      simp [Catalog.literalTypes] at concrete
    · exact Or.inr (unknown ▸ yields)
    · exact Or.inl (same ▸ yields)
  · rw [equal]
    exact Or.inl (literal_yields concrete admitted)
  · rw [equal]
    rw [(Definition.of_takes takes known).1] at fitting
    exact Or.inl (literal_yields concrete fitting)

theorem operand_isNumeric (wired : graph.Wired) (found : graph.get? id = some block)
    (served : Served graph id build) (takes : block.definition.takes socket .number = true) (whole : Int) :
    (operand build graph id block socket (.int whole)).value.isNumeric = true := by
  have admitted : DataType.number.admits (.int whole) = true := rfl
  rcases operand_yields wired found served (by decide) takes admitted with yields | yields <;>
    simp [Node.isNumeric, yields.type, yields.finite]

theorem operand_isCondition (wired : graph.Wired) (found : graph.get? id = some block)
    (served : Served graph id build) (takes : block.definition.takes socket .boolean = true) (flag : Bool) :
    (operand build graph id block socket (.bool flag)).value.isCondition = true := by
  have admitted : DataType.boolean.admits (.bool flag) = true := rfl
  rcases operand_yields wired found served (by decide) takes admitted with yields | yields <;>
    simp [Node.isCondition, yields.type]

theorem operationNode_yields {operator : Operator} (wired : graph.Wired)
    (found : graph.get? id = some block) (served : Served graph id build)
    (result : Node.resultType? operator.symbol = some type)
    (numbers : Node.wantsNumbers operator.symbol = true →
      block.definition.takes "left" .number = true ∧ block.definition.takes "right" .number = true) :
    (operationNode build graph id block (some operator)).value.Yields type := by
  have left := operand_wellTyped wired found served "left" (.int 0)
  have right := operand_wellTyped wired found served "right" (.int 0)
  refine ⟨?_, result, rfl⟩
  simp only [operationNode, chosenOperator, Built.value_pure, Built.value_bind, Node.isWellTyped,
    result, left, right, Option.isSome_some, Bool.true_and, Bool.and_true, Bool.or_eq_true,
    Bool.not_eq_true', Bool.and_eq_true]
  cases wants : Node.wantsNumbers operator.symbol with
  | false => exact Or.inl rfl
  | true =>
      obtain ⟨takesLeft, takesRight⟩ := numbers wants
      exact Or.inr ⟨operand_isNumeric wired found served takesLeft 0,
        operand_isNumeric wired found served takesRight 0⟩

theorem readNode_yields (build : String → Built Node) (graph : Graph) (id : String) (block : Block) :
    (readNode build graph id block).value.Yields .text := by
  simp only [readNode, Built.value_bind]
  cases (source (m := Built) graph id block "prompt").value with
  | none =>
      dsimp only
      cases storedPrompt block <;> exact ⟨rfl, rfl, rfl⟩
  | some feeding =>
      simp only [Built.value_bind]
      cases promptOf (build feeding).value <;> exact ⟨rfl, rfl, rfl⟩

theorem formNode_yields (wired : graph.Wired) (found : graph.get? id = some block)
    (served : Served graph id build) (stands : block.definition.standsFor type = true) :
    (formNode build graph id block).value.Yields type := by
  unfold Definition.standsFor at stands
  unfold formNode
  cases form : ExpressionForm.of block.definition.id with
  | read =>
      simp only [form, decide_eq_true_eq] at stands
      subst stands
      exact readNode_yields build graph id block
  | lookup =>
      simp only [form, decide_eq_true_eq] at stands
      subst stands
      exact ⟨rfl, rfl, rfl⟩
  | literal default =>
      simp only [form, Bool.and_eq_true, decide_eq_true_eq] at stands
      obtain ⟨⟨concrete, admitted⟩, takes⟩ := stands
      apply literal_yields concrete
      cases given : block.given? "value" with
      | none => exact admitted
      | some value =>
          obtain ⟨input, known, fitting⟩ :=
            (wired.fits id block found).value "value" value (Block.stored_of_given? given)
          rw [(Definition.of_takes takes known).1] at fitting
          exact fitting
  | operation operator =>
      cases operator with
      | none => simp [form] at stands
      | some operator =>
          simp only [form, Bool.and_eq_true, decide_eq_true_eq] at stands
          obtain ⟨result, numbers⟩ := stands
          refine operationNode_yields wired found served result ?_
          intro wants
          simpa [wants] using numbers
  | unknown => simp [form] at stands

-- While a block is being built, the blocks upstream of it are still open: none of them is met twice
-- on one way, since no connections form a cycle.
theorem expression_yields (wired : graph.Wired)
    (typed : ∀ id definition, graph.definition? id = some definition → definition.isTyped = true)
    {opened : List String} {output : Socket} (found : graph.get? id = some block)
    (out : block.definition.output = some output)
    (upstream : ∀ source, ReflTransGen graph.Feeds source id → source ∈ opened) :
    (expression graph opened id).value.Yields output.type := by
  induction size : opened.length using Nat.strong_induction_on generalizing opened id block output with
  | _ size ih =>
    have present : id ∈ opened := upstream id .refl
    have stands : block.definition.standsFor output.type = true := by
      have whole := typed id block.definition (Graph.definition?_of_get? found)
      simp only [Definition.isTyped, out, Option.all_some, Bool.and_eq_true] at whole
      exact whole.1
    rw [expression]
    simp only [found, present, dite_true, Built.value_deepened]
    refine formNode_yields wired found ?_ stands
    intro feeding giving given feeds there gives
    refine ih (opened.erase id).length (size ▸ length_erase_lt present) there gives ?_ rfl
    intro source way
    have apart : source ≠ id := by
      intro same
      subst same
      exact wired.acyclic source (TransGen.tail' way feeds)
    exact (List.mem_erase_of_ne apart).mpr (upstream source (way.tail feeds))

theorem served_ids (wired : graph.Wired)
    (typed : ∀ id definition, graph.definition? id = some definition → definition.isTyped = true) :
    Served graph id (expression graph graph.ids) := by
  intro feeding giving output feeds there gives
  refine expression_yields wired typed there gives ?_
  intro source way
  rcases ReflTransGen.cases_head way with same | ⟨next, first, _⟩
  · subst same
    exact wired.source_mem_ids feeds
  · exact wired.source_mem_ids first

theorem initialValue_wellTyped (wired : graph.Wired) (found : graph.get? id = some block)
    (served : Served graph id build) : (initialValue build graph id block).value.isWellTyped = true := by
  simp only [initialValue, Built.value_bind]
  rcases source_cases wired found "value" with
    free | ⟨feeding, giving, output, input, fed, feeds, present, out, _, _⟩
  · rw [free]
    dsimp only
    split
    · rfl
    · rfl
    · exact (literal_wellTyped id _).1
  · rw [fed]
    exact (served feeding giving output feeds present out).wellTyped

theorem statement_wellTyped (wired : graph.Wired) (found : graph.get? id = some block)
    (served : Served graph id build) (takes : block.definition.takes "condition" .boolean = true) :
    Node.areWellTyped (statement build graph id block).value = true := by
  have value := operand_wellTyped wired found served "value"
  have condition := (operand_wellTyped wired found served "condition" (.bool true)).1
  have test := operand_isCondition wired found served takes true
  unfold statement
  cases StatementForm.of block.definition.id with
  | write => simp [Node.areWellTyped, Node.isWellTyped, value]
  | declare => simp [Node.areWellTyped, Node.isWellTyped, initialValue_wellTyped wired found served]
  | assign => simp [Node.areWellTyped, Node.isWellTyped, value]
  | branch => simp [Node.areWellTyped, Node.isWellTyped, Node.isAlternateWellTyped, condition, test]
  | loop => simp [Node.areWellTyped, Node.isWellTyped, condition, test]
  | unknown => rfl

theorem statements_wellTyped (wired : graph.Wired)
    (typed : ∀ id definition, graph.definition? id = some definition → definition.isTyped = true)
    (ids : List String) : Node.areWellTyped (statements (expression graph graph.ids) graph ids).value = true := by
  induction ids with
  | nil => rfl
  | cons id rest ih =>
      simp only [statements, Built.value_bind, Built.value_pure, Node.areWellTyped_append, ih, Bool.and_true, statementAt]
      cases found : graph.get? id with
      | none => rfl
      | some block =>
          have whole := typed id block.definition (Graph.definition?_of_get? found)
          simp only [Definition.isTyped, Bool.and_eq_true] at whole
          exact statement_wellTyped wired found (served_ids wired typed) whole.2

end Build

variable {canvas : Canvas}

theorem reached_well_typed (path : Reached Catalog.builtin canvas) :
    canvas.graph.Builds fun program _ => Node.areWellTyped program = true :=
  Graph.builds_of (Build.statements_wellTyped path.grown.wired
    (fun _ _ found => Catalog.typed_of_known (path.grown.known found)) _)

-- A variable is compared with a sum that has one operand given and one not.
def compareCommands : List Command :=
  [.create "control.if" none, .create "op.compare.greater" none, .create "var.get" none,
    .create "op.add" none, .setValue "gen-4" "left" (.int 5), .connect "gen-1" "condition" "gen-2",
    .connect "gen-2" "left" "gen-3", .connect "gen-2" "right" "gen-4"]

def comparedProgram : List Node :=
  [.branch
    (.binary ">" (.identifier "variavel" (some "gen-3"))
      (.binary "+" (.literal (.int 5) .number (some "gen-4")) (.literal (.int 0) .number (some "gen-4")) (some "gen-4"))
      (some "gen-2"))
    [] none (some "gen-1")]

theorem reached_well_typed_compare :
    Builder.program Builder.usualRoom (Canvas.run Catalog.builtin compareCommands).graph ⟨[], [], []⟩ =
        .ok comparedProgram ⟨[], [], []⟩ ∧
      Node.areWellTyped comparedProgram = true := by
  have built : Builder.program Builder.usualRoom (Canvas.run Catalog.builtin compareCommands).graph ⟨[], [], []⟩ =
      .ok comparedProgram ⟨[], [], []⟩ := by
    have program : (Canvas.run Catalog.builtin compareCommands).graph.program =
        ⟨comparedProgram, [.nested 1, .nested 2, .nested 2]⟩ := by cbv
    rw [Builder.program_eq, program]
    rfl
  have path : Reached Catalog.builtin (Canvas.run Catalog.builtin compareCommands) :=
    reached_run (by simp [compareCommands, Command.Known])
  have typed := reached_well_typed path Builder.usualRoom ⟨[], [], []⟩
  rw [built] at typed
  exact ⟨built, typed⟩

end BlockCanvas
