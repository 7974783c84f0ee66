import BlockCanvas.Compile
import BlockCanvas.Proofs.Typing
namespace BlockCanvas

namespace Node

-- An expression with expressions for its operands.
def isExpression : Node → Bool
  | .literal .. => true
  | .identifier .. => true
  | .read .. => true
  | .binary _ left right _ => left.isExpression && right.isExpression
  | _ => false

-- What a declaration may start from: nothing or an expression.
def isInitial : Node → Bool
  | .absent => true
  | node => node.isExpression

mutual

-- A statement with expressions and statements where they belong.
def isStatement : Node → Bool
  | .declare _ initial _ => initial.isInitial
  | .assign _ value _ => value.isExpression
  | .write value _ => value.isExpression
  | .branch condition consequent alternate _ =>
      condition.isExpression && areStatements consequent && isAlternate alternate
  | .loop condition body _ => condition.isExpression && areStatements body
  | _ => false

def areStatements : List Node → Bool
  | [] => true
  | node :: rest => node.isStatement && areStatements rest

def isAlternate : Option (List Node) → Bool
  | none => true
  | some nodes => areStatements nodes

end

theorem areStatements_append (first second : List Node) :
    areStatements (first ++ second) = (areStatements first && areStatements second) := by
  induction first with
  | nil => simp [areStatements]
  | cons node rest ih => simp [areStatements, ih, Bool.and_assoc]

end Node

namespace Source
variable {unit : String} {level : Nat}

-- What is written when every number is short enough.
def provided (fits : Bool) (written : α) : Except RenderError α :=
  if fits then .ok written else .error (.oversized .written)

theorem provided_bind (fits others : Bool) (written : α) (next : α → β) :
    (do let first ← provided fits written; provided others (next first)) = provided (fits && others) (next written) := by
  cases fits <;> rfl

theorem provided_map (fits : Bool) (written : α) (shape : α → β) :
    (do return shape (← provided fits written)) = provided fits (shape written) := by
  cases fits <;> rfl

-- The text of a literal, of an expression, and of the first line of a statement.

def literalText (value : Value) : LiteralType → String
  | .text => Text.quoted value.unboundedText
  | .boolean => if value.isTrue then "verdadeiro" else "falso"
  | .number => value.unboundedNumber

theorem literal_eq (value : Value) (type : LiteralType) :
    literal value type = provided (Node.literalFits value type) (literalText value type) := by
  cases type with
  | boolean => rfl
  | text =>
      unfold literal Value.shown Node.literalFits
      cases value.fits <;> rfl
  | number =>
      unfold literal Value.writtenNumber Node.literalFits
      cases value.fits <;> rfl

def spelling : Node → String
  | .literal value type _ => literalText value type
  | .identifier name _ => name
  | .read prompt _ => read prompt
  | .binary symbol left right _ => "(" ++ spelling left ++ " " ++ symbol ++ " " ++ spelling right ++ ")"
  | _ => ""

def headline : Node → String
  | .write value _ => "escreva(" ++ spelling value ++ ")"
  | .declare name .absent _ => "var " ++ name
  | .declare name initial _ => "var " ++ name ++ " = " ++ spelling initial
  | .assign name value _ => name ++ " = " ++ spelling value
  | .branch condition _ _ _ => "se (" ++ spelling condition ++ ") entao \x7b"
  | .loop condition _ _ => "enquanto (" ++ spelling condition ++ ") faca \x7b"
  | _ => ""

mutual

-- The lines of a statement after its first.
def remainder (unit : String) (level : Nat) : Node → List String
  | .branch _ consequent alternate _ =>
      orEmptyBody unit (level + 1) (listing unit (level + 1) consequent) ++
        otherwise unit level alternate ++ [line unit level "\x7d"]
  | .loop _ body _ =>
      orEmptyBody unit (level + 1) (listing unit (level + 1) body) ++ [line unit level "\x7d"]
  | _ => []

def listing (unit : String) (level : Nat) : List Node → List String
  | [] => []
  | node :: rest =>
      line unit level (headline node) :: (remainder unit level node ++ listing unit level rest)

def otherwise (unit : String) (level : Nat) : Option (List Node) → List String
  | none => []
  | some [] => []
  | some (node :: rest) =>
      line unit level "\x7d senao \x7b" :: orEmptyBody unit (level + 1) (listing unit (level + 1) (node :: rest))

end

theorem expression_eq {node : Node} (sorted : node.isExpression = true) :
    expression node = provided node.fits (spelling node) := by
  fun_induction Node.isExpression node with
  | case1 value type block => exact literal_eq value type
  | case2 => rfl
  | case3 => rfl
  | case4 symbol left right block leftIh rightIh =>
      obtain ⟨leftSorted, rightSorted⟩ := Bool.and_eq_true_iff.mp sorted
      rw [expression, leftIh leftSorted, rightIh rightSorted]
      simp only [provided_map, provided_bind]
      rfl
  | case5 => cases sorted

theorem headline_declare {name : String} {initial : Node} {block : Option String}
    (sorted : initial.isExpression = true) :
    headline (.declare name initial block) = "var " ++ name ++ " = " ++ spelling initial := by
  rw [headline]
  rintro rfl
  cases sorted

theorem declare_eq (unit : String) (level : Nat) (name : String) {initial : Node} (block : Option String)
    (sorted : initial.isInitial = true) :
    statement unit level (.declare name initial block) =
      provided initial.fits [line unit level (headline (.declare name initial block))] := by
  by_cases nothing : initial = .absent
  · subst nothing
    rfl
  · have inner : initial.isExpression = true := by
      rwa [Node.isInitial] at sorted
      exact nothing
    rw [statement, expression_eq inner, headline_declare inner, provided_map]
    exact nothing

mutual

theorem statement_eq (unit : String) (level : Nat) : ∀ node : Node, node.isStatement = true →
    statement unit level node = provided node.fits (line unit level (headline node) :: remainder unit level node)
  | .absent, sorted => by cases sorted
  | .literal .., sorted => by cases sorted
  | .identifier .., sorted => by cases sorted
  | .read .., sorted => by cases sorted
  | .binary .., sorted => by cases sorted
  | .declare name initial block, sorted => declare_eq unit level name block sorted
  | .assign name value block, sorted => by
      rw [statement, expression_eq sorted, provided_map]
      rfl
  | .write value block, sorted => by
      rw [statement, expression_eq sorted, provided_map]
      rfl
  | .branch condition consequent alternate block, sorted => by
      simp only [Node.isStatement, Bool.and_eq_true] at sorted
      obtain ⟨⟨test, inner⟩, other⟩ := sorted
      rw [statement, expression_eq test, statements_eq unit (level + 1) consequent inner,
        alternative_eq unit level alternate other]
      simp only [provided_map, provided_bind, ← Bool.and_assoc]
      rfl
  | .loop condition body block, sorted => by
      simp only [Node.isStatement, Bool.and_eq_true] at sorted
      obtain ⟨test, inner⟩ := sorted
      rw [statement, expression_eq test, statements_eq unit (level + 1) body inner]
      simp only [provided_map, provided_bind]
      rfl

theorem statements_eq (unit : String) (level : Nat) : ∀ nodes : List Node, Node.areStatements nodes = true →
    statements unit level nodes = provided (Node.allFit nodes) (listing unit level nodes)
  | [], _ => rfl
  | node :: rest, sorted => by
      simp only [Node.areStatements, Bool.and_eq_true] at sorted
      rw [statements, statement_eq unit level node sorted.1, statements_eq unit level rest sorted.2]
      simp only [provided_map, provided_bind]
      rfl

theorem alternative_eq (unit : String) (level : Nat) : ∀ alternate : Option (List Node),
    Node.isAlternate alternate = true →
      alternative unit level alternate = provided (Node.alternateFits alternate) (otherwise unit level alternate)
  | none, _ => rfl
  | some [], _ => rfl
  | some (node :: rest), sorted => by
      rw [alternative, statements_eq unit (level + 1) (node :: rest) sorted, provided_map]
      rfl

end

-- All lines of a program.
def page (unit : String) (body : List Node) : List String :=
  ["programa \x7b", line unit 1 "funcao inicio() \x7b"] ++
    (if (listing unit 2 body).isEmpty then [line unit 2 emptyProgram] else listing unit 2 body) ++
    [line unit 1 "\x7d", "\x7d"]

theorem program_eq (unit : String) {body : List Node} (sorted : Node.areStatements body = true) :
    program unit body = provided (Node.allFit body) ("\n".intercalate (page unit body)) := by
  rw [program, programLines, statements_eq unit 2 body sorted]
  cases Node.allFit body <;> rfl

end Source

namespace Build
variable {graph : Graph} {block : Block} {id socket : String} {default : Value}
  {build : String → Built Node}

theorem contains_of_source {feeding : String}
    (found : (source (m := Built) graph id block socket).value = some feeding) :
    graph.contains feeding = true := by
  unfold source at found
  split at found
  · cases found
  · split at found
    · rename_i present
      cases found
      exact present
    · cases found

theorem literal_isExpression (id : String) (value : Value) : (literal id value).isExpression = true := by
  cases value <;> rfl

theorem operand_isExpression (inner : ∀ feeding, graph.contains feeding = true → (build feeding).value.isExpression = true) :
    (operand build graph id block socket default).value.isExpression = true := by
  simp only [operand, Built.value_bind]
  cases found : (source (m := Built) graph id block socket).value with
  | none => exact literal_isExpression id _
  | some feeding => exact inner feeding (contains_of_source found)

theorem readNode_value (build : String → Built Node) (graph : Graph) (id : String) (block : Block) :
    ∃ prompt, (readNode build graph id block).value = .read prompt (some id) := by
  simp only [readNode, Built.value_bind]
  cases (source (m := Built) graph id block "prompt").value with
  | none =>
      dsimp only
      cases storedPrompt block with
      | none => exact ⟨_, rfl⟩
      | some value => exact ⟨_, rfl⟩
  | some feeding =>
      simp only [Built.value_bind]
      cases promptOf (build feeding).value with
      | none => exact ⟨_, rfl⟩
      | some prompt => exact ⟨_, rfl⟩

theorem formNode_isExpression
    (inner : ∀ feeding, graph.contains feeding = true → (build feeding).value.isExpression = true) :
    (formNode build graph id block).value.isExpression = true := by
  unfold formNode
  cases ExpressionForm.of block.definition.id with
  | read =>
      obtain ⟨prompt, equal⟩ := readNode_value build graph id block
      simp [equal, Node.isExpression]
  | lookup => rfl
  | literal default => exact literal_isExpression id _
  | operation operator => simp [operationNode, Node.isExpression, operand_isExpression inner]
  | unknown => exact literal_isExpression id _

-- Every block on the canvas can be built as an expression, whatever is still open.
theorem expression_isExpression {opened : List String} (present : graph.contains id = true) :
    (expression graph opened id).value.isExpression = true := by
  induction size : opened.length using Nat.strong_induction_on generalizing opened id with
  | _ size ih =>
    obtain ⟨block, found⟩ := Graph.contains_eq_true_iff.mp present
    rw [expression]
    by_cases listed : id ∈ opened
    · simp only [found, listed, dite_true]
      exact formNode_isExpression fun feeding there =>
        ih (opened.erase id).length (size ▸ length_erase_lt listed) there rfl
    · simp only [found, listed, dite_false]
      rfl

theorem initialValue_isInitial
    (inner : ∀ feeding, graph.contains feeding = true → (build feeding).value.isExpression = true) :
    (initialValue build graph id block).value.isInitial = true := by
  have written : ∀ node : Node, node.isExpression = true → node.isInitial = true := by
    intro node sorted
    cases node <;> first | exact sorted | rfl
  simp only [initialValue, Built.value_bind]
  cases found : (source (m := Built) graph id block "value").value with
  | none =>
      dsimp only
      split
      · rfl
      · rfl
      · exact written _ (literal_isExpression id _)
  | some feeding => exact written _ (inner feeding (contains_of_source found))

theorem statement_areStatements
    (inner : ∀ feeding, graph.contains feeding = true → (build feeding).value.isExpression = true) :
    Node.areStatements (statement build graph id block).value = true := by
  unfold statement
  cases StatementForm.of block.definition.id with
  | write => simp [Node.areStatements, Node.isStatement, operand_isExpression inner]
  | declare => simp [Node.areStatements, Node.isStatement, initialValue_isInitial inner]
  | assign => simp [Node.areStatements, Node.isStatement, operand_isExpression inner]
  | branch => simp [Node.areStatements, Node.isStatement, Node.isAlternate, operand_isExpression inner]
  | loop => simp [Node.areStatements, Node.isStatement, operand_isExpression inner]
  | unknown => rfl

theorem statements_areStatements
    (inner : ∀ feeding, graph.contains feeding = true → (build feeding).value.isExpression = true) (ids : List String) :
    Node.areStatements (statements build graph ids).value = true := by
  induction ids with
  | nil => rfl
  | cons id rest ih =>
      simp only [statements, Built.value_bind, Built.value_pure, Node.areStatements_append, ih, Bool.and_true, statementAt]
      cases graph.get? id with
      | none => rfl
      | some block => exact statement_areStatements inner

theorem mem_value_statements {node : Node} (ids : List String) :
    node ∈ (statements build graph ids).value ↔
      ∃ id ∈ ids, ∃ block, graph.get? id = some block ∧ node ∈ (statement build graph id block).value := by
  induction ids with
  | nil => simp [statements]
  | cons id rest ih =>
      simp only [statements, Built.value_bind, Built.value_pure, List.mem_append, ih, List.mem_cons, exists_eq_or_imp]
      refine or_congr ?_ Iff.rfl
      unfold statementAt
      cases graph.get? id with
      | none => simp
      | some block => simp

end Build

namespace Graph
variable {graph : Graph} {unit : String} {room : Nat}

theorem program_areStatements (graph : Graph) : Node.areStatements graph.program.value = true :=
  Build.statements_areStatements (fun _ => Build.expression_isExpression) _

-- What compiling comes to where nothing stops it.

def artifact (unit : String) (graph : Graph) : Artifact :=
  ⟨"\n".intercalate (Source.page unit graph.program.value),
    cycleNotes graph.evaluationOrder ++ graph.program.notes, graph.evaluationOrder.order⟩

-- The warnings that are logged when building takes these notes.
def warnings (graph : Graph) (notes : List Diagnostic) : Log :=
  (cycleNotes graph.evaluationOrder).map (Diagnostic.under .compiler "Compile: ") ++
    notes.map (Diagnostic.under .tree "AST build: ")

def compileLog (graph : Graph) : Log :=
  graph.warnings graph.program.notes ++
    [summary graph.size graph.program.value.length (cycleNotes graph.evaluationOrder ++ graph.program.notes).length]

-- What stops compiling, if anything does: building first, and then a number that is too long.
def failure? (room : Nat) (graph : Graph) : Option (Logged CompileError) :=
  match graph.program.trace.findSome? (Event.stop? room) with
  | some error => some ⟨.unbuilt error, graph.warnings (Event.heard room graph.program.trace)⟩
  | none =>
      if Node.allFit graph.program.value then none
      else some ⟨.unwritten (.oversized .written), graph.warnings graph.program.notes⟩

theorem program_text (unit : String) (short : Node.allFit graph.program.value = true) :
    Source.program unit graph.program.value = .ok (graph.artifact unit).code := by
  rw [Source.program_eq unit graph.program_areStatements, short]
  rfl

theorem compile_eq (room : Nat) (unit : String) (graph : Graph) :
    graph.compile room unit = match graph.failure? room with
      | some failure => .error failure
      | none => .ok ⟨graph.artifact unit, graph.compileLog⟩ := by
  simp only [compile, failure?, Builder.program_eq, Built.run]
  cases graph.program.trace.findSome? (Event.stop? room) with
  | some error => rfl
  | none =>
      simp only [Visit.after, List.nil_append]
      rw [Source.program_eq unit graph.program_areStatements]
      cases Node.allFit graph.program.value <;> rfl

theorem compile_eq_ok (clear : graph.failure? room = none) :
    graph.compile room unit = .ok ⟨graph.artifact unit, graph.compileLog⟩ := by
  rw [compile_eq, clear]

-- Compiling comes to something that holds, or is stopped at a limit.
def Compiles (graph : Graph) (unit : String) (holds : Logged Artifact → Prop) : Prop :=
  ∀ room, match graph.compile room unit with
    | .ok compiled => holds compiled
    | .error ⟨.unbuilt error, _⟩ => graph.Exceeds room error
    | .error ⟨.unwritten (.oversized _), _⟩ => graph.Oversized
    | .error _ => False

theorem compiles_of {holds : Logged Artifact → Prop}
    (held : Node.allFit graph.program.value = true → holds ⟨graph.artifact unit, graph.compileLog⟩) :
    graph.Compiles unit holds := by
  intro room
  rw [compile_eq, failure?]
  cases stopped : graph.program.trace.findSome? (Event.stop? room) with
  | some error => exact exceeds_of_stop stopped
  | none =>
      cases short : Node.allFit graph.program.value with
      | true => exact held short
      | false =>
          by_contra small
          rw [(program_short small).value] at short
          cases short

end Graph
end BlockCanvas
