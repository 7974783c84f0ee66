import BlockCanvas.Diagnostic
import BlockCanvas.Graph.Sequence
import BlockCanvas.Program.Node
import BlockCanvas.Text.Blank
namespace BlockCanvas

-- The statements that blocks can stand for.
inductive StatementForm where
  | write
  | declare
  | assign
  | branch
  | loop
  | unknown
deriving DecidableEq

def StatementForm.of (definition : String) : StatementForm :=
  if definition = "io.write" then .write
  else if definition = "var.declare" then .declare
  else if definition = "var.set" then .assign
  else if definition = "control.if" then .branch
  else if definition = "control.while" then .loop
  else .unknown

-- The expressions that blocks can stand for; an operation may have no operator of its own.
inductive ExpressionForm where
  | read
  | lookup
  | literal (default : Value)
  | operation (operator : Option Operator)
  | unknown
deriving DecidableEq

def Operator.table : List (String × Operator) :=
  [("op.add", .add), ("op.subtract", .subtract), ("op.multiply", .multiply), ("op.divide", .divide),
    ("op.compare.equal", .equal), ("op.compare.greater", .greater), ("op.compare.less", .less),
    ("op.compare.greater_equal", .greaterEqual), ("op.compare.less_equal", .lessEqual)]

def ExpressionForm.of (definition : String) : ExpressionForm :=
  if definition = "io.read" then .read
  else if definition = "var.get" then .lookup
  else if definition = "literal.number" then .literal (.int 0)
  else if definition = "literal.text" then .literal (.text "")
  else if definition = "literal.boolean" then .literal (.bool false)
  else if definition.toList.take 3 = ['o', 'p', '.'] then
    .operation (Rows.find? definition Operator.table)
  else .unknown

-- What building a tree asks of its surroundings besides the graph: to take notes, and to show values as text.
class Building (m : Type → Type) extends Monad m where
  note : Diagnostic → m Unit
  textOf : Value → m String

namespace Build

def defaultName : String := "variavel"

-- A name of blanks only is no name.
def variableName (block : Block) : String :=
  match block.values.get? "name" with
  | some (.text name) =>
      let trimmed := Text.trimBlank name
      if trimmed = "" then defaultName else trimmed
  | _ => defaultName

def literal (id : String) (value : Value) : Node :=
  match value with
  | .bool _ => .literal value .boolean (some id)
  | .int _ => .literal value .number (some id)
  | .float _ => .literal value .number (some id)
  | .text _ => .literal value .text (some id)
  | .null => .literal (.text "") .text (some id)

def promptOf : Node → Option Value
  | .literal value _ _ => some value
  | _ => none

def storedPrompt (block : Block) : Option Value :=
  match block.values.get? "prompt" with
  | some value => if value.isTrue then some value else none
  | none => none

section Parts
variable {m : Type → Type} [Building m]

def warn (id : String) (block : Block) (note : BuildNote) : m Unit :=
  Building.note (.build id block.definition.id note)

-- The block that feeds a socket; one that is not on the canvas is noted and does not count.
def source (graph : Graph) (id : String) (block : Block) (socket : String) : m (Option String) :=
  match block.inputs.get? socket with
  | none => pure none
  | some connection =>
      if graph.contains connection.source then pure (some connection.source)
      else do
        warn id block (.missingSource socket connection.source)
        return none

-- How the expression of a feeding block is built is left open here.
variable (expression : String → m Node) (graph : Graph) (id : String) (block : Block)

-- A connection wins over a stored value, a stored value over the default.
def operand (socket : String) (default : Value) : m Node := do
  match ← source graph id block socket with
  | some feeding => expression feeding
  | none => return literal id ((block.given? socket).getD default)

def prompted (value : Value) : m Node := do
  let text ← Building.textOf value
  return .read (some text) (some id)

-- Only a literal can be a prompt; another expression is built, noted and left out.
def readNode : m Node := do
  match ← source graph id block "prompt" with
  | none =>
    match storedPrompt block with
    | some value => prompted id value
    | none => return .read none (some id)
  | some feeding =>
    let inner ← expression feeding
    match promptOf inner with
    | some value => prompted id value
    | none =>
        warn id block .promptIgnored
        return .read none (some id)

def chosenOperator : Option Operator → m Operator
  | some known => pure known
  | none => do
      warn id block .unmappedOperator
      return .add

def operationNode (operator : Option Operator) : m Node := do
  let chosen ← chosenOperator id block operator
  let left ← operand expression graph id block "left" (.int 0)
  let right ← operand expression graph id block "right" (.int 0)
  return .binary chosen.symbol left right (some id)

def formNode : m Node :=
  match ExpressionForm.of block.definition.id with
  | .read => readNode expression graph id block
  | .lookup => pure (.identifier (variableName block) (some id))
  | .literal default => pure (literal id ((block.given? "value").getD default))
  | .operation operator => operationNode expression graph id block operator
  | .unknown => do
      warn id block .unknownExpression
      return literal id ((block.given? "value").getD (.text ""))

def initialValue : m Node := do
  match ← source graph id block "value" with
  | some feeding => expression feeding
  | none =>
    match block.given? "value" with
    | none => return .absent
    | some (.text "") => return .absent
    | some value => return literal id value

def statement : m (List Node) :=
  match StatementForm.of block.definition.id with
  | .write => do
      let value ← operand expression graph id block "value" (.text "")
      return [.write value (some id)]
  | .declare => do
      let value ← initialValue expression graph id block
      return [.declare (variableName block) value (some id)]
  | .assign => do
      let value ← operand expression graph id block "value" (.int 0)
      return [.assign (variableName block) value (some id)]
  | .branch => do
      let test ← operand expression graph id block "condition" (.bool true)
      return [.branch test [] none (some id)]
  | .loop => do
      let test ← operand expression graph id block "condition" (.bool true)
      return [.loop test [] (some id)]
  | .unknown => do
      warn id block .unknownStatement
      return []

def statementAt : m (List Node) :=
  match graph.get? id with
  | none => pure []
  | some block => statement expression graph id block

def statements : List String → m (List Node)
  | [] => pure []
  | id :: rest => do
      let nodes ← statementAt expression graph id
      let others ← statements rest
      return nodes ++ others

end Parts
end Build
end BlockCanvas
