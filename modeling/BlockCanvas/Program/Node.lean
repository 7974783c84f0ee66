import BlockCanvas.Value
namespace BlockCanvas

inductive LiteralType where
  | number
  | text
  | boolean
deriving DecidableEq

def LiteralType.name : LiteralType → String
  | .number => "number"
  | .text => "text"
  | .boolean => "boolean"

inductive Operator where
  | add
  | subtract
  | multiply
  | divide
  | equal
  | greater
  | less
  | greaterEqual
  | lessEqual
deriving DecidableEq

def Operator.symbol : Operator → String
  | .add => "+"
  | .subtract => "-"
  | .multiply => "*"
  | .divide => "/"
  | .equal => "=="
  | .greater => ">"
  | .less => "<"
  | .greaterEqual => ">="
  | .lessEqual => "<="

-- A program tree as it arrives: nothing keeps a statement from standing where an expression is
-- wanted, or the other way round. Each node names the block it came from, if any.
inductive Node where
  | absent
  | literal (value : Value) (type : LiteralType) (block : Option String)
  | identifier (name : String) (block : Option String)
  | read (prompt : Option String) (block : Option String)
  | binary (symbol : String) (left right : Node) (block : Option String)
  | declare (name : String) (initial : Node) (block : Option String)
  | assign (name : String) (value : Node) (block : Option String)
  | write (value : Node) (block : Option String)
  | branch (condition : Node) (consequent : List Node) (alternate : Option (List Node))
      (block : Option String)
  | loop (condition : Node) (body : List Node) (block : Option String)
deriving Inhabited

namespace Node

-- The name a node goes by outside.
def kind : Node → String
  | .absent => "NoneType"
  | .literal .. => "Literal"
  | .identifier .. => "Identifier"
  | .read .. => "ReadExpression"
  | .binary .. => "BinaryOperation"
  | .declare .. => "VariableDeclaration"
  | .assign .. => "Assignment"
  | .write .. => "WriteStatement"
  | .branch .. => "IfStatement"
  | .loop .. => "WhileLoop"

def block? : Node → Option String
  | .absent => none
  | .literal _ _ block => block
  | .identifier _ block => block
  | .read _ block => block
  | .binary _ _ _ block => block
  | .declare _ _ block => block
  | .assign _ _ block => block
  | .write _ block => block
  | .branch _ _ _ block => block
  | .loop _ _ block => block

end Node
end BlockCanvas
