import BlockCanvas.BlockRecord
import BlockCanvas.EvaluationOrder
import BlockCanvas.Graph.Refusal
namespace BlockCanvas

-- A block on the canvas: values and connections by input socket.
structure Block where
  definition : Definition
  position : Position
  values : Table Value
  inputs : Table Connection
deriving DecidableEq

namespace Block

def fresh (definition : Definition) (position : Position) : Block :=
  ⟨definition, position, Table.empty, Table.empty⟩

-- A stored null counts as nothing given.
def given? (block : Block) (socket : String) : Option Value :=
  match block.values.get? socket with
  | some .null => none
  | found => found

def setValue (block : Block) (socket : String) (value : Value) : Except Refusal Block :=
  match block.definition.input? socket with
  | none => .error (.unknownSocket socket block.definition.id)
  | some input =>
      if input.type.admits value then .ok { block with values := block.values.put socket value }
      else .error (.valueType socket input.type value)

def clearValue (block : Block) (socket : String) : Block :=
  { block with values := block.values.erase socket }

def attach (block : Block) (connection : Connection) : Block :=
  { block with inputs := block.inputs.put connection.socket connection }

def detach (block : Block) (socket : String) : Block :=
  { block with inputs := block.inputs.erase socket }

def dropSource (block : Block) (source : String) : Block :=
  { block with inputs := block.inputs.filter fun connection => connection.source ≠ source }

def connections (block : Block) : List Connection := block.inputs.values

-- The label and the first eight characters of the id.
def shown (block : Block) (id : String) : String :=
  "Block(" ++ block.definition.label ++ ", id=" ++ String.ofList (id.toList.take 8) ++ ")"

end Block

-- Blocks by id, and the two directions of the sequence links.
structure Graph where
  blocks : Table Block
  next : Table String
  previous : Table String
deriving DecidableEq

namespace Graph

def empty : Graph := ⟨Table.empty, Table.empty, Table.empty⟩

def get? (graph : Graph) (id : String) : Option Block := graph.blocks.get? id

def contains (graph : Graph) (id : String) : Bool := graph.blocks.contains id

def ids (graph : Graph) : List String := graph.blocks.keys

def size (graph : Graph) : Nat := graph.blocks.size

def change (graph : Graph) (id : String) (edit : Block → Block) : Graph :=
  { graph with blocks := graph.blocks.update id edit }

-- An id that is taken is not given a second time.
def add (graph : Graph) (id : String) (definition : Definition) (position : Position) : Option Graph :=
  if graph.contains id then none
  else some { graph with blocks := graph.blocks.put id (.fresh definition position) }

def setValue (graph : Graph) (id socket : String) (value : Value) : Except Refusal Graph :=
  match graph.get? id with
  | none => .error (.unknownBlock id)
  | some block =>
      match block.setValue socket value with
      | .error refusal => .error refusal
      | .ok changed => .ok { graph with blocks := graph.blocks.put id changed }

def clearValue (graph : Graph) (id socket : String) : Graph :=
  graph.change id fun block => block.clearValue socket

def move (graph : Graph) (id : String) (position : Position) : Graph :=
  graph.change id fun block => { block with position := position }

-- Stores a connection unchecked.
def attach (graph : Graph) (id : String) (connection : Connection) : Graph :=
  graph.change id fun block => block.attach connection

def disconnect (graph : Graph) (id socket : String) : Graph :=
  graph.change id fun block => block.detach socket

def connection? (graph : Graph) (id socket : String) : Option Connection :=
  (graph.get? id).bind fun block => block.inputs.get? socket

def connections (graph : Graph) : List Connection :=
  graph.blocks.values.flatMap Block.connections

def dataEdges (graph : Graph) : List Edge :=
  graph.connections.map fun connection => (connection.source, connection.target)

def evaluationOrder (graph : Graph) : EvaluationOrder :=
  .ofEdges graph.ids graph.dataEdges

end Graph
end BlockCanvas
