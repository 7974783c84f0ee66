import BlockCanvas.Graph.Basic
namespace BlockCanvas.Graph

-- What a block depends on: the sources of its connections and the block after it.
def dependencies (graph : Graph) (id : String) : List String :=
  match graph.get? id with
  | none => []
  | some block => block.connections.map Connection.source ++ (graph.next.get? id).toList

-- Looks for the target among all that the pending blocks depend on.
def search (graph : Graph) (target : String) (pending unseen : List String) : Bool :=
  match pending with
  | [] => false
  | id :: rest =>
      if id = target then true
      else if present : id ∈ unseen then
        have : (unseen.erase id).length < unseen.length := length_erase_lt present
        search graph target (graph.dependencies id ++ rest) (unseen.erase id)
      else search graph target rest unseen
termination_by (unseen.length, pending.length)

-- The source is the target or depends on it, however far.
def dependsOn (graph : Graph) (source target : String) : Bool :=
  graph.search target [source] graph.ids

-- Nothing if the connection may be made, else the first reason against it.
def connectRefusal? (graph : Graph) (target socket source : String) : Option Refusal :=
  match graph.get? target with
  | none => some (.unknownBlock target)
  | some targetBlock =>
    match graph.get? source with
    | none => some (.unknownBlock source)
    | some sourceBlock =>
      match targetBlock.definition.input? socket with
      | none => some (.unknownSocket socket targetBlock.definition.id)
      | some input =>
        match sourceBlock.definition.output with
        | none => some (.noOutput sourceBlock.definition.id)
        | some output =>
            if !input.acceptsType output.type then
              some (.outputType output.type socket input.acceptedTypes)
            else if graph.dependsOn source target then some (.dataCycle source target socket)
            else none

-- A socket holds one connection; a new one takes the place of the old.
def connect (graph : Graph) (target socket source : String) : Except Refusal Graph :=
  match graph.connectRefusal? target socket source with
  | some refusal => .error refusal
  | none => .ok (graph.attach target ⟨source, target, socket⟩)

end BlockCanvas.Graph
