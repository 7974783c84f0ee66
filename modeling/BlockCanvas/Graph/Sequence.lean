import BlockCanvas.Graph.Basic
namespace BlockCanvas.Graph

-- The block after this one, as far as it is on the canvas.
def nextOf? (graph : Graph) (id : String) : Option String :=
  (graph.next.get? id).filter graph.contains

def previousOf? (graph : Graph) (id : String) : Option String :=
  (graph.previous.get? id).filter graph.contains

-- Sets both directions unchecked.
def link (graph : Graph) (id next : String) : Graph :=
  { graph with next := graph.next.put id next, previous := graph.previous.put next id }

def unlinkNext (graph : Graph) (id : String) : Graph :=
  match graph.next.get? id with
  | none => graph
  | some next => { graph with next := graph.next.erase id, previous := graph.previous.erase next }

def unlinkBefore (graph : Graph) (id : String) : Graph :=
  match graph.previous.get? id with
  | none => graph
  | some previous => graph.unlinkNext previous

-- The way along next links, from the id up to the wanted one.
def leadsTo (graph : Graph) (wanted : String) (unseen : List String) (id : String) : Bool :=
  if id = wanted then true
  else if present : id ∈ unseen then
    have : (unseen.erase id).length < unseen.length := length_erase_lt present
    match graph.next.get? id with
    | none => false
    | some next => leadsTo graph wanted (unseen.erase id) next
  else false
termination_by unseen.length

def chainReaches (graph : Graph) (start wanted : String) : Bool :=
  graph.leadsTo wanted graph.next.keys start

-- The blocks met along next links, each once.
def walk (graph : Graph) (unseen : List String) (id : String) : List String :=
  if present : id ∈ unseen then
    have : (unseen.erase id).length < unseen.length := length_erase_lt present
    id :: match graph.next.get? id with
      | none => []
      | some next => walk graph (unseen.erase id) next
  else []
termination_by unseen.length

def chain (graph : Graph) (start : String) : List String :=
  graph.walk graph.ids start

-- Where chains begin: blocks that can stand in one and have none before them.
def roots (graph : Graph) : List String :=
  (graph.blocks.rows.filter fun row =>
    !graph.previous.contains row.1 && row.2.definition.isChainCapable).map Prod.fst

def linkRefusal? (graph : Graph) (id next : String) : Option Refusal :=
  match graph.get? id with
  | none => some (.unknownBlock id)
  | some block =>
    match graph.get? next with
    | none => some (.unknownBlock next)
    | some nextBlock =>
        if !block.definition.hasNext then some (.noNext block.definition.id)
        else if !nextBlock.definition.hasPrevious then some (.noPrevious nextBlock.definition.id)
        else if graph.chainReaches next id then some (.sequenceCycle id next)
        else none

-- Without a next block the link is taken away; with one, both old neighbours are let go first.
def setNext (graph : Graph) (id : String) (next : Option String) : Except Refusal Graph :=
  match next with
  | none =>
      if graph.contains id then .ok (graph.unlinkNext id) else .error (.unknownBlock id)
  | some wanted =>
    match graph.linkRefusal? id wanted with
    | some refusal => .error refusal
    | none => .ok (((graph.unlinkNext id).unlinkBefore wanted).link id wanted)

-- The neighbours in the chain are joined across the gap.
def spliceOut (graph : Graph) (id : String) : Graph :=
  let rest := graph.unlinkNext id
  match graph.previous.get? id with
  | none => rest
  | some previous =>
    match graph.next.get? id with
    | none => rest.unlinkNext previous
    | some next => (rest.unlinkNext previous).link previous next

-- The block goes with its links and with every connection it gave or took.
def delete (graph : Graph) (id : String) : Graph :=
  let rest := graph.spliceOut id
  { rest with blocks := (rest.blocks.map fun block => block.dropSource id).erase id }

end BlockCanvas.Graph
