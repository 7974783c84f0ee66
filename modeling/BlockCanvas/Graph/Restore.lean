import BlockCanvas.Catalog
import BlockCanvas.Diagnostic
import BlockCanvas.Graph.Connect
import BlockCanvas.Graph.Sequence
namespace BlockCanvas.Graph

-- The graph written down, block by block.
def records (graph : Graph) : List BlockRecord :=
  graph.blocks.rows.map fun row =>
    { id := row.1
      definition := row.2.definition.id
      position := row.2.position
      values := row.2.values
      connections := row.2.connections
      next := graph.next.get? row.1
      previous := graph.previous.get? row.1 }

-- A graph under restoration, with what had to be left out.
structure Restoring where
  graph : Graph
  notes : List Diagnostic

-- What cannot be left out: an id that is given to two blocks.
inductive RestoreError where
  | repeated (ids : List String)
  | occupied (id : String)
deriving DecidableEq

def repeatedMessage (ids : List String) : String :=
  "Duplicate block identities in graph state: " ++ ", ".intercalate ids

def occupiedMessage (id : String) : String := s!"Block identity '{id}' is already in use."

def RestoreError.message : RestoreError → String
  | .repeated ids => repeatedMessage ids
  | .occupied id => occupiedMessage id

namespace Restoring

def start : Restoring := ⟨Graph.empty, []⟩

def note (state : Restoring) (diagnostic : Diagnostic) : Restoring :=
  { state with notes := state.notes ++ [diagnostic] }

-- Takes over a change that was accepted, and notes one that was not.
def attempt (state : Restoring) (id : String) (result : Except Refusal Graph) : Restoring :=
  match result with
  | .ok graph => { state with graph := graph }
  | .error refusal => state.note (.refused id refusal)

def placeValue (id : String) (state : Restoring) (row : String × Value) : Restoring :=
  state.attempt id (state.graph.setValue id row.1 row.2)

def place (catalog : Catalog) (state : Restoring) (record : BlockRecord) : Except RestoreError Restoring :=
  match catalog.get? record.definition with
  | none => .ok (state.note (.unknownDefinition record.id record.definition))
  | some definition =>
    match state.graph.add record.id definition record.position with
    | none => .error (.occupied record.id)
    | some graph => .ok (record.values.rows.foldl (placeValue record.id) { state with graph := graph })

def connectOne (id : String) (state : Restoring) (connection : Connection) : Restoring :=
  if connection.target = id then
    state.attempt id (state.graph.connect id connection.socket connection.source)
  else state.note (.foreignConnection id connection.target)

def connectAll (state : Restoring) (record : BlockRecord) : Restoring :=
  if state.graph.contains record.id then
    record.connections.foldl (connectOne record.id) state
  else state

-- A next link is made only if nothing says that the next block follows another.
def linkNext (claimed : Table (Option String)) (state : Restoring) (record : BlockRecord) : Restoring :=
  match record.next with
  | none => state
  | some next =>
    if state.graph.contains record.id then
      match (state.graph.previous.get? next).filter fun linked => linked ≠ record.id with
      | some linked => state.note (.alreadyLinked record.id next linked)
      | none =>
        match ((claimed.get? next).bind id).filter fun recorded => recorded ≠ record.id with
        | some recorded => state.note (.disputedPrevious record.id next recorded)
        | none => state.attempt record.id (state.graph.setNext record.id (some next))
    else state

end Restoring

def insertSorted (id : String) : List String → List String
  | [] => [id]
  | head :: rest =>
      if id = head then head :: rest
      else if id < head then id :: head :: rest
      else head :: insertSorted id rest

-- The ids that occur more than once, each once and in the order of their characters.
def repeatedIds (ids : List String) : List String :=
  (ids.filter fun id => 1 < ids.count id).foldr insertSorted []

-- Blocks first, then connections, then links, since a record may name blocks that come later.
def restore (catalog : Catalog) (records : List BlockRecord) : Except RestoreError Restoring :=
  match repeatedIds (records.map BlockRecord.id) with
  | [] => do
      let claimed := Table.ofRows (records.map fun record => (record.id, record.previous))
      let placed ← records.foldlM (Restoring.place catalog) .start
      let connected := records.foldl Restoring.connectAll placed
      return records.foldl (Restoring.linkNext claimed) connected
  | ids => .error (.repeated ids)

-- What had to be left out is logged when all is done.
def restoreLog (notes : List Diagnostic) : Log := notes.map (Diagnostic.under .graph "Graph restore: ")

end BlockCanvas.Graph
