import BlockCanvas.Graph.Restore
import BlockCanvas.Supply
namespace BlockCanvas

-- Everything that can be asked of a canvas from outside and may change it.
inductive Command where
  | create (definition : String) (position : Option Position)
  | add (definition : Definition) (position : Option Position) (id : Option String)
  | delete (id : String)
  | clear
  | setValue (id socket : String) (value : Value)
  | clearValue (id socket : String)
  | move (id : String) (x y : Json)
  | connect (target socket source : String)
  | disconnect (id socket : String)
  | setNext (id : String) (next : Option String)
  | restore (records : List BlockRecord)

inductive Outcome where
  | created (id : String)
  | unknownDefinition (definition : String)
  | occupied (id : String)
  | deleted (found : Bool)
  | moved (found : Bool)
  | badPosition (faults : List Fault)
  | verdict (refusal : Option Refusal)
  | done
  | restored (notes : List Diagnostic)
  | repeated (ids : List String)
deriving DecidableEq

namespace Outcome

def succeeded : Outcome → Bool
  | .created _ => true
  | .deleted found => found
  | .moved found => found
  | .verdict refusal => refusal.isNone
  | .done => true
  | .restored _ => true
  | _ => false

def log : Outcome → Log
  | .unknownDefinition definition =>
      [⟨.error, .graph, s!"Block definition not found: '{definition}'"⟩]
  | .restored notes => Graph.restoreLog notes
  | _ => []

end Outcome

-- A graph and the identities that are still to be given out.
structure Canvas where
  graph : Graph
  supply : Supply
deriving DecidableEq

namespace Canvas

def empty : Canvas := ⟨Graph.empty, {}⟩

def add (canvas : Canvas) (definition : Definition) (position : Option Position)
    (requested : Option String) : Canvas × Outcome :=
  let (id, supply) := canvas.supply.resolve requested
  match canvas.graph.add id definition (position.getD Position.zero) with
  | none => (⟨canvas.graph, supply⟩, .occupied id)
  | some graph => (⟨graph, supply⟩, .created id)

-- A change that is turned down leaves the graph as it was.
def judge (canvas : Canvas) (result : Except Refusal Graph) : Canvas × Outcome :=
  match result with
  | .ok graph => ({ canvas with graph := graph }, .verdict none)
  | .error refusal => (canvas, .verdict (some refusal))

-- The coordinates are looked at only when the block is there.
def move (canvas : Canvas) (id : String) (x y : Json) : Canvas × Outcome :=
  if canvas.graph.contains id then
    match Position.check .record (.object [("x", x), ("y", y)]) with
    | .accepted position => ({ canvas with graph := canvas.graph.move id position }, .moved true)
    | .refused faults => (canvas, .badPosition faults)
  else (canvas, .moved false)

def step (catalog : Catalog) (canvas : Canvas) : Command → Canvas × Outcome
  | .create definition position =>
      match catalog.get? definition with
      | none => (canvas, .unknownDefinition definition)
      | some found => canvas.add found position none
  | .add definition position id => canvas.add definition position id
  | .delete id =>
      if canvas.graph.contains id then
        ({ canvas with graph := canvas.graph.delete id }, .deleted true)
      else (canvas, .deleted false)
  | .clear => ({ canvas with graph := Graph.empty }, .done)
  | .setValue id socket value => canvas.judge (canvas.graph.setValue id socket value)
  | .clearValue id socket => ({ canvas with graph := canvas.graph.clearValue id socket }, .done)
  | .move id x y => canvas.move id x y
  | .connect target socket source => canvas.judge (canvas.graph.connect target socket source)
  | .disconnect id socket => ({ canvas with graph := canvas.graph.disconnect id socket }, .done)
  | .setNext id next => canvas.judge (canvas.graph.setNext id next)
  | .restore records =>
      match Graph.restore catalog records with
      | .ok restored => ({ canvas with graph := restored.graph }, .restored restored.notes)
      | .error (.repeated ids) => (canvas, .repeated ids)
      | .error (.occupied id) => (canvas, .occupied id)

end Canvas
end BlockCanvas
