import BlockCanvas.Program.Build
namespace BlockCanvas

inductive BuildError where
  | tooDeep
  | oversized (fault : Number.Oversized)
deriving DecidableEq

def BuildError.message : BuildError → String
  | .tooDeep => "maximum recursion depth exceeded"
  | .oversized fault => fault.message

-- What a build keeps while it goes on: the blocks whose expressions it is in the middle of, its notes, and the log.
structure Visit where
  visiting : List String
  notes : List Diagnostic
  log : Log
deriving DecidableEq

abbrev Builder := EStateM BuildError Visit

namespace Builder

def note (diagnostic : Diagnostic) : Builder Unit := fun visit =>
  .ok () { visit with
    notes := visit.notes ++ [diagnostic]
    log := visit.log ++ [diagnostic.under .tree "AST build: "] }

def textOf (value : Value) : Builder String := fun visit =>
  match value.shown with
  | .ok text => .ok text visit
  | .error fault => .error (.oversized fault) visit

instance : Building Builder where
  note := note
  textOf := textOf

-- A block carries a mark as long as its expression is being built, and loses it also when building stops.
def marked (id : String) (body : Builder Node) : Builder Node := fun visit =>
  match body { visit with visiting := id :: visit.visiting } with
  | .ok node after => .ok node { after with visiting := after.visiting.erase id }
  | .error error after => .error error { after with visiting := after.visiting.erase id }

def guarded (id : String) (block : Block) (body : Builder Node) : Builder Node := do
  if id ∈ (← get).visiting then
    Build.warn id block .selfDependent
    return .literal (.text "") .text (some id)
  else marked id body

-- So many expressions inside each other the stack has room for.
def usualRoom : Nat := 240

def expression (graph : Graph) : Nat → String → Builder Node
  | 0, _ => throw .tooDeep
  | room + 1, id =>
    match graph.get? id with
    | none => return .absent
    | some block => guarded id block (Build.formNode (expression graph room) graph id block)

-- The chains one after the other, in the order of their roots. A build begins afresh, whatever an earlier one has left.
def program (room : Nat) (graph : Graph) : Builder (List Node) := fun visit =>
  Build.statements (expression graph room) graph (graph.roots.flatMap graph.chain)
    { visit with visiting := [], notes := [] }

end Builder
end BlockCanvas
