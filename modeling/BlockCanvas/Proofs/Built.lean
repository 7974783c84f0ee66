import BlockCanvas.Program.Build
namespace BlockCanvas

-- What building asks for on its way.
inductive Event where
  | noted (diagnostic : Diagnostic)
  | shown (value : Value)
  | nested (depth : Nat)
deriving DecidableEq

namespace Event

def note? : Event → Option Diagnostic
  | .noted diagnostic => some diagnostic
  | _ => none

-- The same as part of an expression around it.
def deeper : Event → Event
  | .nested depth => .nested (depth + 1)
  | event => event

@[simp] theorem note?_deeper (event : Event) : event.deeper.note? = event.note? := by
  cases event <;> rfl

end Event

-- What building comes to when nothing stops it, and all that it asked for, in the order of its asking.
structure Built (α : Type) where
  value : α
  trace : List Event

namespace Built
variable {α β : Type}

def notes (built : Built α) : List Diagnostic := built.trace.filterMap Event.note?

-- An expression inside another one.
def deepened (built : Built α) : Built α := ⟨built.value, .nested 1 :: built.trace.map Event.deeper⟩

instance : Building Built where
  pure value := ⟨value, []⟩
  bind built next := ⟨(next built.value).value, built.trace ++ (next built.value).trace⟩
  note diagnostic := ⟨(), [.noted diagnostic]⟩
  textOf value := ⟨value.unboundedText, [.shown value]⟩

@[simp] theorem value_pure (value : α) : (pure value : Built α).value = value := rfl

@[simp] theorem value_bind (built : Built α) (next : α → Built β) :
    (built >>= next).value = (next built.value).value := rfl

@[simp] theorem trace_pure (value : α) : (pure value : Built α).trace = [] := rfl

@[simp] theorem trace_bind (built : Built α) (next : α → Built β) :
    (built >>= next).trace = built.trace ++ (next built.value).trace := rfl

theorem pure_bind (value : α) (next : α → Built β) : (pure value >>= next) = next value := rfl

@[simp] theorem notes_pure (value : α) : (pure value : Built α).notes = [] := rfl

@[simp] theorem notes_bind (built : Built α) (next : α → Built β) :
    (built >>= next).notes = built.notes ++ (next built.value).notes :=
  List.filterMap_append

@[simp] theorem notes_warn (id : String) (block : Block) (note : BuildNote) :
    (Build.warn id block note : Built Unit).notes = [.build id block.definition.id note] := rfl

@[simp] theorem value_deepened (built : Built α) : built.deepened.value = built.value := rfl

@[simp] theorem notes_deepened (built : Built α) : built.deepened.notes = built.notes := by
  change (built.trace.map Event.deeper).filterMap Event.note? = built.trace.filterMap Event.note?
  rw [List.filterMap_map]
  exact congrArg (List.filterMap · built.trace) (funext Event.note?_deeper)

end Built

namespace Build

@[simp] theorem notes_prompted (id : String) (value : Value) : (prompted id value : Built Node).notes = [] := rfl

-- The expression of a block that is among those still open.
def expression (graph : Graph) (opened : List String) (id : String) : Built Node :=
  Built.deepened (match graph.get? id with
    | none => pure .absent
    | some block =>
        if present : id ∈ opened then
          have : (opened.erase id).length < opened.length := length_erase_lt present
          formNode (fun inner => expression graph (opened.erase id) inner) graph id block
        else do
          warn id block .selfDependent
          return .literal (.text "") .text (some id))
termination_by opened.length

end Build

def Graph.program (graph : Graph) : Built (List Node) :=
  Build.statements (Build.expression graph graph.ids) graph (graph.roots.flatMap graph.chain)

end BlockCanvas
