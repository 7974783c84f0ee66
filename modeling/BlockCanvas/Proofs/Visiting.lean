import BlockCanvas.Program.Builder
import BlockCanvas.Proofs.Built
import BlockCanvas.Proofs.Edit
import BlockCanvas.Proofs.Path
namespace BlockCanvas

namespace Event

-- What is asked for in vain stops the build.
def stop? (room : Nat) : Event → Option BuildError
  | .noted _ => none
  | .shown value => if value.fits then none else some (.oversized .written)
  | .nested depth => if depth ≤ room then none else some .tooDeep

theorem stop?_deeper (room : Nat) (event : Event) : event.deeper.stop? (room + 1) = event.stop? room := by
  cases event with
  | nested depth => simp only [deeper, stop?, Nat.add_le_add_iff_right]
  | _ => rfl

-- The notes that are taken before the build is stopped.
def heard (room : Nat) : List Event → List Diagnostic
  | [] => []
  | event :: rest => if (event.stop? room).isNone then event.note?.toList ++ heard room rest else []

theorem heard_append_of_stop {room : Nat} {first : List Event} {error : BuildError}
    (stopped : first.findSome? (stop? room) = some error) (second : List Event) :
    heard room (first ++ second) = heard room first := by
  induction first with
  | nil => cases stopped
  | cons event rest ih =>
      cases own : event.stop? room with
      | some error => simp [heard, own]
      | none => simp [heard, own, ih (by simpa [own] using stopped)]

theorem heard_append {room : Nat} {first : List Event} (passed : first.findSome? (stop? room) = none) (second : List Event) :
    heard room (first ++ second) = first.filterMap note? ++ heard room second := by
  induction first with
  | nil => rfl
  | cons event rest ih =>
      cases own : event.stop? room with
      | some error => simp [own] at passed
      | none => cases noted : event.note? <;> simp [heard, own, noted, ih (by simpa [own] using passed)]

theorem heard_deeper (room : Nat) (trace : List Event) : heard (room + 1) (trace.map deeper) = heard room trace := by
  induction trace with
  | nil => rfl
  | cons event rest ih => simp only [List.map_cons, heard, stop?_deeper, note?_deeper, ih]

end Event

-- More notes, each of them logged.
def Visit.after (visit : Visit) (notes : List Diagnostic) : Visit :=
  { visit with notes := visit.notes ++ notes, log := visit.log ++ notes.map (Diagnostic.under .tree "AST build: ") }

theorem Visit.after_after (visit : Visit) (first second : List Diagnostic) :
    (visit.after first).after second = visit.after (first ++ second) := by
  simp [Visit.after]

namespace Built
variable {α β : Type}

-- What the build comes to where there is room for so many expressions inside each other.
def run (room : Nat) (built : Built α) (visit : Visit) : EStateM.Result BuildError Visit α :=
  match built.trace.findSome? (Event.stop? room) with
  | some error => .error error (visit.after (Event.heard room built.trace))
  | none => .ok built.value (visit.after built.notes)

-- The action does what the build asks for, and keeps the marks that it found.
def Runs (room : Nat) (visiting : List String) (action : Builder α) (built : Built α) : Prop :=
  ∀ visit : Visit, visit.visiting = visiting → action visit = built.run room visit

variable {room : Nat} {visiting : List String} {action : Builder α} {built : Built α}

theorem runs_pure (value : α) : Runs room visiting (pure value) (pure value) := by
  intro visit _
  simp [run, Visit.after]
  rfl

theorem runs_bind {next : α → Builder β} {follow : α → Built β} (first : Runs room visiting action built)
    (later : Runs room visiting (next built.value) (follow built.value)) :
    Runs room visiting (action >>= next) (built >>= follow) := by
  intro visit same
  change EStateM.bind action next visit = _
  rw [EStateM.bind, first visit same, run, run, trace_bind, List.findSome?_append]
  cases stopped : built.trace.findSome? (Event.stop? room) with
  | some error => simp [Event.heard_append_of_stop stopped]
  | none =>
      simp only [Option.none_or]
      rw [later (visit.after built.notes) same, run]
      cases (follow built.value).trace.findSome? (Event.stop? room) with
      | some error => simp [Visit.after_after, Event.heard_append stopped, notes]
      | none => simp [Visit.after_after]

theorem runs_note (diagnostic : Diagnostic) :
    Runs room visiting (Building.note diagnostic) (Building.note diagnostic) := fun _ _ => rfl

theorem runs_textOf (value : Value) : Runs room visiting (Building.textOf value) (Building.textOf value) := by
  intro visit _
  change Builder.textOf value visit = run room ⟨value.unboundedText, [.shown value]⟩ visit
  unfold Builder.textOf Value.shown run
  cases fits : value.fits with
  | false => simp [Event.stop?, fits, Event.heard, Visit.after]
  | true => simp [Event.stop?, fits, notes, List.filterMap, Event.note?, Visit.after]

end Built

namespace Build
open Built
variable {graph : Graph} {id socket : String} {block : Block} {visiting : List String} {room : Nat} {default : Value}
  {act : String → Builder Node} {build : String → Built Node}

theorem warn_runs (id : String) (block : Block) (note : BuildNote) (value : α) :
    Runs room visiting (do warn id block note; return value) (do warn id block note; return value) :=
  runs_bind (runs_note _) (runs_pure value)

theorem source_runs (graph : Graph) (id : String) (block : Block) (socket : String) :
    Runs room visiting (source graph id block socket) (source graph id block socket) := by
  unfold source
  cases block.inputs.get? socket with
  | none => exact runs_pure none
  | some connection =>
      dsimp only
      split
      · exact runs_pure _
      · exact warn_runs id block _ none

theorem prompted_runs (id : String) (value : Value) : Runs room visiting (prompted id value) (prompted id value) :=
  runs_bind (runs_textOf value) (runs_pure _)

section Inner
variable (inner : ∀ feeding, Runs room visiting (act feeding) (build feeding))
include inner

theorem operand_runs (socket : String) (default : Value) :
    Runs room visiting (operand act graph id block socket default) (operand build graph id block socket default) := by
  refine runs_bind (source_runs graph id block socket) ?_
  cases (source (m := Built) graph id block socket).value with
  | none => exact runs_pure _
  | some feeding => exact inner feeding

theorem readNode_runs : Runs room visiting (readNode act graph id block) (readNode build graph id block) := by
  refine runs_bind (source_runs graph id block "prompt") ?_
  cases (source (m := Built) graph id block "prompt").value with
  | none =>
      dsimp only
      cases storedPrompt block with
      | none => exact runs_pure _
      | some value => exact prompted_runs id value
  | some feeding =>
      refine runs_bind (inner feeding) ?_
      cases promptOf (build feeding).value with
      | none => exact warn_runs id block _ _
      | some value => exact prompted_runs id value

theorem operationNode_runs (operator : Option Operator) :
    Runs room visiting (operationNode act graph id block operator) (operationNode build graph id block operator) := by
  refine runs_bind ?_ (runs_bind (operand_runs inner _ _) (runs_bind (operand_runs inner _ _) (runs_pure _)))
  cases operator with
  | none => exact warn_runs id block _ _
  | some known => exact runs_pure known

theorem formNode_runs : Runs room visiting (formNode act graph id block) (formNode build graph id block) := by
  unfold formNode
  cases ExpressionForm.of block.definition.id with
  | read => exact readNode_runs inner
  | lookup => exact runs_pure _
  | literal default => exact runs_pure _
  | operation operator => exact operationNode_runs inner operator
  | unknown => exact warn_runs id block _ _

theorem initialValue_runs :
    Runs room visiting (initialValue act graph id block) (initialValue build graph id block) := by
  refine runs_bind (source_runs graph id block "value") ?_
  cases (source (m := Built) graph id block "value").value with
  | none =>
      dsimp only
      split <;> exact runs_pure _
  | some feeding => exact inner feeding

theorem statement_runs : Runs room visiting (statement act graph id block) (statement build graph id block) := by
  unfold statement
  cases StatementForm.of block.definition.id with
  | write => exact runs_bind (operand_runs inner _ _) (runs_pure _)
  | declare => exact runs_bind (initialValue_runs inner) (runs_pure _)
  | assign => exact runs_bind (operand_runs inner _ _) (runs_pure _)
  | branch => exact runs_bind (operand_runs inner _ _) (runs_pure _)
  | loop => exact runs_bind (operand_runs inner _ _) (runs_pure _)
  | unknown => exact warn_runs id block _ _

theorem statements_runs (ids : List String) :
    Runs room visiting (statements act graph ids) (statements build graph ids) := by
  induction ids with
  | nil => exact runs_pure _
  | cons id rest ih =>
      refine runs_bind ?_ (runs_bind ih (runs_pure _))
      unfold statementAt
      cases graph.get? id with
      | none => exact runs_pure _
      | some block => exact statement_runs inner

end Inner
end Build

namespace Builder
open Built
variable {graph : Graph} {room : Nat}

-- Inside an expression there is room for one less.
theorem runs_deepened {visiting : List String} {action : Builder Node} {built : Built Node}
    (runs : Runs room visiting action built) : Runs (room + 1) visiting action built.deepened := by
  intro visit same
  have here : (Event.nested 1).stop? (room + 1) = none := by simp [Event.stop?]
  have stops : built.deepened.trace.findSome? (Event.stop? (room + 1)) = built.trace.findSome? (Event.stop? room) := by
    simp only [deepened, List.findSome?_cons, here, List.findSome?_map]
    exact congrArg (List.findSome? · built.trace) (funext (Event.stop?_deeper room))
  have heard : Event.heard (room + 1) built.deepened.trace = Event.heard room built.trace := by
    simp only [deepened, Event.heard, here, Event.heard_deeper]
    rfl
  rw [runs visit same, run, run, stops, heard, notes_deepened, value_deepened]

theorem marked_runs {visiting : List String} {id : String} {body : Builder Node} {built : Built Node}
    (runs : Runs room (id :: visiting) body built) : Runs room visiting (marked id body) built := by
  intro visit same
  unfold marked
  rw [runs _ (congrArg (id :: ·) same), run, run]
  cases built.trace.findSome? (Event.stop? room) <;> simp [Visit.after]

-- The induction is on the room. Each call that goes on puts a mark on one more block, which is then not open any more.
theorem expression_runs (graph : Graph) (room : Nat) (visiting : List String) (id : String) :
    Runs room visiting (expression graph room id) (Build.expression graph (unmet graph.ids visiting) id) := by
  induction room generalizing visiting id with
  | zero =>
      intro visit _
      rw [Build.expression]
      simp [run, deepened, Event.stop?, Event.heard, Visit.after]
      rfl
  | succ room ih =>
      rw [expression, Build.expression]
      apply runs_deepened
      cases found : graph.get? id with
      | none => exact runs_pure _
      | some block =>
          intro visit same
          change (if id ∈ visit.visiting then _ else _ : Builder Node) visit = _
          rw [same]
          by_cases met : id ∈ visiting
          · have closed : id ∉ unmet graph.ids visiting := fun listed => (mem_unmet_iff.mp listed).2 met
            simp only [closed, dite_false]
            rw [if_pos met]
            exact Build.warn_runs id block _ _ visit same
          · have opened : id ∈ unmet graph.ids visiting :=
              mem_unmet_iff.mpr ⟨Graph.mem_ids_iff.mpr ⟨block, found⟩, met⟩
            simp only [opened, dite_true]
            rw [if_neg met, ← unmet_cons graph.ids_nodup]
            exact marked_runs (Build.formNode_runs fun feeding => ih (id :: visiting) feeding) visit same

-- The builder does what the program of the graph asks for, up to where it is stopped.
theorem program_eq (room : Nat) (graph : Graph) (visit : Visit) :
    program room graph visit = graph.program.run room { visit with visiting := [], notes := [] } := by
  have inner : ∀ feeding, Runs room [] (expression graph room feeding) (Build.expression graph graph.ids feeding) := by
    intro feeding
    have runs := expression_runs graph room [] feeding
    rwa [unmet_nil] at runs
  exact Build.statements_runs inner _ _ rfl

end Builder
end BlockCanvas
