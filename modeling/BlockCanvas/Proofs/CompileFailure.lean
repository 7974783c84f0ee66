import BlockCanvas.Proofs.ReadBack
import BlockCanvas.Proofs.RenamedProgram
import BlockCanvas.Catalog.Builtin
import BlockCanvas.Workspace
namespace BlockCanvas

namespace Graph
variable {graph : Graph} {room : Nat} {unit : String}

theorem findSome?_stop_eq_none_iff {trace : List Event} :
    trace.findSome? (Event.stop? room) = none ↔
      (∀ depth, .nested depth ∈ trace → depth ≤ room) ∧ ∀ value, .shown value ∈ trace → value.fits = true := by
  rw [List.findSome?_eq_none_iff]
  constructor
  · intro clear
    refine ⟨fun depth listed => ?_, fun value listed => ?_⟩
    · simpa [Event.stop?] using clear _ listed
    · simpa [Event.stop?] using clear _ listed
  · rintro ⟨shallow, short⟩ event listed
    cases event with
    | noted diagnostic => rfl
    | shown value => simp [Event.stop?, short value listed]
    | nested depth => simp [Event.stop?, shallow depth listed]

theorem failure?_eq_none_iff :
    graph.failure? room = none ↔ (∀ depth, graph.NestsTo depth → depth ≤ room) ∧
      (∀ value, .shown value ∈ graph.program.trace → value.fits = true) ∧ Node.allFit graph.program.value = true := by
  have stops := @findSome?_stop_eq_none_iff room graph.program.trace
  simp only [program_nests_iff] at stops
  rw [← and_assoc, ← stops, failure?]
  cases graph.program.trace.findSome? (Event.stop? room) with
  | some error => simp
  | none => cases Node.allFit graph.program.value <;> simp

end Graph

end BlockCanvas
