import BlockCanvas.Program.Source
import BlockCanvas.Proofs.Limits
namespace BlockCanvas

-- A position of a program and the node that stands there.
structure Slot where
  place : Place
  node : Node

namespace Node

-- The positions inside a node in the order in which they are written. A declaration without a first value and a
-- branch without an alternate have none there.
def parts : Node → List Slot
  | .binary _ left right _ => [⟨.expression, left⟩, ⟨.expression, right⟩]
  | .declare _ .absent _ => []
  | .declare _ initial _ => [⟨.expression, initial⟩]
  | .assign _ value _ => [⟨.expression, value⟩]
  | .write value _ => [⟨.expression, value⟩]
  | .branch condition consequent alternate _ =>
      ⟨.expression, condition⟩ :: (consequent ++ alternate.getD []).map (Slot.mk .statement)
  | .loop condition body _ => ⟨.expression, condition⟩ :: body.map (Slot.mk .statement)
  | _ => []

-- Where a node of this kind belongs; what is absent belongs nowhere.
def place? : Node → Option Place
  | .absent => none
  | .literal .. => some .expression
  | .identifier .. => some .expression
  | .read .. => some .expression
  | .binary .. => some .expression
  | .declare .. => some .statement
  | .assign .. => some .statement
  | .write .. => some .statement
  | .branch .. => some .statement
  | .loop .. => some .statement

theorem parts_declare {name : String} {initial : Node} {block : Option String} (filled : initial ≠ .absent) :
    parts (.declare name initial block) = [⟨.expression, initial⟩] := by
  rw [parts]
  exact filled

theorem sizeOf_lt_of_mem_parts {node : Node} {slot : Slot} (member : slot ∈ node.parts) :
    sizeOf slot.node < sizeOf node := by
  have inside : ∀ nodes : List Node, slot ∈ nodes.map (Slot.mk .statement) → sizeOf slot.node < sizeOf nodes := by
    intro nodes listed
    obtain ⟨inner, among, rfl⟩ := List.mem_map.mp listed
    exact List.sizeOf_lt_of_mem among
  cases node with
  | declare name initial block =>
      cases initial with
      | absent => cases member
      | _ =>
          cases List.mem_singleton.mp member
          simp only [declare.sizeOf_spec]
          omega
  | branch condition consequent alternate block =>
      rw [parts, List.mem_cons, List.map_append, List.mem_append] at member
      rcases member with rfl | first | second
      · simp only [branch.sizeOf_spec]
        omega
      · have smaller := inside _ first
        simp only [branch.sizeOf_spec]
        omega
      · cases alternate with
        | none => cases second
        | some nodes =>
            have smaller := inside _ second
            simp only [branch.sizeOf_spec, Option.some.sizeOf_spec, Option.getD_some] at smaller ⊢
            omega
  | loop condition body block =>
      rw [parts, List.mem_cons] at member
      rcases member with rfl | listed
      · simp only [loop.sizeOf_spec]
        omega
      · have smaller := inside _ listed
        simp only [loop.sizeOf_spec]
        omega
  | binary symbol left right block =>
      simp only [parts, List.mem_cons, List.not_mem_nil, or_false] at member
      rcases member with rfl | rfl <;> simp only [binary.sizeOf_spec] <;> omega
  | assign name value block =>
      cases List.mem_singleton.mp member
      simp only [assign.sizeOf_spec]
      omega
  | write value block =>
      cases List.mem_singleton.mp member
      simp only [write.sizeOf_spec]
      omega
  | _ => cases member

end Node

namespace Slot

def stands (slot : Slot) : Bool := slot.node.place? = some slot.place

-- A text or a number of too many digits; truth values are not written out.
def isLong (slot : Slot) : Bool :=
  match slot.node with
  | .literal _ .boolean _ => false
  | .literal value _ _ => !value.fits
  | _ => false

-- Why nothing can be written at the position.
def fault? (slot : Slot) : Option RenderError :=
  if !slot.stands then some (.misplaced ⟨slot.place, slot.node.kind⟩)
  else if slot.isLong then some (.oversized .written)
  else none

-- The position and, if its node can be written there, the positions inside it, each before those inside it in turn.
def preorder (slot : Slot) : List Slot :=
  slot :: if slot.stands then slot.node.parts.attach.flatMap fun ⟨part, _⟩ => part.preorder else []
termination_by sizeOf slot.node
decreasing_by
  rename_i member
  exact Node.sizeOf_lt_of_mem_parts member

theorem preorder_eq (slot : Slot) :
    slot.preorder = slot :: if slot.stands then slot.node.parts.flatMap preorder else [] := by
  rw [preorder]
  simp

-- What is wrong at the first position, if any, where nothing can be written.
def firstFault (slots : List Slot) : Option RenderError := slots.findSome? fault?

theorem firstFault_append (first second : List Slot) :
    firstFault (first ++ second) = (firstFault first).or (firstFault second) :=
  List.findSome?_append

-- A node with nothing inside, or in the wrong place.
theorem firstFault_leaf {slot : Slot} (bare : slot.stands = true → slot.node.parts = []) :
    firstFault slot.preorder = slot.fault? := by
  have alone : slot.preorder = [slot] := by
    rw [preorder_eq]
    split_ifs with good
    · rw [bare good, List.flatMap_nil]
    · rfl
  rw [alone, firstFault, List.findSome?_singleton]

theorem firstFault_parts {slot : Slot} (good : slot.stands = true) (short : slot.isLong = false) :
    firstFault slot.preorder = firstFault (slot.node.parts.flatMap preorder) := by
  have clear : slot.fault? = none := by simp [fault?, good, short]
  rw [preorder_eq, if_pos good, firstFault, List.findSome?_cons, clear]
  rfl

end Slot

namespace Source
variable {α β : Type}

def fault? : Except RenderError α → Option RenderError
  | .ok _ => none
  | .error fault => some fault

@[simp] theorem fault?_pure (value : α) : fault? (pure value) = none := rfl

-- What comes later is looked at only if nothing was wrong before, and its fault does not depend on the text so far.
theorem fault?_bind {action : Except RenderError α} {next : α → Except RenderError β} {later : Option RenderError}
    (same : ∀ value, fault? (next value) = later) : fault? (action >>= next) = (fault? action).or later := by
  cases action with
  | error fault => rfl
  | ok value => exact same value

theorem fault?_map (action : Except RenderError α) (shape : α → β) :
    fault? (do return shape (← action)) = fault? action := by
  rw [fault?_bind fun _ => fault?_pure _, Option.or_none]

theorem fault?_literal (value : Value) (type : LiteralType) (block : Option String) :
    Slot.fault? ⟨.expression, .literal value type block⟩ = fault? (literal value type) := by
  cases type with
  | boolean => rfl
  | text =>
      unfold literal Value.shown
      cases short : value.fits <;> simp [Slot.fault?, Slot.stands, Slot.isLong, Node.place?, short] <;> rfl
  | number =>
      unfold literal Value.writtenNumber
      cases short : value.fits <;> simp [Slot.fault?, Slot.stands, Slot.isLong, Node.place?, short] <;> rfl

-- Only an operation has expressions inside; for every other node both sides compute.
theorem firstFault_expression (node : Node) :
    Slot.firstFault (Slot.preorder ⟨.expression, node⟩) = fault? (expression node) := by
  cases node with
  | binary symbol left right block =>
      rw [Slot.firstFault_parts rfl rfl, Node.parts, List.flatMap_cons, List.flatMap_singleton, Slot.firstFault_append,
        firstFault_expression left, firstFault_expression right]
      exact (fault?_bind fun _ => fault?_map (expression right) _).symm
  | literal value type block =>
      rw [Slot.firstFault_leaf fun _ => rfl]
      exact fault?_literal value type block
  | identifier name block => exact Slot.firstFault_leaf fun _ => rfl
  | read prompt block => exact Slot.firstFault_leaf fun _ => rfl
  | _ => exact Slot.firstFault_leaf fun good => by cases good

-- The positions of a sequence of statements.
def positions (body : List Node) : List Slot :=
  body.flatMap fun node => Slot.preorder ⟨.statement, node⟩

theorem positions_append (first second : List Node) : positions (first ++ second) = positions first ++ positions second :=
  List.flatMap_append

theorem flatMap_preorder (body : List Node) : (body.map (Slot.mk .statement)).flatMap Slot.preorder = positions body :=
  List.flatMap_map ..

-- A statement with one expression in it.
theorem firstFault_single {node inner : Node} (good : Slot.stands ⟨.statement, node⟩ = true)
    (short : Slot.isLong ⟨.statement, node⟩ = false) (parts : node.parts = [⟨.expression, inner⟩]) :
    Slot.firstFault (Slot.preorder ⟨.statement, node⟩) = fault? (expression inner) := by
  rw [Slot.firstFault_parts good short, parts, List.flatMap_singleton, firstFault_expression]

theorem firstFault_declare (unit : String) (level : Nat) (name : String) (initial : Node) (block : Option String) :
    Slot.firstFault (Slot.preorder ⟨.statement, .declare name initial block⟩) =
      fault? (statement unit level (.declare name initial block)) := by
  by_cases nothing : initial = .absent
  · subst nothing
    exact Slot.firstFault_leaf fun _ => rfl
  · rw [firstFault_single rfl rfl (Node.parts_declare nothing), statement, fault?_map]
    exact nothing

mutual

theorem firstFault_statement (unit : String) (level : Nat) (node : Node) :
    Slot.firstFault (Slot.preorder ⟨.statement, node⟩) = fault? (statement unit level node) := by
  cases node with
  | declare name initial block => exact firstFault_declare unit level name initial block
  | assign name value block => rw [firstFault_single rfl rfl rfl, statement, fault?_map]
  | write value block => rw [firstFault_single rfl rfl rfl, statement, fault?_map]
  | branch condition consequent alternate block =>
      rw [Slot.firstFault_parts rfl rfl, Node.parts, List.flatMap_cons, flatMap_preorder, positions_append,
        Slot.firstFault_append, Slot.firstFault_append, firstFault_expression,
        firstFault_statements unit (level + 1) consequent, firstFault_alternative unit level alternate, statement]
      refine (fault?_bind fun _ => fault?_bind fun _ => ?_).symm
      exact fault?_map (alternative unit level alternate) _
  | loop condition body block =>
      rw [Slot.firstFault_parts rfl rfl, Node.parts, List.flatMap_cons, flatMap_preorder, Slot.firstFault_append,
        firstFault_expression, firstFault_statements unit (level + 1) body, statement]
      exact (fault?_bind fun _ => fault?_map (statements unit (level + 1) body) _).symm
  | _ => exact Slot.firstFault_leaf fun good => by cases good

theorem firstFault_statements (unit : String) (level : Nat) : ∀ nodes : List Node,
    Slot.firstFault (positions nodes) = fault? (statements unit level nodes)
  | [] => rfl
  | node :: rest => by
      rw [positions, List.flatMap_cons, Slot.firstFault_append, firstFault_statement unit level node, ← positions,
        firstFault_statements unit level rest, statements]
      exact (fault?_bind fun _ => fault?_map (statements unit level rest) _).symm

theorem firstFault_alternative (unit : String) (level : Nat) (alternate : Option (List Node)) :
    Slot.firstFault (positions (alternate.getD [])) = fault? (alternative unit level alternate) := by
  cases alternate with
  | none => rfl
  | some nodes =>
      have written := firstFault_statements unit (level + 1) nodes
      cases nodes with
      | nil => rfl
      | cons node rest =>
          rw [alternative, fault?_map]
          exact written

end

theorem firstFault_program (unit : String) (body : List Node) :
    Slot.firstFault (positions body) = fault? (program unit body) := by
  rw [firstFault_statements unit 2 body, program, programLines]
  cases statements unit 2 body <;> rfl

end Source

def Place.name : Place → String
  | .statement => "statement"
  | .expression => "expression"

theorem Slot.firstFault_eq_none_iff {slots : List Slot} :
    firstFault slots = none ↔ ∀ slot ∈ slots, slot.fault? = none :=
  List.findSome?_eq_none_iff

theorem Slot.fault?_eq_none_iff {slot : Slot} : slot.fault? = none ↔ slot.stands = true ∧ slot.isLong = false := by
  unfold fault?
  cases slot.stands <;> cases slot.isLong <;> simp

theorem Slot.fault?_misplaced {slot : Slot} {fault : Misplaced} (wrong : slot.fault? = some (.misplaced fault)) :
    slot.stands = false ∧
      fault.message = "Unsupported " ++ slot.place.name ++ " node: " ++ slot.node.kind := by
  unfold fault? at wrong
  cases good : slot.stands with
  | true => cases long : slot.isLong <;> simp [good, long] at wrong
  | false =>
      simp only [good, Bool.not_false, if_true, Option.some.injEq, RenderError.misplaced.injEq] at wrong
      subst wrong
      obtain ⟨place, node⟩ := slot
      refine ⟨rfl, ?_⟩
      cases place <;> rfl

-- Writing a program comes to an end with a text, or stops at the first position where nothing can be written: its node
-- belongs elsewhere, or is a number of too many digits.
structure Source.Judged (unit : String) (body : List Node) : Prop where
  written : (∃ text, program unit body = .ok text) ↔ ∀ slot ∈ positions body, slot.stands = true ∧ slot.isLong = false
  stopped : ∀ error, program unit body = .error error ↔ ∃ earlier slot later,
    positions body = earlier ++ slot :: later ∧ (∀ before ∈ earlier, before.stands = true ∧ before.isLong = false) ∧
      slot.fault? = some error
  message : ∀ fault, program unit body = .error (.misplaced fault) → ∃ slot ∈ positions body, slot.stands = false ∧
    fault.message = "Unsupported " ++ slot.place.name ++ " node: " ++ slot.node.kind

theorem Source.program_judged (unit : String) (body : List Node) : Judged unit body := by
  have first := firstFault_program unit body
  have stopped : ∀ error, program unit body = .error error ↔ ∃ earlier slot later,
      positions body = earlier ++ slot :: later ∧ (∀ before ∈ earlier, before.fault? = none) ∧
        slot.fault? = some error := by
    intro error
    have same : program unit body = .error error ↔ Slot.firstFault (positions body) = some error := by
      rw [first]
      cases program unit body <;> simp [fault?]
    rw [same, Slot.firstFault, List.findSome?_eq_some_iff]
    simp only [and_comm]
  refine ⟨?_, ?_, ?_⟩
  · simp only [← Slot.fault?_eq_none_iff]
    rw [← Slot.firstFault_eq_none_iff, first]
    cases program unit body <;> simp [fault?]
  · simpa only [Slot.fault?_eq_none_iff] using stopped
  · intro fault failed
    obtain ⟨_, slot, _, listed, _, wrong⟩ := (stopped _).mp failed
    exact ⟨slot, by simp [listed], Slot.fault?_misplaced wrong⟩

-- Every node is in its place, and a number has one more digit than can be written.

def countWritten : List Node := [.write (.literal (.int (10 ^ Number.greatestLength)) .number none) none]

theorem placed_program_stops :
    (∀ slot ∈ Source.positions countWritten, slot.stands = true) ∧
      ∀ unit, Source.program unit countWritten = .error (.oversized .written) := by
  have listed : Source.positions countWritten =
      [⟨.statement, .write (.literal (.int (10 ^ Number.greatestLength)) .number none) none⟩,
        ⟨.expression, .literal (.int (10 ^ Number.greatestLength)) .number none⟩] := by
    simp [Source.positions, countWritten, Slot.preorder_eq, Slot.stands, Node.place?, Node.parts]
  have long : Value.fits (.int (10 ^ Number.greatestLength)) = false := Number.fits_least
  have literal : Source.literal (.int (10 ^ Number.greatestLength)) .number = .error (.oversized .written) := by
    simp only [Source.literal, Value.writtenNumber, long]
    rfl
  refine ⟨by simp [listed, Slot.stands, Node.place?], fun unit => ?_⟩
  simp only [Source.program, Source.programLines, countWritten, Source.statements, Source.statement, Source.expression,
    literal]
  rfl

-- What is wrong with the condition of a loop is told before what is wrong with its body.
example : Source.program "  " [.write (.read none none) none, .loop (.write .absent none) [.absent] none] =
    .error (.misplaced ⟨.expression, "WriteStatement"⟩) := by rfl

end BlockCanvas
