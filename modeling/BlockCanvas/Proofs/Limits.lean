import BlockCanvas.Proofs.Visiting
namespace BlockCanvas

-- The sockets whose sources are built along with the expression of a block.
def expressionSockets (definition : String) : List String :=
  match ExpressionForm.of definition with
  | .read => ["prompt"]
  | .operation _ => ["left", "right"]
  | _ => []

-- The sockets whose sources are built along with the statement of a block.
def statementSockets (definition : String) : List String :=
  match StatementForm.of definition with
  | .write => ["value"]
  | .declare => ["value"]
  | .assign => ["value"]
  | .branch => ["condition"]
  | .loop => ["condition"]
  | .unknown => []

namespace Graph
variable {graph : Graph} {sockets : String → List String} {id source : String}

-- The source stands at one of the sockets that count for the block.
def Draws (graph : Graph) (sockets : String → List String) (id source : String) : Prop :=
  ∃ block socket connection, graph.get? id = some block ∧ socket ∈ sockets block.definition.id ∧
    block.inputs.get? socket = some connection ∧ connection.source = source

theorem draws_iff {block : Block} (found : graph.get? id = some block) :
    graph.Draws sockets id source ↔ ∃ socket ∈ sockets block.definition.id,
      (block.inputs.get? socket).map Connection.source = some source := by
  constructor
  · rintro ⟨_, socket, connection, present, follows, stored, rfl⟩
    rw [found] at present
    cases present
    exact ⟨socket, follows, by rw [stored, Option.map_some]⟩
  · rintro ⟨socket, follows, given⟩
    obtain ⟨connection, stored, rfl⟩ := Option.map_eq_some_iff.mp given
    exact ⟨block, socket, connection, found, follows, stored, rfl⟩

theorem exists_draws_iff {block : Block} (found : graph.get? id = some block) (holds : String → Prop) :
    (∃ source, graph.Draws sockets id source ∧ holds source) ↔ ∃ socket ∈ sockets block.definition.id, ∃ source,
      (block.inputs.get? socket).map Connection.source = some source ∧ holds source := by
  simp only [draws_iff found]
  constructor
  · rintro ⟨source, ⟨socket, listed, stored⟩, held⟩
    exact ⟨socket, listed, source, stored, held⟩
  · rintro ⟨socket, listed, source, stored, held⟩
    exact ⟨source, ⟨socket, listed, stored⟩, held⟩

end Graph

namespace Graph
variable {graph : Graph} {around : List String} {id : String} {depth : Nat}

-- So many expressions inside each other, each at a socket of the one around it. Only the last may stand around itself.
inductive Nests (graph : Graph) : List String → String → Nat → Prop
  | last (around : List String) (id : String) : Nests graph around id 1
  | inner {around : List String} {id source : String} {depth : Nat} (fresh : id ∉ around)
      (draws : graph.Draws expressionSockets id source) (present : graph.contains source = true)
      (rest : Nests graph (id :: around) source depth) : Nests graph around id (depth + 1)

theorem Nests.pos (nests : graph.Nests around id depth) : 0 < depth := by
  cases nests <;> omega

theorem nests_succ_iff (deep : 0 < depth) :
    graph.Nests around id (depth + 1) ↔ id ∉ around ∧ ∃ source, graph.Draws expressionSockets id source ∧
      graph.contains source = true ∧ graph.Nests (id :: around) source depth := by
  constructor
  · intro nests
    cases nests with
    | last => exact absurd deep (Nat.lt_irrefl 0)
    | inner fresh draws present rest => exact ⟨fresh, _, draws, present, rest⟩
  · rintro ⟨fresh, source, draws, present, rest⟩
    exact .inner fresh draws present rest

-- No deeper than there are blocks that do not stand around already, and one that may.
theorem Nests.le (nests : graph.Nests around id depth) : depth ≤ (unmet graph.ids around).length + 1 := by
  induction nests with
  | last around id => omega
  | @inner around id source depth fresh draws present rest ih =>
      obtain ⟨block, _, _, found, _⟩ := draws
      have fewer := length_erase_lt (mem_unmet_iff.mpr ⟨mem_ids_iff.mpr ⟨block, found⟩, fresh⟩)
      rw [unmet_cons graph.ids_nodup] at ih
      omega

-- The expressions of some statement nest so deep.
def NestsTo (graph : Graph) (depth : Nat) : Prop :=
  ∃ id ∈ graph.roots.flatMap graph.chain, ∃ source, graph.Draws statementSockets id source ∧
    graph.contains source = true ∧ graph.Nests [] source depth

theorem NestsTo.le (nests : graph.NestsTo depth) : depth ≤ graph.size + 1 := by
  obtain ⟨_, _, _, _, _, rest⟩ := nests
  have bound := rest.le
  rwa [unmet_nil, show graph.ids.length = graph.size from List.length_map _] at bound

end Graph

-- Events that come from the sources that are built for a block, and never from its own form.
structure Event.Inherited (holds : Event → Prop) : Prop where
  shown : ∀ value, ¬ holds (.shown value)
  noted : ∀ id definition note, holds (.noted (.build id definition note)) → note = .selfDependent

namespace Built
variable {α β : Type} {holds : Event → Prop} {built : Built α}

def Meets (holds : Event → Prop) (built : Built α) : Prop :=
  ∃ event ∈ built.trace, holds event

theorem meets_pure (value : α) : ¬ (pure value : Built α).Meets holds := by
  simp [Meets]

theorem meets_bind {next : α → Built β} :
    (built >>= next).Meets holds ↔ built.Meets holds ∨ (next built.value).Meets holds := by
  simp only [Meets, trace_bind, List.mem_append, or_and_right, exists_or]

theorem meets_textOf (inherited : Event.Inherited holds) (value : Value) :
    ¬ (Building.textOf value : Built String).Meets holds := by
  rintro ⟨event, listed, held⟩
  cases List.mem_singleton.mp listed
  exact inherited.shown value held

theorem meets_warn (inherited : Event.Inherited holds) {id : String} {block : Block} {note : BuildNote}
    (other : note ≠ .selfDependent) : ¬ (Build.warn id block note : Built Unit).Meets holds := by
  rintro ⟨event, listed, held⟩
  cases List.mem_singleton.mp listed
  exact other (inherited.noted id block.definition.id note held)

theorem meets_deepened :
    built.deepened.Meets holds ↔ holds (.nested 1) ∨ built.Meets fun event => holds event.deeper := by
  simp [Meets, deepened]

end Built

namespace Build
open Built
variable {graph : Graph} {block : Block} {id socket : String} {opened : List String} {default : Value}
  {build : String → Built Node} {holds : Event → Prop}

-- A source that is not on the canvas leads nowhere.
theorem source_meets (inherited : Event.Inherited holds) {next : Option String → Built α}
    (bare : ¬ (next none).Meets holds) :
    (source graph id block socket >>= next).Meets holds ↔
      ∃ feeding, (block.inputs.get? socket).map Connection.source = some feeding ∧
        graph.contains feeding = true ∧ (next (some feeding)).Meets holds := by
  rw [meets_bind]
  unfold source
  cases block.inputs.get? socket with
  | none => simp [meets_pure, bare]
  | some connection =>
      by_cases present : graph.contains connection.source = true
      · simp [present, meets_pure]
      · simp [present, meets_bind, meets_warn inherited, meets_pure, bare]

theorem prompted_meets (inherited : Event.Inherited holds) (value : Value) :
    ¬ (prompted id value : Built Node).Meets holds := by
  simp [prompted, meets_bind, meets_textOf inherited, meets_pure]

theorem operand_meets (inherited : Event.Inherited holds) :
    (operand build graph id block socket default).Meets holds ↔
      ∃ feeding, (block.inputs.get? socket).map Connection.source = some feeding ∧
        graph.contains feeding = true ∧ (build feeding).Meets holds :=
  source_meets inherited (meets_pure _)

theorem initialValue_meets (inherited : Event.Inherited holds) :
    (initialValue build graph id block).Meets holds ↔
      ∃ feeding, (block.inputs.get? "value").map Connection.source = some feeding ∧
        graph.contains feeding = true ∧ (build feeding).Meets holds := by
  refine source_meets inherited ?_
  dsimp only
  split <;> exact meets_pure _

theorem readNode_meets (inherited : Event.Inherited holds) :
    (readNode build graph id block).Meets holds ↔
      ∃ feeding, (block.inputs.get? "prompt").map Connection.source = some feeding ∧
        graph.contains feeding = true ∧ (build feeding).Meets holds := by
  unfold readNode
  rw [source_meets inherited]
  · refine exists_congr fun feeding => and_congr_right fun _ => and_congr_right fun _ => ?_
    rw [meets_bind]
    cases promptOf (build feeding).value with
    | none => simp [meets_bind, meets_warn inherited, meets_pure]
    | some value => simp [prompted_meets inherited]
  · dsimp only
    cases storedPrompt block with
    | none => exact meets_pure _
    | some value => exact prompted_meets inherited value

theorem operationNode_meets (inherited : Event.Inherited holds) {operator : Option Operator} :
    (operationNode build graph id block operator).Meets holds ↔
      ∃ socket ∈ ["left", "right"], ∃ feeding, (block.inputs.get? socket).map Connection.source = some feeding ∧
        graph.contains feeding = true ∧ (build feeding).Meets holds := by
  have chosen : ¬ (chosenOperator id block operator : Built Operator).Meets holds := by
    cases operator with
    | none => simp [chosenOperator, meets_bind, meets_warn inherited, meets_pure]
    | some known => exact meets_pure known
  simp [operationNode, meets_bind, chosen, operand_meets inherited, meets_pure]

theorem formNode_meets (inherited : Event.Inherited holds) (found : graph.get? id = some block) :
    (formNode build graph id block).Meets holds ↔
      ∃ feeding, graph.Draws expressionSockets id feeding ∧ graph.contains feeding = true ∧
        (build feeding).Meets holds := by
  rw [Graph.exists_draws_iff found]
  unfold formNode expressionSockets
  cases ExpressionForm.of block.definition.id with
  | read => simp [readNode_meets inherited]
  | lookup => simp [meets_pure]
  | literal default => simp [meets_pure]
  | operation operator => exact operationNode_meets inherited
  | unknown => simp [meets_bind, meets_warn inherited, meets_pure]

theorem statement_meets (inherited : Event.Inherited holds) (found : graph.get? id = some block) :
    (statement build graph id block).Meets holds ↔
      ∃ feeding, graph.Draws statementSockets id feeding ∧ graph.contains feeding = true ∧
        (build feeding).Meets holds := by
  rw [Graph.exists_draws_iff found]
  unfold statement statementSockets
  cases StatementForm.of block.definition.id with
  | write => simp [meets_bind, meets_pure, operand_meets inherited]
  | declare => simp [meets_bind, meets_pure, initialValue_meets inherited]
  | assign => simp [meets_bind, meets_pure, operand_meets inherited]
  | branch => simp [meets_bind, meets_pure, operand_meets inherited]
  | loop => simp [meets_bind, meets_pure, operand_meets inherited]
  | unknown => simp [meets_bind, meets_warn inherited, meets_pure]

theorem statements_meets (inherited : Event.Inherited holds) (ids : List String) :
    (statements build graph ids).Meets holds ↔
      ∃ id ∈ ids, ∃ feeding, graph.Draws statementSockets id feeding ∧ graph.contains feeding = true ∧
        (build feeding).Meets holds := by
  induction ids with
  | nil => simp [statements, meets_pure]
  | cons id rest ih =>
      simp only [statements, meets_bind, ih, meets_pure, or_false, List.mem_cons, exists_eq_or_imp]
      refine or_congr ?_ Iff.rfl
      unfold statementAt
      cases found : graph.get? id with
      | none =>
          refine iff_of_false (meets_pure _) ?_
          rintro ⟨_, ⟨block, _, _, there, _⟩, _⟩
          rw [found] at there
          cases there
      | some block => exact statement_meets inherited found

theorem inherited_nested (depth : Nat) : Event.Inherited (· = .nested depth) where
  shown _ same := by cases same
  noted _ _ _ same := by cases same

-- The induction is on the depth: an expression is met one deeper for each that stands around it.
theorem expression_nests {depth : Nat} {around : List String} (found : graph.get? id = some block) :
    (expression graph (unmet graph.ids around) id).Meets (· = .nested depth) ↔ graph.Nests around id depth := by
  induction depth generalizing around id block with
  | zero =>
      refine iff_of_false ?_ fun nests => Nat.lt_irrefl 0 nests.pos
      rw [expression, meets_deepened]
      rintro (top | ⟨event, _, deeper⟩)
      · cases top
      · cases event <;> cases deeper
  | succ depth ih =>
      have deeper : ∀ event : Event, event.deeper = .nested (depth + 1) ↔ event = .nested depth := by
        intro event
        cases event <;> simp [Event.deeper]
      rw [expression, meets_deepened]
      simp only [deeper, found]
      rcases Nat.eq_zero_or_pos depth with rfl | deep
      · exact iff_of_true (Or.inl rfl) (.last around id)
      · have top : Event.nested 1 ≠ .nested (depth + 1) := by
          intro same
          cases same
          exact Nat.lt_irrefl 0 deep
        rw [or_iff_right top, Graph.nests_succ_iff deep]
        by_cases met : id ∈ around
        · have closed : id ∉ unmet graph.ids around := fun listed => (mem_unmet_iff.mp listed).2 met
          refine iff_of_false ?_ fun nests => nests.1 met
          simp [closed, Meets, warn, Building.note]
        · have opened : id ∈ unmet graph.ids around := mem_unmet_iff.mpr ⟨Graph.mem_ids_iff.mpr ⟨block, found⟩, met⟩
          simp only [opened, dite_true, met, not_false_eq_true, true_and]
          rw [formNode_meets (inherited_nested depth) found, ← unmet_cons graph.ids_nodup]
          refine exists_congr fun feeding => and_congr_right fun _ => and_congr_right fun present => ?_
          obtain ⟨giving, there⟩ := Graph.contains_eq_true_iff.mp present
          exact ih there

end Build

theorem Number.fits_iff {n : Int} : fits n = true ↔ n.natAbs < 10 ^ greatestLength := by
  rw [fits, decide_eq_true_eq]
  exact Nat.length_toDigits_le_iff (by decide) (by decide)

-- The least number that has too many digits.
theorem Number.fits_least : fits (10 ^ greatestLength) = false := by
  rw [← Bool.not_eq_true, fits_iff, Int.natAbs_pow, show (10 : Int).natAbs = 10 from rfl]
  exact Nat.lt_irrefl _

-- Texts and numbers of literals are written out, truth values only looked at.
def Node.literalFits (value : Value) : LiteralType → Bool
  | .boolean => true
  | _ => value.fits

mutual

-- No whole number in the tree is too long to be written.
def Node.fits : Node → Bool
  | .literal value type _ => literalFits value type
  | .binary _ left right _ => left.fits && right.fits
  | .declare _ initial _ => initial.fits
  | .assign _ value _ => value.fits
  | .write value _ => value.fits
  | .branch condition consequent alternate _ =>
      condition.fits && Node.allFit consequent && Node.alternateFits alternate
  | .loop condition body _ => condition.fits && Node.allFit body
  | _ => true

def Node.allFit : List Node → Bool
  | [] => true
  | node :: rest => node.fits && Node.allFit rest

def Node.alternateFits : Option (List Node) → Bool
  | none => true
  | some nodes => Node.allFit nodes

end

theorem Node.allFit_append (first second : List Node) :
    allFit (first ++ second) = (allFit first && allFit second) := by
  induction first with
  | nil => simp [allFit]
  | cons node rest ih => simp [allFit, ih, Bool.and_assoc]

-- Some block holds a whole number that is too long to be written.
def Graph.Oversized (graph : Graph) : Prop :=
  ∃ id block socket value, graph.get? id = some block ∧ block.values.get? socket = some value ∧ value.fits = false

-- Nothing too long is asked for or comes out.
structure Built.Short (fits : α → Bool) (built : Built α) : Prop where
  value : fits built.value = true
  shown : ∀ value, .shown value ∈ built.trace → value.fits = true

namespace Built
variable {α β : Type} {fits : α → Bool}

theorem short_pure {value : α} (small : fits value = true) : (pure value : Built α).Short fits :=
  ⟨small, by simp⟩

theorem short_bind {other : β → Bool} {built : Built α} {next : α → Built β} (first : built.Short fits)
    (later : fits built.value = true → (next built.value).Short other) : (built >>= next).Short other := by
  have second := later first.value
  refine ⟨second.value, fun value listed => ?_⟩
  rw [trace_bind, List.mem_append] at listed
  exact listed.elim (first.shown value) (second.shown value)

theorem short_warn (id : String) (block : Block) (note : BuildNote) :
    (Build.warn id block note : Built Unit).Short fun _ => true :=
  ⟨rfl, by simp [Build.warn, Building.note]⟩

theorem short_textOf {value : Value} (small : value.fits = true) :
    (Building.textOf value : Built String).Short fun _ => true :=
  ⟨rfl, fun _ listed => by cases List.mem_singleton.mp listed; exact small⟩

theorem Short.deepened {built : Built α} (short : built.Short fits) : built.deepened.Short fits := by
  refine ⟨short.value, fun value listed => ?_⟩
  obtain ⟨event, member, same⟩ : ∃ event ∈ built.trace, event.deeper = .shown value := by
    simpa [Built.deepened] using listed
  cases event with
  | shown => exact short.shown value (by simpa [Event.deeper] using same ▸ member)
  | _ => cases same

end Built

namespace Build
open Built
variable {graph : Graph} {block : Block} {id socket : String} {opened : List String} {default : Value}
  {build : String → Built Node}

-- What comes of an expression can be written, and shown where it is a literal.
def isShort (node : Node) : Bool := node.fits && (promptOf node).all Value.fits

theorem literal_isShort (id : String) {value : Value} (small : value.fits = true) : isShort (literal id value) = true := by
  cases value with
  | int number => simpa [isShort, literal, Node.fits, Node.literalFits, promptOf] using small
  | _ => rfl

theorem literalForm_fits {definition : String} (form : ExpressionForm.of definition = .literal default) :
    default.fits = true := by
  unfold ExpressionForm.of at form
  repeat' split at form
  all_goals cases form
  all_goals rfl

section Small
variable (small : ¬ graph.Oversized) (found : graph.get? id = some block)
include small found

theorem stored_fits {value : Value} (stored : block.values.get? socket = some value) : value.fits = true := by
  by_contra long
  exact small ⟨id, block, socket, value, found, stored, by simpa using long⟩

theorem given_fits {value : Value} (given : block.given? socket = some value) : value.fits = true := by
  unfold Block.given? at given
  split at given
  · cases given
  · exact stored_fits small found given

theorem getD_given_fits (plain : default.fits = true) : ((block.given? socket).getD default).fits = true := by
  cases given : block.given? socket with
  | none => exact plain
  | some value => exact given_fits small found given

omit small found in
theorem source_short (graph : Graph) (id : String) (block : Block) (socket : String) :
    (source graph id block socket : Built (Option String)).Short fun _ => true := by
  unfold source
  cases block.inputs.get? socket with
  | none => exact short_pure rfl
  | some connection =>
      dsimp only
      split
      · exact short_pure rfl
      · exact short_bind (short_warn id block _) fun _ => short_pure rfl

omit small found in
theorem prompted_short {value : Value} (plain : value.fits = true) :
    (prompted id value : Built Node).Short isShort :=
  short_bind (short_textOf plain) fun _ => short_pure rfl

variable (inner : ∀ feeding, (build feeding).Short isShort)
include inner

theorem operand_short (plain : default.fits = true) : (operand build graph id block socket default).Short isShort := by
  refine short_bind (source_short graph id block socket) fun _ => ?_
  cases (source (m := Built) graph id block socket).value with
  | none => exact short_pure (literal_isShort id (getD_given_fits small found plain))
  | some feeding => exact inner feeding

theorem readNode_short : (readNode build graph id block).Short isShort := by
  refine short_bind (source_short graph id block "prompt") fun _ => ?_
  cases (source (m := Built) graph id block "prompt").value with
  | none =>
      dsimp only
      cases stored : storedPrompt block with
      | none => exact short_pure rfl
      | some value =>
          refine prompted_short ?_
          unfold storedPrompt at stored
          split at stored
          · split at stored
            · cases stored
              exact stored_fits small found (by assumption)
            · cases stored
          · cases stored
  | some feeding =>
      refine short_bind (inner feeding) fun plain => ?_
      cases prompt : promptOf (build feeding).value with
      | none => exact short_bind (short_warn id block _) fun _ => short_pure rfl
      | some value =>
          rw [isShort, prompt, Bool.and_eq_true] at plain
          exact prompted_short plain.2

theorem operationNode_short (operator : Option Operator) :
    (operationNode build graph id block operator).Short isShort := by
  have chosen : (chosenOperator id block operator : Built Operator).Short fun _ => true := by
    cases operator with
    | none => exact short_bind (short_warn id block _) fun _ => short_pure rfl
    | some known => exact short_pure rfl
  refine short_bind chosen fun _ => short_bind (operand_short small found inner rfl) fun left => ?_
  refine short_bind (operand_short small found inner rfl) fun right => short_pure ?_
  simp only [isShort, Bool.and_eq_true] at left right
  simp [isShort, Node.fits, promptOf, left.1, right.1]

theorem formNode_short : (formNode build graph id block).Short isShort := by
  unfold formNode
  cases form : ExpressionForm.of block.definition.id with
  | read => exact readNode_short small found inner
  | lookup => exact short_pure rfl
  | literal default => exact short_pure (literal_isShort id (getD_given_fits small found (literalForm_fits form)))
  | operation operator => exact operationNode_short small found inner operator
  | unknown =>
      refine short_bind (short_warn id block _) fun _ => short_pure ?_
      exact literal_isShort id (getD_given_fits small found rfl)

theorem initialValue_short : (initialValue build graph id block).Short isShort := by
  refine short_bind (source_short graph id block "value") fun _ => ?_
  cases (source (m := Built) graph id block "value").value with
  | none =>
      dsimp only
      split
      · exact short_pure rfl
      · exact short_pure rfl
      · rename_i given
        exact short_pure (literal_isShort id (given_fits small found given))
  | some feeding => exact inner feeding

theorem statement_short : (statement build graph id block).Short Node.allFit := by
  have whole : ∀ {node : Node}, isShort node = true → node.fits = true := fun short => (Bool.and_eq_true_iff.mp short).1
  unfold statement
  cases StatementForm.of block.definition.id with
  | write =>
      refine short_bind (operand_short small found inner rfl) fun short => short_pure ?_
      simp [Node.allFit, Node.fits, whole short]
  | declare =>
      refine short_bind (initialValue_short small found inner) fun short => short_pure ?_
      simp [Node.allFit, Node.fits, whole short]
  | assign =>
      refine short_bind (operand_short small found inner rfl) fun short => short_pure ?_
      simp [Node.allFit, Node.fits, whole short]
  | branch =>
      refine short_bind (operand_short small found inner rfl) fun short => short_pure ?_
      simp [Node.allFit, Node.fits, Node.alternateFits, whole short]
  | loop =>
      refine short_bind (operand_short small found inner rfl) fun short => short_pure ?_
      simp [Node.allFit, Node.fits, whole short]
  | unknown => exact short_bind (short_warn id block _) fun _ => short_pure rfl

end Small

theorem expression_short (small : ¬ graph.Oversized) (opened : List String) (id : String) :
    (expression graph opened id).Short isShort := by
  induction size : opened.length using Nat.strong_induction_on generalizing opened id with
  | _ size ih =>
    rw [expression]
    apply Short.deepened
    cases found : graph.get? id with
    | none => exact short_pure rfl
    | some block =>
        by_cases present : id ∈ opened
        · simp only [present, dite_true]
          exact formNode_short small found fun feeding =>
            ih (opened.erase id).length (size ▸ length_erase_lt present) _ feeding rfl
        · simp only [present, dite_false]
          exact short_bind (short_warn id block _) fun _ => short_pure rfl

theorem statements_short (small : ¬ graph.Oversized) (inner : ∀ feeding, (build feeding).Short isShort)
    (ids : List String) : (statements build graph ids).Short Node.allFit := by
  induction ids with
  | nil => exact short_pure rfl
  | cons id rest ih =>
      have first : (statementAt build graph id).Short Node.allFit := by
        unfold statementAt
        cases found : graph.get? id with
        | none => exact short_pure rfl
        | some block => exact statement_short small found inner
      refine short_bind first fun one => short_bind ih fun others => short_pure ?_
      rw [Node.allFit_append, one, others]
      rfl

end Build

namespace Graph
variable {graph : Graph}

theorem program_short (small : ¬ graph.Oversized) : graph.program.Short Node.allFit :=
  Build.statements_short small (Build.expression_short small graph.ids) _

theorem program_nests_iff {depth : Nat} : .nested depth ∈ graph.program.trace ↔ graph.NestsTo depth := by
  have met : .nested depth ∈ graph.program.trace ↔ graph.program.Meets (· = .nested depth) := by
    simp [Built.Meets]
  rw [met, program, Build.statements_meets (Build.inherited_nested depth)]
  refine exists_congr fun id => and_congr_right fun _ => exists_congr fun source => and_congr_right fun _ =>
    and_congr_right fun present => ?_
  obtain ⟨block, found⟩ := contains_eq_true_iff.mp present
  rw [← Build.expression_nests found, unmet_nil]

-- What the graph has that building is stopped at: expressions that nest too deep, or a number that is too long.
def Exceeds (graph : Graph) (room : Nat) : BuildError → Prop
  | .tooDeep => ∃ depth, room < depth ∧ graph.NestsTo depth
  | .oversized _ => graph.Oversized

theorem exceeds_of_stop {room : Nat} {error : BuildError}
    (stopped : graph.program.trace.findSome? (Event.stop? room) = some error) : graph.Exceeds room error := by
  obtain ⟨event, listed, stops⟩ := List.exists_of_findSome?_eq_some stopped
  cases event with
  | noted diagnostic => cases stops
  | shown value =>
      by_cases short : value.fits = true
      · simp [Event.stop?, short] at stops
      · obtain rfl : BuildError.oversized .written = error := by simpa [Event.stop?, short] using stops
        by_contra small
        exact short ((program_short small).shown value listed)
  | nested depth =>
      by_cases deep : depth ≤ room
      · simp [Event.stop?, deep] at stops
      · obtain rfl : BuildError.tooDeep = error := by simpa [Event.stop?, deep] using stops
        exact ⟨depth, Nat.lt_of_not_le deep, program_nests_iff.mp listed⟩

-- The builder comes to a program and notes of which something holds, or is stopped at a limit.
def Builds (graph : Graph) (holds : List Node → List Diagnostic → Prop) : Prop :=
  ∀ room visit, match Builder.program room graph visit with
    | .ok program after => holds program after.notes
    | .error error _ => graph.Exceeds room error

theorem builds_of {holds : List Node → List Diagnostic → Prop} (held : holds graph.program.value graph.program.notes) :
    graph.Builds holds := by
  intro room visit
  rw [Builder.program_eq, Built.run]
  cases stopped : graph.program.trace.findSome? (Event.stop? room) with
  | none => exact held
  | some error => exact exceeds_of_stop stopped

end Graph
end BlockCanvas
