import BlockCanvas.Proofs.Spelling
import BlockCanvas.Proofs.Statements
namespace BlockCanvas

namespace Text

def lineCount (text : String) : Nat := (text.toList.splitOn '\n').length

def breaks (text : String) : Nat := text.toList.count '\n'

theorem lineCount_eq (text : String) : lineCount text = breaks text + 1 := by
  unfold lineCount breaks
  induction text.toList with
  | nil => rfl
  | cons c rest ih =>
      rw [List.splitOn_eq_splitOnP] at ih ⊢
      rw [List.splitOnP_cons_eq_if_modifyHead]
      by_cases newline : c = '\n'
      · simp [newline, ih]
      · simp [newline, ih]

@[simp] theorem breaks_append (first second : String) : breaks (first ++ second) = breaks first + breaks second := by
  simp [breaks]

theorem breaks_eq_zero {text : String} (whole : '\n' ∉ text.toList) : breaks text = 0 :=
  List.count_eq_zero_of_not_mem whole

-- Joining lines adds a newline between each two of them.
theorem breaks_intercalate (first : String) (rest : List String) :
    breaks ("\n".intercalate (first :: rest)) = ((first :: rest).map breaks).sum + rest.length := by
  induction rest generalizing first with
  | nil => simp [breaks]
  | cons second rest ih =>
      have joined : "\n".intercalate (first :: second :: rest) = first ++ "\n" ++ "\n".intercalate (second :: rest) := by
        apply String.toList_inj.mp
        simp [String.toList_intercalate]
      have newline : breaks "\n" = 1 := rfl
      simp only [joined, breaks_append, ih, newline, List.map_cons, List.sum_cons, List.length_cons]
      omega

end Text

namespace Source
variable {unit : String} {level : Nat}

theorem breaks_line (margin : '\n' ∉ unit.toList) (level : Nat) (text : String) :
    Text.breaks (line unit level text) = Text.breaks text := by
  have indent : '\n' ∉ (String.join (List.replicate level unit)).toList := by
    intro member
    rw [String.toList_join, List.mem_flatMap] at member
    obtain ⟨copy, listed, inside⟩ := member
    rw [List.eq_of_mem_replicate listed] at inside
    exact margin inside
  rw [line, Text.breaks_append, Text.breaks_eq_zero indent, Nat.zero_add]

end Source

namespace Decimal

theorem newline_not_mem_digits (n : Nat) : '\n' ∉ digits n := by
  intro member
  have digit := Nat.isDigit_of_mem_toDigits (by decide) (by decide) member
  cases digit

theorem newline_not_mem_plain (decimal : Decimal) : '\n' ∉ decimal.plain := by
  have sign : '\n' ∉ signText decimal.negative := by cases decimal.negative <;> simp [signText]
  have pointed : ∀ places, '\n' ∉ pointed (digits decimal.coefficient) places := by
    intro places member
    have padded : ∀ count, '\n' ∉ List.replicate count '0' ++ digits decimal.coefficient := by
      intro count
      simp [newline_not_mem_digits]
    simp only [Decimal.pointed, List.mem_append, List.mem_cons] at member
    rcases member with front | point | back
    · exact padded _ (List.mem_of_mem_take front)
    · cases point
    · exact padded _ (List.mem_of_mem_drop back)
  simp only [plain, List.mem_append, sign, false_or]
  split
  · exact newline_not_mem_digits _
  · exact pointed _

end Decimal

theorem Binary64.newline_not_mem_written (value : Binary64) : '\n' ∉ value.written.toList := by
  unfold written
  cases value.integer? with
  | some n => exact Source.newline_not_mem_of_run (Source.number_chars n).2 rfl
  | none =>
      cases value with
      | finite negative significand exponent => simp [Decimal.newline_not_mem_plain]
      | infinite negative => cases negative <;> decide
      | undefined => decide

-- The names that stand in the first line of a node.
def Node.names : Node → List String
  | .identifier name _ => [name]
  | .binary _ left right _ => left.names ++ right.names
  | .declare name initial _ => name :: initial.names
  | .assign name value _ => name :: value.names
  | .write value _ => value.names
  | .branch condition _ _ _ => condition.names
  | .loop condition _ _ => condition.names
  | _ => []

def Node.breaks (node : Node) : Nat := (node.names.map Text.breaks).sum

-- The lines of a statement whose bodies are empty.
def Node.height : Node → Nat
  | .branch .. => 3
  | .loop .. => 3
  | _ => 1

-- The expressions that building makes of the blocks of a canvas.
inductive Graph.Makes (graph : Graph) : Node → Prop
  | literal (id : String) (value : Value) : Makes graph (Build.literal id value)
  | lookup {id : String} {block : Block} (found : graph.get? id = some block) :
      Makes graph (.identifier (Build.variableName block) (some id))
  | read (prompt : Option String) (id : String) : Makes graph (.read prompt (some id))
  | operation {left right : Node} (operator : Operator) (id : String) (first : Makes graph left)
      (second : Makes graph right) : Makes graph (.binary operator.symbol left right (some id))

-- The statements, which all have empty bodies.
inductive Graph.States (graph : Graph) : Node → Prop
  | write {value : Node} (id : String) (made : graph.Makes value) : States graph (.write value (some id))
  | declare {id : String} {block : Block} (found : graph.get? id = some block) :
      States graph (.declare (Build.variableName block) .absent (some id))
  | start {id : String} {block : Block} {initial : Node} (found : graph.get? id = some block)
      (made : graph.Makes initial) : States graph (.declare (Build.variableName block) initial (some id))
  | assign {id : String} {block : Block} {value : Node} (found : graph.get? id = some block)
      (made : graph.Makes value) : States graph (.assign (Build.variableName block) value (some id))
  | branch {condition : Node} (id : String) (made : graph.Makes condition) :
      States graph (.branch condition [] none (some id))
  | loop {condition : Node} (id : String) (made : graph.Makes condition) : States graph (.loop condition [] (some id))

namespace Build
variable {graph : Graph} {id socket : String} {block : Block} {default : Value} {build : String → Built Node}

theorem operand_makes (inner : ∀ feeding, graph.contains feeding = true → graph.Makes (build feeding).value) :
    graph.Makes (operand build graph id block socket default).value := by
  simp only [operand, Built.value_bind]
  cases found : (source (m := Built) graph id block socket).value with
  | none => exact .literal id _
  | some feeding => exact inner feeding (contains_of_source found)

theorem formNode_makes (inner : ∀ feeding, graph.contains feeding = true → graph.Makes (build feeding).value)
    (found : graph.get? id = some block) : graph.Makes (formNode build graph id block).value := by
  unfold formNode
  cases ExpressionForm.of block.definition.id with
  | read =>
      obtain ⟨prompt, equal⟩ := readNode_value build graph id block
      simp only [equal]
      exact .read prompt id
  | lookup => exact .lookup found
  | literal default => exact .literal id _
  | operation operator => exact .operation _ id (operand_makes inner) (operand_makes inner)
  | unknown => exact .literal id _

theorem expression_makes {opened : List String} (present : graph.contains id = true) :
    graph.Makes (expression graph opened id).value := by
  induction size : opened.length using Nat.strong_induction_on generalizing opened id with
  | _ size ih =>
    obtain ⟨block, found⟩ := Graph.contains_eq_true_iff.mp present
    rw [expression]
    by_cases listed : id ∈ opened
    · simp only [found, listed, dite_true]
      exact formNode_makes (fun feeding there =>
        ih (opened.erase id).length (size ▸ length_erase_lt listed) there rfl) found
    · simp only [found, listed, dite_false]
      exact .literal id (.text "")

theorem initialValue_states (inner : ∀ feeding, graph.contains feeding = true → graph.Makes (build feeding).value)
    (found : graph.get? id = some block) :
    graph.States (.declare (variableName block) (initialValue build graph id block).value (some id)) := by
  simp only [initialValue, Built.value_bind]
  cases fed : (source (m := Built) graph id block "value").value with
  | none =>
      dsimp only
      split
      · exact .declare found
      · exact .declare found
      · exact .start found (.literal id _)
  | some feeding => exact .start found (inner feeding (contains_of_source fed))

theorem statement_states (inner : ∀ feeding, graph.contains feeding = true → graph.Makes (build feeding).value)
    (found : graph.get? id = some block) : ∀ node ∈ (statement build graph id block).value, graph.States node := by
  unfold statement
  cases StatementForm.of block.definition.id with
  | write => exact List.forall_mem_singleton.mpr (.write id (operand_makes inner))
  | declare => exact List.forall_mem_singleton.mpr (initialValue_states inner found)
  | assign => exact List.forall_mem_singleton.mpr (.assign found (operand_makes inner))
  | branch => exact List.forall_mem_singleton.mpr (.branch id (operand_makes inner))
  | loop => exact List.forall_mem_singleton.mpr (.loop id (operand_makes inner))
  | unknown => exact List.forall_mem_nil _

end Build

namespace Graph
variable {graph : Graph} {node : Node} {unit : String} {level : Nat}

theorem program_states (graph : Graph) : ∀ node ∈ graph.program.value, graph.States node := by
  intro node listed
  obtain ⟨id, _, block, found, made⟩ := (Build.mem_value_statements _).mp listed
  exact Build.statement_states (fun _ => Build.expression_makes) found node made

theorem Makes.breaks_spelling (made : graph.Makes node) : Text.breaks (Source.spelling node) = node.breaks := by
  induction made with
  | literal id value =>
      have nameless : (Build.literal id value).breaks = 0 := by cases value <;> rfl
      rw [nameless]
      apply Text.breaks_eq_zero
      cases value with
      | null => exact Source.newline_not_mem_quoted _
      | bool value =>
          cases value with
          | false => exact (show '\n' ∉ "falso".toList by decide)
          | true => exact (show '\n' ∉ "verdadeiro".toList by decide)
      | int value => exact Source.newline_not_mem_of_run (Source.number_chars value).2 rfl
      | float value => exact value.newline_not_mem_written
      | text value => exact Source.newline_not_mem_quoted value
  | lookup found => simp [Source.spelling, Node.breaks, Node.names]
  | read prompt id =>
      refine Text.breaks_eq_zero ?_
      simp [Source.spelling, Source.read_eq, Source.newline_not_mem_asked]
  | operation operator id _ _ first second =>
      have symbol : Text.breaks operator.symbol = 0 := Text.breaks_eq_zero (Source.newline_not_mem_symbol operator)
      have marks : Text.breaks "(" = 0 ∧ Text.breaks " " = 0 ∧ Text.breaks ")" = 0 := ⟨rfl, rfl, rfl⟩
      simp only [Source.spelling, Text.breaks_append, first, second, symbol, marks, Node.breaks, Node.names,
        List.map_append, List.sum_append]
      omega

-- A name in a program is the name of a block on the canvas.

theorem Makes.name_mem (made : graph.Makes node) {name : String} (listed : name ∈ node.names) :
    ∃ id block, graph.get? id = some block ∧ Build.variableName block = name := by
  induction made with
  | literal id value => cases value <;> cases listed
  | lookup found => exact ⟨_, _, found, (List.mem_singleton.mp listed).symm⟩
  | read prompt id => cases listed
  | operation operator id _ _ first second =>
      rcases List.mem_append.mp listed with one | two
      · exact first one
      · exact second two

theorem States.name_mem (states : graph.States node) {name : String} (listed : name ∈ node.names) :
    ∃ id block, graph.get? id = some block ∧ Build.variableName block = name := by
  cases states with
  | write id made => exact made.name_mem listed
  | declare found => exact ⟨_, _, found, (List.mem_singleton.mp listed).symm⟩
  | start found made =>
      rcases List.mem_cons.mp listed with own | inner
      · exact ⟨_, _, found, own.symm⟩
      · exact made.name_mem inner
  | assign found made =>
      rcases List.mem_cons.mp listed with own | inner
      · exact ⟨_, _, found, own.symm⟩
      · exact made.name_mem inner
  | branch id made => exact made.name_mem listed
  | loop id made => exact made.name_mem listed

theorem Makes.isExpression (made : graph.Makes node) : node.isExpression = true := by
  induction made with
  | literal id value => exact Build.literal_isExpression id value
  | lookup found => rfl
  | read prompt id => rfl
  | operation operator id _ _ first second => rw [Node.isExpression, first, second, Bool.and_self]

theorem States.breaks_headline (states : graph.States node) : Text.breaks (Source.headline node) = node.breaks := by
  have write : Text.breaks "escreva(" = 0 ∧ Text.breaks ")" = 0 := ⟨rfl, rfl⟩
  have declare : Text.breaks "var " = 0 ∧ Text.breaks " = " = 0 := ⟨rfl, rfl⟩
  have branch : Text.breaks "se (" = 0 ∧ Text.breaks ") entao \x7b" = 0 := ⟨rfl, rfl⟩
  have loop : Text.breaks "enquanto (" = 0 ∧ Text.breaks ") faca \x7b" = 0 := ⟨rfl, rfl⟩
  cases states with
  | write id made =>
      simp only [Source.headline, Text.breaks_append, made.breaks_spelling, write, Node.breaks, Node.names]
      omega
  | declare found =>
      simp only [Source.headline, Text.breaks_append, declare, Node.breaks, Node.names, List.map_cons, List.map_nil,
        List.sum_cons, List.sum_nil]
      omega
  | start found made =>
      rw [Source.headline_declare made.isExpression]
      simp only [Text.breaks_append, made.breaks_spelling, declare, Node.breaks, Node.names, List.map_cons,
        List.sum_cons]
      omega
  | assign found made =>
      simp only [Source.headline, Text.breaks_append, made.breaks_spelling, declare, Node.breaks, Node.names,
        List.map_cons, List.sum_cons]
      omega
  | branch id made =>
      simp only [Source.headline, Text.breaks_append, made.breaks_spelling, branch, Node.breaks, Node.names]
      omega
  | loop id made =>
      simp only [Source.headline, Text.breaks_append, made.breaks_spelling, loop, Node.breaks, Node.names]
      omega

-- A statement takes one line, or three with an empty body.
theorem States.remainder (states : graph.States node) (unit : String) (level : Nat) :
    (Source.remainder unit level node).length + 1 = node.height := by
  cases states <;> rfl

theorem States.breaks_remainder (states : graph.States node) (margin : '\n' ∉ unit.toList) (level : Nat) :
    ((Source.remainder unit level node).map Text.breaks).sum = 0 := by
  have closing : Text.breaks (Source.line unit level "\x7d") = 0 := Source.breaks_line margin level _
  have remark : Text.breaks (Source.line unit (level + 1) Source.emptyBody) = 0 := by
    rw [Source.breaks_line margin]
    rfl
  cases states with
  | write id made => rfl
  | declare found => rfl
  | start found made => rfl
  | assign found made => rfl
  | branch id made =>
      simp [Source.remainder, Source.orEmptyBody, Source.listing, Source.otherwise, closing, remark]
  | loop id made =>
      simp [Source.remainder, Source.orEmptyBody, Source.listing, closing, remark]

theorem listing_length {nodes : List Node} (states : ∀ node ∈ nodes, graph.States node) (unit : String) (level : Nat) :
    (Source.listing unit level nodes).length = (nodes.map Node.height).sum := by
  induction nodes with
  | nil => rfl
  | cons node rest ih =>
      obtain ⟨first, later⟩ := List.forall_mem_cons.mp states
      have own := first.remainder unit level
      simp only [Source.listing, List.length_cons, List.length_append, List.map_cons, List.sum_cons, ih later]
      omega

theorem breaks_listing {nodes : List Node} (states : ∀ node ∈ nodes, graph.States node) (margin : '\n' ∉ unit.toList)
    (level : Nat) : ((Source.listing unit level nodes).map Text.breaks).sum = (nodes.map Node.breaks).sum := by
  induction nodes with
  | nil => rfl
  | cons node rest ih =>
      obtain ⟨first, later⟩ := List.forall_mem_cons.mp states
      have own := first.breaks_remainder margin level
      simp only [Source.listing, List.map_cons, List.map_append, List.sum_cons, List.sum_append, ih later, own,
        Source.breaks_line margin, first.breaks_headline]
      omega

theorem lineCount_page {nodes : List Node} (states : ∀ node ∈ nodes, graph.States node) (margin : '\n' ∉ unit.toList) :
    Text.lineCount ("\n".intercalate (Source.page unit nodes)) =
      4 + max 1 (nodes.map Node.height).sum + (nodes.map Node.breaks).sum := by
  have opening : Text.breaks "programa \x7b" = 0 ∧ Text.breaks "funcao inicio() \x7b" = 0 := ⟨rfl, rfl⟩
  have closing : Text.breaks "\x7d" = 0 := rfl
  have remark : Text.breaks Source.emptyProgram = 0 := rfl
  have length := listing_length states unit 2
  have inside := breaks_listing states margin 2
  rw [Text.lineCount_eq, Source.page, List.cons_append, List.cons_append, Text.breaks_intercalate]
  cases listed : Source.listing unit 2 nodes with
  | nil =>
      rw [listed] at length inside
      simp only [List.length_nil, List.map_nil, List.sum_nil] at length inside
      simp only [List.isEmpty_nil, if_true, List.map_cons, List.map_append, List.map_nil, List.sum_cons, List.sum_append,
        List.sum_nil, List.length_cons, List.length_append, List.length_nil, Source.breaks_line margin, opening, closing,
        remark, ← length, ← inside]
      omega
  | cons first rest =>
      rw [listed] at length inside
      simp only [List.length_cons, List.map_cons, List.sum_cons] at length inside
      simp only [List.isEmpty_cons, Bool.false_eq_true, if_false, List.map_cons, List.map_append, List.map_nil,
        List.sum_cons, List.sum_append, List.sum_nil, List.length_cons, List.length_append, List.length_nil,
        Source.breaks_line margin, opening, closing, ← length, ← inside]
      omega

end Graph

def plainStatements : List String := ["io.write", "var.declare", "var.set"]

def controlStatements : List String := ["control.if", "control.while"]

-- The lines that a block adds, by the id of its definition.
def lineCost (name : String) : Nat :=
  if name ∈ plainStatements then 1
  else if name ∈ controlStatements then 3
  else 0

theorem lineCost_eq (name : String) : lineCost name =
    (if name ∈ plainStatements then 1 else 0) +
      3 * (if name ∈ controlStatements then 1 else 0) := by
  unfold lineCost
  by_cases plain : name ∈ plainStatements
  · have other : name ∉ controlStatements := by
      simp only [plainStatements, List.mem_cons, List.not_mem_nil, or_false] at plain
      rcases plain with same | same | same <;> simp [same, controlStatements]
    rw [if_pos plain, if_pos plain, if_neg other]
  · rw [if_neg plain, if_neg plain]
    split <;> rfl

theorem Definition.builtin_lineCost {definition : Definition} (known : definition.Known Catalog.builtin)
    (loose : definition.isChainCapable = false) : lineCost definition.id = 0 := by
  have every : ∀ definition ∈ Catalog.builtinDefinitions, definition.isChainCapable = false →
      lineCost definition.id = 0 := by decide +kernel
  exact every definition (Catalog.mem_builtinDefinitions known) loose

def StatementForm.height : StatementForm → Nat
  | .write => 1
  | .declare => 1
  | .assign => 1
  | .branch => 3
  | .loop => 3
  | .unknown => 0

theorem StatementForm.height_of (name : String) : (StatementForm.of name).height = lineCost name := by
  unfold StatementForm.of
  repeat' split
  all_goals simp_all [height, lineCost, plainStatements, controlStatements]

def Graph.lineCostAt (graph : Graph) (id : String) : Nat :=
  (graph.definition? id).elim 0 fun definition => lineCost definition.id

namespace Build

theorem statement_height (build : String → Built Node) (graph : Graph) (id : String) (block : Block) :
    ((statement build graph id block).value.map Node.height).sum = lineCost block.definition.id := by
  rw [← StatementForm.height_of]
  unfold statement
  cases StatementForm.of block.definition.id <;> rfl

theorem statements_height (build : String → Built Node) (graph : Graph) (ids : List String) :
    ((statements build graph ids).value.map Node.height).sum = (ids.map graph.lineCostAt).sum := by
  induction ids with
  | nil => rfl
  | cons id rest ih =>
      simp only [statements, Built.value_bind, Built.value_pure, List.map_append, List.sum_append, ih,
        List.map_cons, List.sum_cons, statementAt]
      congr 1
      cases found : graph.get? id with
      | none => simp [Graph.lineCostAt, Graph.definition?, found]
      | some block =>
          rw [Graph.lineCostAt, Graph.definition?_of_get? found]
          exact statement_height build graph id block

end Build

namespace Graph
variable {graph : Graph}

-- How many blocks have one of the definitions.
def countOf (graph : Graph) (names : List String) : Nat :=
  graph.blocks.values.countP fun block => block.definition.id ∈ names

theorem sum_lineCostAt (graph : Graph) : (graph.ids.map graph.lineCostAt).sum =
    graph.countOf plainStatements + 3 * graph.countOf controlStatements := by
  have rows : graph.ids.map graph.lineCostAt = graph.blocks.rows.map fun row => lineCost row.2.definition.id := by
    rw [ids, Table.keys, Rows.keys, List.map_map]
    apply List.map_congr_left
    intro row listed
    have found : graph.get? row.1 = some row.2 := Table.mem_rows_iff.mp listed
    simp [lineCostAt, definition?_of_get? found]
  rw [rows, countOf, countOf, Table.values]
  induction graph.blocks.rows with
  | nil => rfl
  | cons row rest ih =>
      rw [List.map_cons, List.sum_cons, ih, List.map_cons, List.countP_cons, List.countP_cons, lineCost_eq]
      simp only [decide_eq_true_eq]
      omega

theorem sum_filter {count : String → Nat} {test : String → Bool} {ids : List String}
    (others : ∀ id ∈ ids, test id = false → count id = 0) :
    ((ids.filter test).map count).sum = (ids.map count).sum := by
  induction ids with
  | nil => rfl
  | cons id rest ih =>
      obtain ⟨own, later⟩ := List.forall_mem_cons.mp others
      cases held : test id with
      | true => rw [List.filter_cons_of_pos held, List.map_cons, List.sum_cons, ih later, List.map_cons, List.sum_cons]
      | false =>
          rw [List.filter_cons_of_neg (by simp [held]), ih later, List.map_cons, List.sum_cons, own held, Nat.zero_add]

-- The chains hold each block that adds a line once, and no other block adds any.
theorem Grown.sum_chained (grown : Grown Catalog.builtin graph) :
    (graph.chained.map graph.lineCostAt).sum = (graph.ids.map graph.lineCostAt).sum := by
  have same : graph.chained.Perm (graph.ids.filter fun id => (graph.definition? id).any Definition.isChainCapable) := by
    rw [List.perm_ext_iff_of_nodup grown.sequenced.chained_nodup (graph.ids_nodup.filter _)]
    intro id
    rw [grown.sequenced.mem_chained_iff, List.mem_filter, mem_ids_iff]
    constructor
    · intro standing
      obtain ⟨block, found, capable⟩ := standing
      exact ⟨⟨block, found⟩, by simp [definition?_of_get? found, capable]⟩
    · intro standing
      obtain ⟨⟨block, found⟩, capable⟩ := standing
      exact ⟨block, found, by simpa [definition?_of_get? found] using capable⟩
  rw [(same.map graph.lineCostAt).sum_eq]
  apply sum_filter
  intro id listed loose
  obtain ⟨block, found⟩ := mem_ids_iff.mp listed
  have here := definition?_of_get? found
  rw [here, Option.any_some] at loose
  rw [lineCostAt, here, Option.elim_some]
  exact Definition.builtin_lineCost (grown.known here) loose

end Graph

variable {canvas : Canvas}

-- The lines of a text are those of the statements, and one more for each newline in a name.
theorem reached_line_count {unit : String} (path : Reached Catalog.builtin canvas) (margin : '\n' ∉ unit.toList) :
    canvas.graph.Compiles unit fun compiled =>
      (canvas.graph.Builds fun program _ => Text.lineCount compiled.value.code =
        4 + max 1 (canvas.graph.countOf plainStatements + 3 * canvas.graph.countOf controlStatements) +
          (program.map Node.breaks).sum) ∧
      ((∀ id block, canvas.graph.get? id = some block → '\n' ∉ (Build.variableName block).toList) →
        Text.lineCount compiled.value.code =
          4 + max 1 (canvas.graph.countOf plainStatements + 3 * canvas.graph.countOf controlStatements)) := by
  have states := canvas.graph.program_states
  have height : (canvas.graph.program.value.map Node.height).sum =
      canvas.graph.countOf plainStatements + 3 * canvas.graph.countOf controlStatements := by
    rw [← Graph.sum_lineCostAt, ← path.grown.sum_chained]
    exact Build.statements_height _ canvas.graph _
  have lines := Graph.lineCount_page states margin
  rw [height] at lines
  refine Graph.compiles_of fun _ => ⟨Graph.builds_of lines, fun clear => ?_⟩
  have whole : (canvas.graph.program.value.map Node.breaks).sum = 0 := by
    apply List.sum_eq_zero
    intro count listed
    obtain ⟨node, member, rfl⟩ := List.mem_map.mp listed
    apply List.sum_eq_zero
    intro inner also
    obtain ⟨name, written, rfl⟩ := List.mem_map.mp also
    obtain ⟨id, block, found, rfl⟩ := (states node member).name_mem written
    exact Text.breaks_eq_zero (clear id block found)
  exact lines.trans (by rw [whole, Nat.add_zero])

-- Newlines in a text, in a prompt and around a name.
def wordyCommands : List Command :=
  [.create "io.write" none, .setValue "gen-1" "value" (.text "um\ndois"), .create "control.if" none,
    .create "var.declare" none, .setValue "gen-3" "name" (.text "\ntotal\n"), .create "io.read" none,
    .setValue "gen-4" "prompt" (.text "quanto?\n"), .connect "gen-3" "value" "gen-4"]

theorem reached_line_count_wordy :
    ∃ compiled, (Canvas.run Catalog.builtin wordyCommands).graph.compile Builder.usualRoom "\t" = .ok compiled ∧
      Text.lineCount compiled.value.code = 9 := by
  have path : Reached Catalog.builtin (Canvas.run Catalog.builtin wordyCommands) :=
    reached_run (by simp [wordyCommands, Command.Known])
  have counted := @reached_line_count _ "\t" path (by decide) Builder.usualRoom
  have compiled : (Canvas.run Catalog.builtin wordyCommands).graph.compile Builder.usualRoom "\t" = .ok _ :=
    Graph.compile_eq_ok (by cbv)
  simp only [compiled] at counted
  have plain : (Canvas.run Catalog.builtin wordyCommands).graph.countOf plainStatements = 2 := by cbv
  have control : (Canvas.run Catalog.builtin wordyCommands).graph.countOf controlStatements = 1 := by cbv
  have names : (Canvas.run Catalog.builtin wordyCommands).graph.blocks.values.map Build.variableName =
      ["variavel", "variavel", "total", "variavel"] := by cbv
  have whole : ∀ id block, (Canvas.run Catalog.builtin wordyCommands).graph.get? id = some block →
      '\n' ∉ (Build.variableName block).toList := by
    intro id block found
    have member : Build.variableName block ∈ ["variavel", "variavel", "total", "variavel"] := by
      rw [← names]
      exact List.mem_map_of_mem (Table.mem_values_iff.mpr ⟨id, found⟩)
    simp only [List.mem_cons, List.not_mem_nil, or_false] at member
    rcases member with same | same | same | same <;> rw [same] <;> decide
  refine ⟨_, compiled, ?_⟩
  rw [counted.2 whole, plain, control]
  rfl

-- A newline inside a name.
def splitNameCommands : List Command :=
  [.create "var.declare" none, .setValue "gen-1" "name" (.text "a\nb")]

theorem stored_name_breaks_line :
    '\n' ∉ "  ".toList ∧
    ∃ compiled, (Canvas.run Catalog.builtin splitNameCommands).graph.compile Builder.usualRoom "  " = .ok compiled ∧
      Text.lineCount compiled.value.code = 6 ∧
      4 + max 1 ((Canvas.run Catalog.builtin splitNameCommands).graph.countOf plainStatements +
        3 * (Canvas.run Catalog.builtin splitNameCommands).graph.countOf controlStatements) = 5 := by
  have program : (Canvas.run Catalog.builtin splitNameCommands).graph.program.value =
      [.declare "a\nb" .absent (some "gen-1")] := by cbv
  refine ⟨by decide, _, Graph.compile_eq_ok (by cbv), ?_, by cbv⟩
  dsimp only [Graph.artifact]
  rw [program]
  decide

end BlockCanvas
