import BlockCanvas.Proofs.Quoting
import BlockCanvas.Proofs.Rendering
import Mathlib
namespace BlockCanvas

namespace Text
variable {text other rest more : List Char}

theorem takeWhile_run {kind : Char → Bool} (inside : ∀ c ∈ text, kind c = true)
    (ends : ∀ c ∈ rest.head?, kind c = false) : (text ++ rest).takeWhile kind = text := by
  rw [List.takeWhile_append_of_pos inside]
  cases rest with
  | nil => simp
  | cons c rest => simp [ends c rfl]

theorem head_outside {kind : Char → Bool} {c : Char} (outside : kind c = false) :
    ∀ first ∈ (c :: rest).head?, kind first = false := by
  intro first same
  cases same
  exact outside

-- Two runs of one kind of characters, each as long as it can be, are the same run.
theorem run_told {kind : Char → Bool} (one : ∀ c ∈ text, kind c = true) (two : ∀ c ∈ other, kind c = true)
    (ends : ∀ c ∈ rest.head?, kind c = false) (endsToo : ∀ c ∈ more.head?, kind c = false)
    (same : text ++ rest = other ++ more) : text = other ∧ rest = more := by
  have equal : text = other := by rw [← takeWhile_run one ends, same, takeWhile_run two endsToo]
  subst equal
  exact ⟨rfl, List.append_cancel_left same⟩

end Text

namespace Source

-- A word of plain letters, digits and underscores.

def isWordStart (c : Char) : Bool := c.isAlpha || c = '_'

def isWordChar (c : Char) : Bool := c.isAlphanum || c = '_'

def isWord (word : String) : Bool :=
  match word.toList with
  | [] => false
  | first :: rest => isWordStart first && rest.all isWordChar

def keywords : List String :=
  ["programa", "funcao", "inicio", "var", "escreva", "leia", "se", "entao", "senao", "enquanto", "faca",
    "verdadeiro", "falso"]

def isName (name : String) : Bool := isWord name && name ∉ keywords

end Source

def LiteralType.holds : LiteralType → Value → Bool
  | .number, .int _ => true
  | .text, .text _ => true
  | .boolean, .bool _ => true
  | _, _ => false

def Operator.symbols : List String := Operator.table.map fun row => row.2.symbol

namespace Node

mutual

-- Names are names, operators are known and literals hold what their type says.
def isPlain : Node → Bool
  | .absent => true
  | .literal value type _ => type.holds value
  | .identifier name _ => Source.isName name
  | .read .. => true
  | .binary symbol left right _ => symbol ∈ Operator.symbols && left.isPlain && right.isPlain
  | .declare name initial _ => Source.isName name && initial.isPlain
  | .assign name value _ => Source.isName name && value.isPlain
  | .write value _ => value.isPlain
  | .branch condition consequent alternate _ =>
      condition.isPlain && arePlain consequent && isPlainAlternate alternate
  | .loop condition body _ => condition.isPlain && arePlain body

def arePlain : List Node → Bool
  | [] => true
  | node :: rest => node.isPlain && arePlain rest

def isPlainAlternate : Option (List Node) → Bool
  | none => true
  | some nodes => arePlain nodes

end

mutual

-- A tree without what its text does not show: where a node came from, an empty prompt and an
-- empty alternate.
def bare : Node → Node
  | .absent => .absent
  | .literal value type _ => .literal value type none
  | .identifier name _ => .identifier name none
  | .read prompt _ => .read (prompt.filter (· ≠ "")) none
  | .binary symbol left right _ => .binary symbol left.bare right.bare none
  | .declare name initial _ => .declare name initial.bare none
  | .assign name value _ => .assign name value.bare none
  | .write value _ => .write value.bare none
  | .branch condition consequent alternate _ =>
      .branch condition.bare (bareAll consequent) (bareAlternate alternate) none
  | .loop condition body _ => .loop condition.bare (bareAll body) none

def bareAll : List Node → List Node
  | [] => []
  | node :: rest => node.bare :: bareAll rest

def bareAlternate : Option (List Node) → Option (List Node)
  | none => none
  | some [] => none
  | some (node :: rest) => some (node.bare :: bareAll rest)

end

end Node

-- The plain expressions, one case for each way they start.
inductive Term : Node → Prop
  | text (value : String) (block : Option String) : Term (.literal (.text value) .text block)
  | number (value : Int) (block : Option String) : Term (.literal (.int value) .number block)
  | truth (value : Bool) (block : Option String) : Term (.literal (.bool value) .boolean block)
  | name (name : String) (block : Option String) (named : Source.isName name = true) :
      Term (.identifier name block)
  | read (prompt block : Option String) : Term (.read prompt block)
  | binary (operator : Operator) {left right : Node} (block : Option String) (first : Term left)
      (second : Term right) : Term (.binary operator.symbol left right block)

theorem Term.of {node : Node} (sorted : node.isExpression = true) (plain : node.isPlain = true) : Term node := by
  fun_induction Node.isExpression node with
  | case1 value type block =>
      cases type with
      | number =>
          cases value with
          | int value => exact .number value block
          | _ => cases plain
      | text =>
          cases value with
          | text value => exact .text value block
          | _ => cases plain
      | boolean =>
          cases value with
          | bool value => exact .truth value block
          | _ => cases plain
  | case2 name block => exact .name name block plain
  | case3 prompt block => exact .read prompt block
  | case4 symbol left right block leftIh rightIh =>
      simp only [Bool.and_eq_true] at sorted
      simp only [Node.isPlain, Bool.and_eq_true, decide_eq_true_eq, Operator.symbols, List.mem_map] at plain
      obtain ⟨⟨⟨row, _, rfl⟩, leftPlain⟩, rightPlain⟩ := plain
      exact .binary row.2 block (leftIh sorted.1 leftPlain) (rightIh sorted.2 rightPlain)
  | case5 => cases sorted

namespace Source
variable {rest more : List Char} {node : Node}

-- What follows an expression on its line.
def Ends (rest : List Char) : Prop := ∀ c ∈ rest.head?, c = ' ' ∨ c = ')'

theorem Ends.outside {kind : Char → Bool} (ends : Ends rest) (blank : kind ' ' = false) (closing : kind ')' = false) :
    ∀ c ∈ rest.head?, kind c = false := by
  intro c first
  rcases ends c first with rfl | rfl
  · exact blank
  · exact closing

theorem Ends.nil : Ends [] := by
  intro c first
  cases first

theorem Ends.blank (rest : List Char) : Ends (' ' :: rest) := by
  intro c first
  cases first
  exact .inl rfl

theorem Ends.closing (rest : List Char) : Ends (')' :: rest) := by
  intro c first
  cases first
  exact .inr rfl

theorem isWordChar_of_isWordStart {c : Char} (start : isWordStart c = true) : isWordChar c = true := by
  simp only [isWordStart, isWordChar, Char.isAlphanum, Bool.or_eq_true] at start ⊢
  exact start.imp_left Or.inl

theorem isWord_iff {word : String} :
    isWord word = true ↔ ∃ first tail, word.toList = first :: tail ∧ isWordStart first = true ∧
      ∀ c ∈ tail, isWordChar c = true := by
  unfold isWord
  split
  · rename_i empty
    simp [empty]
  · rename_i first tail chars
    simp [chars]

theorem isWordChar_of_isWord {word : String} (plain : isWord word = true) : ∀ c ∈ word.toList, isWordChar c = true := by
  obtain ⟨first, tail, chars, start, inside⟩ := isWord_iff.mp plain
  rw [chars]
  intro c member
  rcases List.mem_cons.mp member with rfl | later
  · exact isWordChar_of_isWordStart start
  · exact inside c later

theorem isWord_of_isName {name : String} (named : isName name = true) : isWord name = true :=
  (Bool.and_eq_true_iff.mp named).1

theorem isWordChar_of_isName {name : String} (named : isName name = true) : ∀ c ∈ name.toList, isWordChar c = true :=
  isWordChar_of_isWord (isWord_of_isName named)

def isNumeral (c : Char) : Bool := c.isDigit || c = '-'

theorem number_chars (value : Int) :
    (toString value).toList ≠ [] ∧ ∀ c ∈ (toString value).toList, isNumeral c = true := by
  have digit : ∀ (n : Nat), ∀ c ∈ Nat.toDigits 10 n, isNumeral c = true := by
    intro n c member
    simp [isNumeral, Nat.isDigit_of_mem_toDigits (by decide) (by decide) member]
  cases value with
  | ofNat n =>
      have chars : (toString (Int.ofNat n)).toList = Nat.toDigits 10 n := Nat.toList_repr
      rw [chars]
      exact ⟨Nat.toDigits_ne_nil, digit n⟩
  | negSucc n =>
      have chars : (toString (Int.negSucc n)).toList = '-' :: Nat.toDigits 10 (n + 1) := by
        change ("-" ++ Nat.repr (n + 1)).toList = _
        rw [String.toList_append, Nat.toList_repr]
        rfl
      rw [chars]
      refine ⟨List.cons_ne_nil _ _, ?_⟩
      intro c member
      rcases List.mem_cons.mp member with rfl | later
      · rfl
      · exact digit _ c later

theorem isWordStart_of_isNumeral {c : Char} (numeral : isNumeral c = true) : isWordStart c = false := by
  simp only [isNumeral, Bool.or_eq_true, decide_eq_true_eq] at numeral
  rcases numeral with digit | rfl
  · have underscore : c ≠ '_' := by
      rintro rfl
      cases digit
    simp only [isWordStart, underscore, decide_false, Bool.or_false]
    simp only [Char.isDigit, Char.isAlpha, Char.isUpper, Char.isLower, Bool.and_eq_true, decide_eq_true_eq,
      Bool.or_eq_false_iff, Bool.and_eq_false_iff, decide_eq_false_iff_not, ge_iff_le, UInt32.le_iff_toNat_le] at digit ⊢
    have zero : '0'.val.toNat = 48 := rfl
    have nine : '9'.val.toNat = 57 := rfl
    have upper : 'A'.val.toNat = 65 := rfl
    have lower : 'a'.val.toNat = 97 := rfl
    omega
  · rfl

theorem toList_quoted (text : String) (rest : List Char) :
    (Text.quoted text).toList ++ rest = '"' :: (Text.escapeChars text.toList ++ '"' :: rest) := by
  simp [Text.quoted, Text.escape]

-- What stands between the brackets of a reading.
def asked (prompt : Option String) : String := (prompt.filter (· ≠ "")).elim "" Text.quoted

theorem read_eq (prompt : Option String) : read prompt = "leia(" ++ asked prompt ++ ")" := by
  unfold read
  split
  · rfl
  · rfl
  · rename_i text filled
    have nonempty : text ≠ "" := filled
    simp [asked, Option.filter, nonempty]

theorem toList_read (prompt block : Option String) (rest : List Char) :
    (spelling (.read prompt block)).toList ++ rest =
      "leia".toList ++ '(' :: ((asked prompt).toList ++ ')' :: rest) := by
  simp [spelling, read_eq]

theorem toList_binary (symbol : String) (left right : Node) (block : Option String) (rest : List Char) :
    (spelling (.binary symbol left right block)).toList ++ rest =
      '(' :: ((spelling left).toList ++ ' ' :: (symbol.toList ++ ' ' :: ((spelling right).toList ++ ')' :: rest))) := by
  simp [spelling]

end Source

-- How a piece of source text starts. This alone tells apart every two kinds of expressions, of
-- statements and of lines.
inductive Opening where
  | quote
  | bracket
  | closer
  | comment
  | call
  | truth (value : Bool)
  | number
  | name
  | write
  | declare
  | branch
  | loop
deriving DecidableEq

namespace Opening

def ofWord (word : String) : Opening :=
  if word = "leia" then .call
  else if word = "verdadeiro" then .truth true
  else if word = "falso" then .truth false
  else if word = "escreva" then .write
  else if word = "var" then .declare
  else if word = "se" then .branch
  else if word = "enquanto" then .loop
  else .name

def of : List Char → Opening
  | [] => .number
  | first :: rest =>
      if first = '"' then .quote
      else if first = '(' then .bracket
      else if first = '\x7d' then .closer
      else if first = '/' then .comment
      else if Source.isWordStart first then
        ofWord (String.ofList ((first :: rest).takeWhile Source.isWordChar))
      else .number

end Opening

-- How the text of a node starts.
def Node.opening : Node → Opening
  | .literal (.text _) .. => .quote
  | .literal (.bool value) .. => .truth value
  | .identifier .. => .name
  | .read .. => .call
  | .binary .. => .bracket
  | .declare .. => .declare
  | .assign .. => .name
  | .write .. => .write
  | .branch .. => .branch
  | .loop .. => .loop
  | _ => .number

namespace Opening
variable {rest : List Char}

theorem ofWord_name {name : String} (named : Source.isName name = true) : ofWord name = .name := by
  simp only [Source.isName, Source.keywords, Bool.and_eq_true, decide_eq_true_eq, List.mem_cons, not_or] at named
  simp [ofWord, named]

theorem of_word {word : String} (plain : Source.isWord word = true)
    (ends : ∀ c ∈ rest.head?, Source.isWordChar c = false) : of (word.toList ++ rest) = ofWord word := by
  obtain ⟨first, tail, chars, start, _⟩ := Source.isWord_iff.mp plain
  have whole := Text.takeWhile_run (Source.isWordChar_of_isWord plain) ends
  have other : ∀ c, Source.isWordStart c = false → first ≠ c := by
    rintro c outside rfl
    rw [start] at outside
    cases outside
  rw [chars, List.cons_append] at whole ⊢
  rw [of, if_neg (other _ rfl), if_neg (other _ rfl), if_neg (other _ rfl), if_neg (other _ rfl), if_pos start, whole,
    ← chars, String.ofList_toList]

theorem of_number (value : Int) : of ((toString value).toList ++ rest) = .number := by
  obtain ⟨filled, inside⟩ := Source.number_chars value
  obtain ⟨first, tail, chars⟩ := List.exists_cons_of_ne_nil filled
  have numeral : Source.isNumeral first = true := inside first (chars ▸ List.mem_cons_self)
  have other : ∀ c, Source.isNumeral c = false → first ≠ c := by
    rintro c outside rfl
    rw [numeral] at outside
    cases outside
  rw [chars, List.cons_append, of, if_neg (other _ rfl), if_neg (other _ rfl), if_neg (other _ rfl), if_neg (other _ rfl),
    Source.isWordStart_of_isNumeral numeral]
  rfl

end Opening

namespace Source
variable {rest more : List Char} {node left right : Node}

theorem opening_spelling (term : Term node) (ends : Ends rest) :
    Opening.of ((spelling node).toList ++ rest) = node.opening := by
  have outside : ∀ c ∈ rest.head?, isWordChar c = false := ends.outside rfl rfl
  cases term with
  | text value block => exact congrArg Opening.of (toList_quoted value rest)
  | number value block => exact Opening.of_number value
  | truth value block =>
      cases value with
      | true => exact Opening.of_word (show isWord "verdadeiro" = true by decide) outside
      | false => exact Opening.of_word (show isWord "falso" = true by decide) outside
  | name name block named =>
      exact (Opening.of_word (isWord_of_isName named) outside).trans (Opening.ofWord_name named)
  | read prompt block =>
      rw [toList_read]
      exact Opening.of_word (show isWord "leia" = true by decide) (Text.head_outside rfl)
  | binary operator block first second => exact congrArg Opening.of (toList_binary _ _ _ _ rest)

theorem asked_told {prompt other : Option String}
    (same : (asked prompt).toList ++ ')' :: rest = (asked other).toList ++ ')' :: more) :
    prompt.filter (· ≠ "") = other.filter (· ≠ "") ∧ rest = more := by
  unfold asked at same
  cases one : prompt.filter (· ≠ "") with
  | none =>
      cases two : other.filter (· ≠ "") with
      | none =>
          rw [one, two] at same
          exact ⟨rfl, (List.cons.inj same).2⟩
      | some text =>
          rw [one, two, Option.elim_some, toList_quoted] at same
          cases (List.cons.inj same).1
  | some text =>
      cases two : other.filter (· ≠ "") with
      | none =>
          rw [one, two, Option.elim_some, toList_quoted] at same
          cases (List.cons.inj same).1
      | some read =>
          rw [one, two, Option.elim_some, Option.elim_some, toList_quoted, toList_quoted] at same
          obtain ⟨chars, tail⟩ := Text.escapeChars_told (List.cons.inj same).2
          exact ⟨congrArg some (String.toList_inj.mp chars), (List.cons.inj tail).2⟩

theorem blank_not_mem_symbol (operator : Operator) : ∀ c ∈ operator.symbol.toList, decide (c ≠ ' ') = true := by
  cases operator <;> simp [Operator.symbol]

theorem named_told {name other : String} (named : isName name = true)
    (namedToo : isName other = true) (ends : Ends rest) (endsToo : Ends more)
    (same : name.toList ++ rest = other.toList ++ more) : name = other ∧ rest = more := by
  obtain ⟨chars, tail⟩ := Text.run_told (isWordChar_of_isName named) (isWordChar_of_isName namedToo)
    (ends.outside rfl rfl) (endsToo.outside rfl rfl) same
  exact ⟨String.toList_inj.mp chars, tail⟩

theorem opening_told (one : Term left) (two : Term right) (ends : Ends rest) (endsToo : Ends more)
    (same : (spelling left).toList ++ rest = (spelling right).toList ++ more) : left.opening = right.opening := by
  rw [← opening_spelling one ends, same, opening_spelling two endsToo]

-- An expression is told from its text, whatever follows on the line: the way both texts start leaves
-- only the case of the same kind, and there the parts are read off from left to right.
theorem spelling_told (one : Term left) (two : Term right) (ends : Ends rest) (endsToo : Ends more)
    (same : (spelling left).toList ++ rest = (spelling right).toList ++ more) :
    left.bare = right.bare ∧ rest = more := by
  induction one generalizing right rest more with
  | text value block =>
      have kind := opening_told (.text value block) two ends endsToo same
      cases two with
      | text other origin =>
          rw [spelling, spelling, literalText, literalText, toList_quoted, toList_quoted] at same
          obtain ⟨chars, tail⟩ := Text.escapeChars_told (List.cons.inj same).2
          cases String.toList_inj.mp chars
          exact ⟨rfl, tail⟩
      | _ => cases kind
  | number value block =>
      have kind := opening_told (.number value block) two ends endsToo same
      cases two with
      | number other origin =>
          obtain ⟨chars, tail⟩ := Text.run_told (number_chars value).2 (number_chars other).2
            (ends.outside rfl rfl) (endsToo.outside rfl rfl) same
          cases Int.repr_inj.mp (String.toList_inj.mp chars)
          exact ⟨rfl, tail⟩
      | _ => cases kind
  | truth value block =>
      have kind := opening_told (.truth value block) two ends endsToo same
      cases two with
      | truth other origin =>
          cases kind
          exact ⟨rfl, List.append_cancel_left same⟩
      | _ => cases kind
  | name name block named =>
      have kind := opening_told (.name name block named) two ends endsToo same
      cases two with
      | name other origin namedToo =>
          obtain ⟨rfl, tail⟩ := named_told named namedToo ends endsToo same
          exact ⟨rfl, tail⟩
      | _ => cases kind
  | read prompt block =>
      have kind := opening_told (.read prompt block) two ends endsToo same
      cases two with
      | read other origin =>
          rw [toList_read, toList_read] at same
          obtain ⟨prompts, tail⟩ := asked_told (List.cons.inj (List.append_cancel_left same)).2
          rw [Node.bare, Node.bare, prompts]
          exact ⟨rfl, tail⟩
      | _ => cases kind
  | binary operator block first second firstIh secondIh =>
      have kind := opening_told (.binary operator block first second) two ends endsToo same
      cases two with
      | binary other origin firstToo secondToo =>
          rw [toList_binary, toList_binary] at same
          obtain ⟨firstSame, afterFirst⟩ := firstIh firstToo (.blank _) (.blank _) (List.cons.inj same).2
          obtain ⟨symbols, afterSymbol⟩ := Text.run_told (blank_not_mem_symbol operator) (blank_not_mem_symbol other)
            (Text.head_outside rfl) (Text.head_outside rfl) (List.cons.inj afterFirst).2
          obtain ⟨secondSame, afterSecond⟩ :=
            secondIh secondToo (.closing _) (.closing _) (List.cons.inj afterSymbol).2
          rw [Node.bare, Node.bare, firstSame, secondSame, String.toList_inj.mp symbols]
          exact ⟨rfl, (List.cons.inj afterSecond).2⟩
      | _ => cases kind

theorem spelling_told_whole (one : Term left) (two : Term right)
    (same : (spelling left).toList = (spelling right).toList) : left.bare = right.bare := by
  rw [← List.append_nil (spelling left).toList, ← List.append_nil (spelling right).toList] at same
  exact (spelling_told one two .nil .nil same).1

theorem newline_not_mem_of_run {kind : Char → Bool} {text : List Char} (inside : ∀ c ∈ text, kind c = true)
    (outside : kind '\n' = false) : '\n' ∉ text := by
  intro member
  rw [inside _ member] at outside
  cases outside

theorem newline_not_mem_quoted (text : String) : '\n' ∉ (Text.quoted text).toList := by
  simp [Text.quoted, Text.escape, Text.newline_not_mem_escapeChars]

theorem newline_not_mem_asked (prompt : Option String) : '\n' ∉ (asked prompt).toList := by
  unfold asked
  cases prompt.filter (· ≠ "") with
  | none => simp
  | some text => exact newline_not_mem_quoted text

theorem newline_not_mem_symbol (operator : Operator) : '\n' ∉ operator.symbol.toList := by
  cases operator <;> decide

theorem newline_not_mem_spelling (term : Term node) : '\n' ∉ (spelling node).toList := by
  induction term with
  | text value block => exact newline_not_mem_quoted value
  | number value block => exact newline_not_mem_of_run (number_chars value).2 rfl
  | truth value block =>
      cases value with
      | true => exact newline_not_mem_of_run (isWordChar_of_isWord (show isWord "verdadeiro" = true by decide)) rfl
      | false => exact newline_not_mem_of_run (isWordChar_of_isWord (show isWord "falso" = true by decide)) rfl
  | name name block named =>
      exact newline_not_mem_of_run (isWordChar_of_isName named) rfl
  | read prompt block =>
      simp [spelling, read_eq, newline_not_mem_asked]
  | binary operator block first second firstIh secondIh =>
      simp [spelling, firstIh, secondIh, newline_not_mem_symbol]

-- What a bare tree lacks is not written.
theorem spelling_bare : ∀ node : Node, spelling node.bare = spelling node
  | .absent => rfl
  | .literal .. => rfl
  | .identifier .. => rfl
  | .read prompt block => by simp [Node.bare, spelling, read_eq, asked]
  | .binary symbol left right block => by
      rw [Node.bare, spelling, spelling, spelling_bare left, spelling_bare right]
  | .declare .. => rfl
  | .assign .. => rfl
  | .write .. => rfl
  | .branch .. => rfl
  | .loop .. => rfl

end Source
end BlockCanvas
