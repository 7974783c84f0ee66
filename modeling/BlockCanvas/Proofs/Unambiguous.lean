import BlockCanvas.Proofs.Spelling
namespace BlockCanvas

mutual

-- The plain statements, one case for each line they start with.
inductive Clause : Node → Prop
  | write {value : Node} (block : Option String) (written : Term value) : Clause (.write value block)
  | declare (name : String) (block : Option String) (named : Source.isName name = true) :
      Clause (.declare name .absent block)
  | start (name : String) {initial : Node} (block : Option String) (named : Source.isName name = true)
      (written : Term initial) : Clause (.declare name initial block)
  | assign (name : String) {value : Node} (block : Option String) (named : Source.isName name = true)
      (written : Term value) : Clause (.assign name value block)
  | branch {condition : Node} {consequent : List Node} {alternate : Option (List Node)} (block : Option String)
      (written : Term condition) (inner : Clauses consequent) (other : Alternate alternate) :
      Clause (.branch condition consequent alternate block)
  | loop {condition : Node} {body : List Node} (block : Option String) (written : Term condition)
      (inner : Clauses body) : Clause (.loop condition body block)

inductive Clauses : List Node → Prop
  | nil : Clauses []
  | cons {node : Node} {rest : List Node} (first : Clause node) (later : Clauses rest) : Clauses (node :: rest)

inductive Alternate : Option (List Node) → Prop
  | none : Alternate none
  | empty : Alternate (some [])
  | some {node : Node} {rest : List Node} (inner : Clauses (node :: rest)) : Alternate (some (node :: rest))

end

mutual

theorem Clause.of : ∀ {node : Node}, node.isStatement = true → node.isPlain = true → Clause node
  | .absent, sorted, _ => by cases sorted
  | .literal .., sorted, _ => by cases sorted
  | .identifier .., sorted, _ => by cases sorted
  | .read .., sorted, _ => by cases sorted
  | .binary .., sorted, _ => by cases sorted
  | .declare name initial block, sorted, plain => by
      simp only [Node.isPlain, Bool.and_eq_true] at plain
      by_cases nothing : initial = .absent
      · subst nothing
        exact .declare name block plain.1
      · rw [Node.isStatement, Node.isInitial] at sorted
        · exact .start name block plain.1 (.of sorted plain.2)
        · exact nothing
  | .assign name value block, sorted, plain => by
      simp only [Node.isPlain, Bool.and_eq_true] at plain
      exact .assign name block plain.1 (.of sorted plain.2)
  | .write value block, sorted, plain => .write block (.of sorted plain)
  | .branch condition consequent alternate block, sorted, plain => by
      simp only [Node.isStatement, Bool.and_eq_true] at sorted
      simp only [Node.isPlain, Bool.and_eq_true] at plain
      exact .branch block (.of sorted.1.1 plain.1.1) (Clauses.of sorted.1.2 plain.1.2) (Alternate.of sorted.2 plain.2)
  | .loop condition body block, sorted, plain => by
      simp only [Node.isStatement, Bool.and_eq_true] at sorted
      simp only [Node.isPlain, Bool.and_eq_true] at plain
      exact .loop block (.of sorted.1 plain.1) (Clauses.of sorted.2 plain.2)

theorem Clauses.of : ∀ {nodes : List Node}, Node.areStatements nodes = true → Node.arePlain nodes = true →
    Clauses nodes
  | [], _, _ => .nil
  | node :: rest, sorted, plain => by
      simp only [Node.areStatements, Bool.and_eq_true] at sorted
      simp only [Node.arePlain, Bool.and_eq_true] at plain
      exact .cons (Clause.of sorted.1 plain.1) (Clauses.of sorted.2 plain.2)

theorem Alternate.of : ∀ {alternate : Option (List Node)}, Node.isAlternate alternate = true →
    Node.isPlainAlternate alternate = true → Alternate alternate
  | none, _, _ => .none
  | some [], _, _ => .empty
  | some (_ :: _), sorted, plain => .some (Clauses.of sorted plain)

end

-- A statement without its bodies, as its first line shows it.
def Node.head : Node → Node
  | .branch condition _ _ _ => .branch condition.bare [] none none
  | .loop condition _ _ => .loop condition.bare [] none
  | node => node.bare

namespace Source
variable {unit : String} {level : Nat} {node left right : Node}

theorem toList_write (value : Node) (block : Option String) :
    (headline (.write value block)).toList = "escreva".toList ++ '(' :: ((spelling value).toList ++ [')']) := by
  simp [headline]

theorem toList_declare (name : String) (block : Option String) :
    (headline (.declare name .absent block)).toList = "var".toList ++ ' ' :: name.toList := by
  simp [headline]

theorem toList_start (name : String) {initial : Node} (block : Option String) (written : Term initial) :
    (headline (.declare name initial block)).toList =
      "var".toList ++ ' ' :: (name.toList ++ ' ' :: '=' :: ' ' :: (spelling initial).toList) := by
  have present : initial ≠ .absent := by
    rintro rfl
    cases written
  rw [headline]
  · simp
  · exact present

theorem toList_assign (name : String) (value : Node) (block : Option String) :
    (headline (.assign name value block)).toList = name.toList ++ ' ' :: '=' :: ' ' :: (spelling value).toList := by
  simp [headline]

theorem toList_branch (condition : Node) (consequent : List Node) (alternate : Option (List Node))
    (block : Option String) : (headline (.branch condition consequent alternate block)).toList =
      "se".toList ++ ' ' :: '(' :: ((spelling condition).toList ++ ')' :: " entao \x7b".toList) := by
  simp [headline]

theorem toList_loop (condition : Node) (body : List Node) (block : Option String) :
    (headline (.loop condition body block)).toList =
      "enquanto".toList ++ ' ' :: '(' :: ((spelling condition).toList ++ ')' :: " faca \x7b".toList) := by
  simp [headline]

-- Every statement starts with a word, which says what kind of statement it is.
theorem headline_word (clause : Clause node) : ∃ word rest, (headline node).toList = word.toList ++ rest ∧
    isWord word = true ∧ (∀ c ∈ rest.head?, isWordChar c = false) ∧ Opening.ofWord word = node.opening := by
  cases clause with
  | write block written => exact ⟨_, _, toList_write _ block, by decide, Text.head_outside rfl, rfl⟩
  | declare name block named => exact ⟨_, _, toList_declare name block, by decide, Text.head_outside rfl, rfl⟩
  | start name block named written =>
      exact ⟨_, _, toList_start name block written, by decide, Text.head_outside rfl, rfl⟩
  | assign name block named written =>
      exact ⟨_, _, toList_assign name _ block, isWord_of_isName named, Text.head_outside rfl,
        Opening.ofWord_name named⟩
  | branch block written inner other => exact ⟨_, _, toList_branch _ _ _ block, by decide, Text.head_outside rfl, rfl⟩
  | loop block written inner => exact ⟨_, _, toList_loop _ _ block, by decide, Text.head_outside rfl, rfl⟩

theorem opening_headline (clause : Clause node) : Opening.of (headline node).toList = node.opening := by
  obtain ⟨word, rest, chars, plain, ends, kind⟩ := headline_word clause
  rw [chars, Opening.of_word plain ends, kind]

theorem headline_told (one : Clause left) (two : Clause right) (same : headline left = headline right) :
    left.head = right.head := by
  have kind : left.opening = right.opening := by rw [← opening_headline one, same, opening_headline two]
  replace same := congrArg String.toList same
  cases one with
  | write block written =>
      cases two with
      | write origin writtenToo =>
          rw [toList_write, toList_write] at same
          obtain ⟨inner, _⟩ := spelling_told written writtenToo (.closing _) (.closing _)
            (List.cons.inj (List.append_cancel_left same)).2
          exact congrArg (Node.write · none) inner
      | _ => cases kind
  | declare name block named =>
      cases two with
      | declare other origin namedToo =>
          rw [toList_declare, toList_declare] at same
          cases String.toList_inj.mp (List.cons.inj (List.append_cancel_left same)).2
          rfl
      | start other origin namedToo writtenToo =>
          rw [toList_declare, toList_start other origin writtenToo, ← List.append_nil name.toList] at same
          obtain ⟨_, tail⟩ := named_told named namedToo .nil (.blank _) (List.cons.inj (List.append_cancel_left same)).2
          cases tail
      | _ => cases kind
  | start name block named written =>
      cases two with
      | declare other origin namedToo =>
          rw [toList_declare, toList_start name block written, ← List.append_nil other.toList] at same
          obtain ⟨_, tail⟩ := named_told named namedToo (.blank _) .nil (List.cons.inj (List.append_cancel_left same)).2
          cases tail
      | start other origin namedToo writtenToo =>
          rw [toList_start name block written, toList_start other origin writtenToo] at same
          obtain ⟨rfl, tail⟩ := named_told named namedToo (.blank _) (.blank _)
            (List.cons.inj (List.append_cancel_left same)).2
          simp only [List.cons.injEq, true_and] at tail
          exact congrArg (Node.declare name · none) (spelling_told_whole written writtenToo tail)
      | _ => cases kind
  | assign name block named written =>
      cases two with
      | assign other origin namedToo writtenToo =>
          rw [toList_assign, toList_assign] at same
          obtain ⟨rfl, tail⟩ := named_told named namedToo (.blank _) (.blank _) same
          simp only [List.cons.injEq, true_and] at tail
          exact congrArg (Node.assign name · none) (spelling_told_whole written writtenToo tail)
      | _ => cases kind
  | branch block written inner other =>
      cases two with
      | branch origin writtenToo innerToo otherToo =>
          rw [toList_branch, toList_branch] at same
          have inside := List.append_cancel_left same
          simp only [List.cons.injEq, true_and] at inside
          obtain ⟨test, _⟩ := spelling_told written writtenToo (.closing _) (.closing _) inside
          exact congrArg (Node.branch · [] none none) test
      | _ => cases kind
  | loop block written inner =>
      cases two with
      | loop origin writtenToo innerToo =>
          rw [toList_loop, toList_loop] at same
          have inside := List.append_cancel_left same
          simp only [List.cons.injEq, true_and] at inside
          obtain ⟨test, _⟩ := spelling_told written writtenToo (.closing _) (.closing _) inside
          exact congrArg (Node.loop · [] none) test
      | _ => cases kind

-- How a line starts once its margin is off.

def isMargin (c : Char) : Bool := c = ' ' || c = '\t'

def mark (line : String) : Opening := Opening.of (line.toList.dropWhile isMargin)

theorem isMargin_of_isWordStart {c : Char} (start : isWordStart c = true) : isMargin c = false := by
  simp only [isMargin, Bool.or_eq_false_iff, decide_eq_false_iff_not]
  constructor
  · rintro rfl
    cases start
  · rintro rfl
    cases start

section Margin
variable (blank : ∀ c ∈ unit.toList, isMargin c = true)
include blank

theorem margin_chars : ∀ c ∈ (String.join (List.replicate level unit)).toList, isMargin c = true := by
  intro c member
  rw [String.toList_join, List.mem_flatMap] at member
  obtain ⟨copy, listed, inside⟩ := member
  rw [List.eq_of_mem_replicate listed] at inside
  exact blank c inside

theorem mark_line {text : String} (starts : ∀ c ∈ text.toList.head?, isMargin c = false) :
    mark (line unit level text) = Opening.of text.toList := by
  rw [mark, line, String.toList_append, List.dropWhile_append_of_pos (margin_chars blank)]
  cases chars : text.toList with
  | nil => rfl
  | cons c rest =>
      rw [chars] at starts
      rw [List.dropWhile_cons_of_neg (by simp [starts c rfl])]

theorem mark_headline (clause : Clause node) : mark (line unit level (headline node)) = node.opening := by
  rw [mark_line blank, opening_headline clause]
  obtain ⟨word, rest, chars, plain, _⟩ := headline_word clause
  obtain ⟨first, tail, letters, start, _⟩ := isWord_iff.mp plain
  rw [chars, letters]
  exact Text.head_outside (isMargin_of_isWordStart start)

-- A statement is neither a comment nor the end of a body.
theorem headline_ne {shown : String} (clause : Clause node) (other : mark shown = .comment ∨ mark shown = .closer) :
    line unit level (headline node) ≠ shown := by
  rintro rfl
  rw [mark_headline blank clause] at other
  cases clause with
  | _ => rcases other with kind | kind <;> cases kind

theorem mark_closer : mark (line unit level "\x7d") = .closer :=
  mark_line blank (Text.head_outside rfl)

theorem mark_emptyBody : mark (line unit level emptyBody) = .comment :=
  mark_line blank (Text.head_outside rfl)

theorem mark_senao : mark (line unit level "\x7d senao \x7b") = .closer :=
  mark_line blank (Text.head_outside rfl)

end Margin

-- What follows a body. Margins may be empty, so it is the closing line and not its depth that ends one.
def Closes (lines : List String) : Prop := ∀ line ∈ lines.head?, mark line = .closer

-- A body, or the comment that stands for an empty one.
def filled (comment : String) (lines : List String) : List String :=
  if lines.isEmpty then [comment] else lines

theorem orEmptyBody_eq (lines : List String) :
    orEmptyBody unit level lines = filled (line unit level emptyBody) lines := by
  cases lines with
  | nil => rfl
  | cons first rest => rfl

theorem closer_ne_senao (unit : String) (level : Nat) :
    line unit level "\x7d" ≠ line unit level "\x7d senao \x7b" := by
  intro same
  exact absurd ((String.append_right_inj _).mp same) (by decide)

section Told
variable (blank : ∀ c ∈ unit.toList, isMargin c = true)
include blank

-- Reading the statements back is handed in as told: the induction below calls this lemma for its bodies.
theorem filled_told {comment : String} (remark : mark comment = .comment) {left right : List Node}
    {rest more : List String} (one : Clauses left) (two : Clauses right)
    (told : listing unit level left ++ rest = listing unit level right ++ more →
      Node.bareAll left = Node.bareAll right ∧ rest = more)
    (same : filled comment (listing unit level left) ++ rest = filled comment (listing unit level right) ++ more) :
    Node.bareAll left = Node.bareAll right ∧ rest = more := by
  cases one with
  | nil =>
      cases two with
      | nil => exact ⟨rfl, (List.cons.inj same).2⟩
      | cons first later => exact absurd (List.cons.inj same).1.symm (headline_ne blank first (.inl remark))
  | cons first later =>
      cases two with
      | nil => exact absurd (List.cons.inj same).1 (headline_ne blank first (.inl remark))
      | cons firstToo laterToo => exact told same

theorem closes_closer (rest : List String) : Closes (line unit level "\x7d" :: rest) := by
  intro first same
  cases same
  exact mark_closer blank

theorem closes_otherwise (alternate : Option (List Node)) (rest : List String) :
    Closes (otherwise unit level alternate ++ line unit level "\x7d" :: rest) := by
  match alternate with
  | none => exact closes_closer blank rest
  | some [] => exact closes_closer blank rest
  | some (node :: nodes) =>
      intro first same
      cases same
      exact mark_senao blank

mutual

theorem remainder_told (level : Nat) {left right : Node} (one : Clause left) (two : Clause right)
    (heads : left.head = right.head) {rest more : List String}
    (same : remainder unit level left ++ rest = remainder unit level right ++ more) :
    left.bare = right.bare ∧ rest = more := by
  cases one with
  | branch block written inner other =>
      cases two with
      | branch origin writtenToo innerToo otherToo =>
          simp only [remainder, orEmptyBody_eq, List.append_assoc, List.singleton_append] at same
          obtain ⟨body, later⟩ := filled_told blank (mark_emptyBody blank) inner innerToo
            (listing_told (level + 1) inner innerToo (closes_otherwise blank _ _) (closes_otherwise blank _ _)) same
          obtain ⟨alternate, tail⟩ := otherwise_told level other otherToo later
          injection heads with test
          rw [Node.bare, Node.bare, test, body, alternate]
          exact ⟨rfl, tail⟩
      | _ => cases heads
  | loop block written inner =>
      cases two with
      | loop origin writtenToo innerToo =>
          simp only [remainder, orEmptyBody_eq, List.append_assoc, List.singleton_append] at same
          obtain ⟨body, tail⟩ := filled_told blank (mark_emptyBody blank) inner innerToo
            (listing_told (level + 1) inner innerToo (closes_closer blank _) (closes_closer blank _)) same
          injection heads with test
          rw [Node.bare, Node.bare, test, body]
          exact ⟨rfl, (List.cons.inj tail).2⟩
      | _ => cases heads
  | _ =>
      cases two with
      | branch => cases heads
      | loop => cases heads
      | _ => exact ⟨heads, same⟩

theorem listing_told (level : Nat) {left right : List Node} (one : Clauses left) (two : Clauses right)
    {rest more : List String} (closes : Closes rest) (closesToo : Closes more)
    (same : listing unit level left ++ rest = listing unit level right ++ more) :
    Node.bareAll left = Node.bareAll right ∧ rest = more := by
  cases one with
  | nil =>
      cases two with
      | nil => exact ⟨rfl, same⟩
      | cons first later =>
          change rest = _ :: _ at same
          subst same
          exact absurd rfl (headline_ne blank first (.inr (closes _ rfl)))
  | cons first later =>
      cases two with
      | nil =>
          change _ :: _ = more at same
          subst same
          exact absurd rfl (headline_ne blank first (.inr (closesToo _ rfl)))
      | cons firstToo laterToo =>
          simp only [listing, List.cons_append, List.append_assoc, List.cons.injEq] at same
          have heads := headline_told first firstToo ((String.append_right_inj _).mp same.1)
          obtain ⟨node, after⟩ := remainder_told level first firstToo heads same.2
          obtain ⟨nodes, tail⟩ := listing_told level later laterToo closes closesToo after
          rw [Node.bareAll, Node.bareAll, node, nodes]
          exact ⟨rfl, tail⟩

theorem otherwise_told (level : Nat) {left right : Option (List Node)} (one : Alternate left) (two : Alternate right)
    {rest more : List String}
    (same : otherwise unit level left ++ line unit level "\x7d" :: rest =
      otherwise unit level right ++ line unit level "\x7d" :: more) :
    Node.bareAlternate left = Node.bareAlternate right ∧ rest = more := by
  cases one with
  | some inner =>
      cases two with
      | some innerToo =>
          simp only [otherwise, orEmptyBody_eq, List.cons_append, List.cons.injEq, true_and] at same
          obtain ⟨body, tail⟩ := filled_told blank (mark_emptyBody blank) inner innerToo
            (listing_told (level + 1) inner innerToo (closes_closer blank _) (closes_closer blank _)) same
          exact ⟨congrArg some body, (List.cons.inj tail).2⟩
      | _ => exact absurd (List.cons.inj same).1.symm (closer_ne_senao unit level)
  | _ =>
      cases two with
      | some innerToo => exact absurd (List.cons.inj same).1 (closer_ne_senao unit level)
      | _ => exact ⟨rfl, (List.cons.inj same).2⟩

end

end Told

-- Lines without a newline inside, so that a text falls back into them.
def Unbroken (lines : List String) : Prop := ∀ text ∈ lines, '\n' ∉ text.toList

theorem unbroken_cons {text : String} {lines : List String} :
    Unbroken (text :: lines) ↔ '\n' ∉ text.toList ∧ Unbroken lines := List.forall_mem_cons

theorem unbroken_append {first second : List String} : Unbroken (first ++ second) ↔ Unbroken first ∧ Unbroken second :=
  List.forall_mem_append

theorem newline_not_mem_headline (clause : Clause node) : '\n' ∉ (headline node).toList := by
  have inName : ∀ {name : String}, isName name = true → '\n' ∉ name.toList := fun named =>
    newline_not_mem_of_run (isWordChar_of_isName named) rfl
  cases clause with
  | write block written => simp [toList_write, newline_not_mem_spelling written]
  | declare name block named => simp [toList_declare, inName named]
  | start name block named written =>
      simp [toList_start name block written, inName named, newline_not_mem_spelling written]
  | assign name block named written => simp [toList_assign, inName named, newline_not_mem_spelling written]
  | branch block written inner other => simp [toList_branch, newline_not_mem_spelling written]
  | loop block written inner => simp [toList_loop, newline_not_mem_spelling written]

theorem filled_unbroken {comment : String} {lines : List String} (remark : '\n' ∉ comment.toList)
    (inner : Unbroken lines) : Unbroken (filled comment lines) := by
  cases lines with
  | nil => exact unbroken_cons.mpr ⟨remark, inner⟩
  | cons first rest => exact inner

section Unbroken
variable (blank : ∀ c ∈ unit.toList, isMargin c = true)
include blank

theorem newline_not_mem_line {text : String} (inside : '\n' ∉ text.toList) : '\n' ∉ (line unit level text).toList := by
  rw [line, String.toList_append, List.mem_append, not_or]
  exact ⟨newline_not_mem_of_run (margin_chars blank) rfl, inside⟩

mutual

theorem remainder_unbroken (level : Nat) {node : Node} (clause : Clause node) :
    Unbroken (remainder unit level node) := by
  have closing : '\n' ∉ (line unit level "\x7d").toList := newline_not_mem_line blank (by simp)
  have remark : '\n' ∉ (line unit (level + 1) emptyBody).toList := newline_not_mem_line blank (by simp [emptyBody])
  cases clause with
  | branch block written inner other =>
      rw [remainder, orEmptyBody_eq, unbroken_append, unbroken_append]
      exact ⟨⟨filled_unbroken remark (listing_unbroken (level + 1) inner), otherwise_unbroken level other⟩,
        unbroken_cons.mpr ⟨closing, List.forall_mem_nil _⟩⟩
  | loop block written inner =>
      rw [remainder, orEmptyBody_eq, unbroken_append]
      exact ⟨filled_unbroken remark (listing_unbroken (level + 1) inner),
        unbroken_cons.mpr ⟨closing, List.forall_mem_nil _⟩⟩
  | _ => exact List.forall_mem_nil _

theorem listing_unbroken (level : Nat) {nodes : List Node} (clauses : Clauses nodes) :
    Unbroken (listing unit level nodes) := by
  cases clauses with
  | nil => exact List.forall_mem_nil _
  | cons first later =>
      rw [listing, unbroken_cons, unbroken_append]
      exact ⟨newline_not_mem_line blank (newline_not_mem_headline first), remainder_unbroken level first,
        listing_unbroken level later⟩

theorem otherwise_unbroken (level : Nat) {alternate : Option (List Node)} (written : Alternate alternate) :
    Unbroken (otherwise unit level alternate) := by
  cases written with
  | some inner =>
      rw [otherwise, orEmptyBody_eq, unbroken_cons]
      exact ⟨newline_not_mem_line blank (by simp),
        filled_unbroken (newline_not_mem_line blank (by simp [emptyBody])) (listing_unbroken (level + 1) inner)⟩
  | _ => exact List.forall_mem_nil _

end

theorem page_unbroken {body : List Node} (clauses : Clauses body) : Unbroken (page unit body) := by
  have inner : Unbroken (filled (line unit 2 emptyProgram) (listing unit 2 body)) :=
    filled_unbroken (newline_not_mem_line blank (by simp [emptyProgram])) (listing_unbroken blank 2 clauses)
  have start : '\n' ∉ (line unit 1 "funcao inicio() \x7b").toList := newline_not_mem_line blank (by simp)
  have finish : '\n' ∉ (line unit 1 "\x7d").toList := newline_not_mem_line blank (by simp)
  change Unbroken (_ ++ filled _ _ ++ _)
  simp only [unbroken_append, unbroken_cons]
  refine ⟨⟨⟨by simp, start, List.forall_mem_nil _⟩, inner⟩, finish, by simp, List.forall_mem_nil _⟩

end Unbroken

theorem intercalate_told {left right : List String} (one : Unbroken left) (two : Unbroken right) (filledOne : left ≠ [])
    (filledTwo : right ≠ []) (same : "\n".intercalate left = "\n".intercalate right) : left = right := by
  have split : ∀ {lines : List String}, Unbroken lines → lines ≠ [] →
      List.splitOn '\n' ("\n".intercalate lines).toList = lines.map String.toList := by
    intro lines unbroken nonempty
    rw [String.toList_intercalate]
    refine List.splitOn_intercalate '\n' ?_ ?_
    · intro chars member
      obtain ⟨text, listed, rfl⟩ := List.mem_map.mp member
      exact unbroken text listed
    · simpa using nonempty
  have equal : left.map String.toList = right.map String.toList := by
    rw [← split one filledOne, same, split two filledTwo]
  exact List.map_injective_iff.mpr (fun _ _ => String.toList_inj.mp) equal

theorem page_told (blank : ∀ c ∈ unit.toList, isMargin c = true) {left right : List Node} (one : Clauses left)
    (two : Clauses right) (same : page unit left = page unit right) : Node.bareAll left = Node.bareAll right := by
  have remark : mark (line unit 2 emptyProgram) = .comment := mark_line blank (Text.head_outside rfl)
  have ends : Closes [line unit 1 "\x7d", "\x7d"] := closes_closer blank _
  change _ ++ filled _ _ ++ _ = _ ++ filled _ _ ++ _ at same
  rw [List.append_assoc, List.append_assoc] at same
  exact (filled_told blank remark one two (listing_told blank 2 one two ends ends) (List.append_cancel_left same)).1

-- What a bare program lacks is not written.

theorem headline_bare : ∀ node : Node, headline node.bare = headline node
  | .declare name initial block => by
      by_cases nothing : initial = .absent
      · subst nothing
        rfl
      · have present : initial.bare ≠ .absent := by
          intro same
          cases initial <;> first | exact nothing rfl | cases same
        rw [Node.bare, headline, headline, spelling_bare]
        · exact nothing
        · exact present
  | .assign name value block => by rw [Node.bare, headline, headline, spelling_bare]
  | .write value block => by rw [Node.bare, headline, headline, spelling_bare]
  | .branch condition consequent alternate block => by rw [Node.bare, headline, headline, spelling_bare]
  | .loop condition body block => by rw [Node.bare, headline, headline, spelling_bare]
  | .absent => rfl
  | .literal .. => rfl
  | .identifier .. => rfl
  | .read .. => rfl
  | .binary .. => rfl

mutual

theorem remainder_bare (unit : String) (level : Nat) : ∀ node : Node,
    remainder unit level node.bare = remainder unit level node
  | .branch condition consequent alternate block => by
      rw [Node.bare, remainder, remainder, listing_bare unit (level + 1) consequent, otherwise_bare unit level alternate]
  | .loop condition body block => by rw [Node.bare, remainder, remainder, listing_bare unit (level + 1) body]
  | .absent => rfl
  | .literal .. => rfl
  | .identifier .. => rfl
  | .read .. => rfl
  | .binary .. => rfl
  | .declare .. => rfl
  | .assign .. => rfl
  | .write .. => rfl

theorem listing_bare (unit : String) (level : Nat) : ∀ nodes : List Node,
    listing unit level (Node.bareAll nodes) = listing unit level nodes
  | [] => rfl
  | node :: rest => by
      rw [Node.bareAll, listing, listing, headline_bare, remainder_bare unit level node, listing_bare unit level rest]

theorem otherwise_bare (unit : String) (level : Nat) : ∀ alternate : Option (List Node),
    otherwise unit level (Node.bareAlternate alternate) = otherwise unit level alternate
  | none => rfl
  | some [] => rfl
  | some (node :: rest) => by
      have inner := listing_bare unit (level + 1) (node :: rest)
      rw [Node.bareAll] at inner
      rw [Node.bareAlternate, otherwise, otherwise, inner]

end

theorem page_bare (unit : String) (body : List Node) : page unit (Node.bareAll body) = page unit body := by
  rw [page, page, listing_bare]

end Source

theorem Source.text_told {unit : String} {left right : List Node} (blank : ∀ c ∈ unit.toList, isMargin c = true)
    (one : Clauses left) (two : Clauses right) :
    "\n".intercalate (page unit left) = "\n".intercalate (page unit right) ↔ Node.bareAll left = Node.bareAll right := by
  constructor
  · intro same
    apply page_told blank one two
    exact intercalate_told (page_unbroken blank one) (page_unbroken blank two) (by simp [page]) (by simp [page]) same
  · intro same
    rw [← page_bare unit left, same, page_bare]

-- The text of a program tells the program, up to what is never written. It has one unless a number is too long.
theorem program_unambiguous {unit : String} {left right : List Node}
    (blank : ∀ c ∈ unit.toList, Source.isMargin c = true)
    (leftSorted : Node.areStatements left = true) (leftPlain : Node.arePlain left = true)
    (rightSorted : Node.areStatements right = true) (rightPlain : Node.arePlain right = true) :
    match Source.program unit left, Source.program unit right with
    | .ok leftText, .ok rightText => leftText = rightText ↔ Node.bareAll left = Node.bareAll right
    | _, _ => Node.allFit left = false ∨ Node.allFit right = false := by
  have told := Source.text_told blank (.of leftSorted leftPlain) (.of rightSorted rightPlain)
  rw [Source.program_eq unit leftSorted, Source.program_eq unit rightSorted]
  cases Node.allFit left with
  | false => exact Or.inl rfl
  | true =>
      cases Node.allFit right with
      | false => exact Or.inr rfl
      | true => exact told

-- The two differ in where the inner body ends, and the text to write looks like the start of another.

def promptedBranch (body : List Node) (alternate : Option (List Node)) (prompt block : Option String) : List Node :=
  [.declare "x" (.read prompt block) none,
    .branch (.binary ">=" (.identifier "x" block) (.literal (.int (-3)) .number none) block) body alternate block]

def trickyWrite : Node := .write (.literal (.text "\")\n\x7d senao \x7b\\") .text none) none

def writtenWithin : List Node :=
  promptedBranch [.loop (.literal (.bool true) .boolean none) [trickyWrite] none] none (some "") none

def writtenAfter : List Node :=
  promptedBranch [.loop (.literal (.bool true) .boolean none) [] none, trickyWrite] (some []) none (some "gen-1")

theorem program_unambiguous_body :
    (∀ c ∈ "\t".toList, Source.isMargin c = true) ∧
      Node.areStatements writtenWithin = true ∧ Node.arePlain writtenWithin = true ∧
      Node.areStatements writtenAfter = true ∧ Node.arePlain writtenAfter = true ∧
      ∃ within after, Source.program "\t" writtenWithin = .ok within ∧ Source.program "\t" writtenAfter = .ok after ∧
        within ≠ after := by
  have blank : ∀ c ∈ "\t".toList, Source.isMargin c = true := by simp [Source.isMargin]
  have plain : Node.arePlain writtenWithin = true := by decide
  have plainToo : Node.arePlain writtenAfter = true := by decide
  have told := program_unambiguous blank rfl plain rfl plainToo
  have within : Source.program "\t" writtenWithin = .ok _ := Source.program_eq "\t" rfl
  have after : Source.program "\t" writtenAfter = .ok _ := Source.program_eq "\t" rfl
  refine ⟨blank, rfl, plain, rfl, plainToo, _, _, within, after, ?_⟩
  simp only [within, after] at told
  rw [Ne, told]
  simp [writtenWithin, writtenAfter, promptedBranch, Node.bareAll, Node.bare]

end BlockCanvas
