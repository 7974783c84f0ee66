import BlockCanvas.Program.Node
import BlockCanvas.Text.Quoted
namespace BlockCanvas

-- Where a node was expected to stand.
inductive Place where
  | statement
  | expression
deriving DecidableEq

-- A node that cannot be rendered where it stands.
structure Misplaced where
  place : Place
  kind : String
deriving DecidableEq

def Misplaced.message (fault : Misplaced) : String :=
  match fault.place with
  | .statement => "Unsupported statement node: " ++ fault.kind
  | .expression => "Unsupported expression node: " ++ fault.kind

-- Why a tree has no source text.
inductive RenderError where
  | misplaced (fault : Misplaced)
  | oversized (fault : Number.Oversized)
deriving DecidableEq

def RenderError.message : RenderError → String
  | .misplaced fault => fault.message
  | .oversized fault => fault.message

-- Portugol source text of a program tree.
namespace Source

def defaultIndent : String := "  "
def emptyProgram : String := "// Arraste blocos para o canvas para começar"
def emptyBody : String := "// Adicione blocos aqui"

def literal (value : Value) : LiteralType → Except RenderError String
  | .text => (value.shown.mapError .oversized).map Text.quoted
  | .boolean => .ok (if value.isTrue then "verdadeiro" else "falso")
  | .number => value.writtenNumber.mapError .oversized

-- An empty prompt is no prompt.
def read : Option String → String
  | none => "leia()"
  | some "" => "leia()"
  | some prompt => "leia(" ++ Text.quoted prompt ++ ")"

def expression : Node → Except RenderError String
  | .literal value type _ => literal value type
  | .identifier name _ => .ok name
  | .read prompt _ => .ok (read prompt)
  | .binary symbol left right _ => do
      let leftText ← expression left
      let rightText ← expression right
      return "(" ++ leftText ++ " " ++ symbol ++ " " ++ rightText ++ ")"
  | other => .error (.misplaced ⟨.expression, other.kind⟩)

def line (unit : String) (level : Nat) (text : String) : String :=
  String.join (List.replicate level unit) ++ text

-- A body that renders to nothing shows a comment instead.
def orEmptyBody (unit : String) (level : Nat) : List String → List String
  | [] => [line unit level emptyBody]
  | lines => lines

mutual

-- The lines of one statement; the condition of a branch or loop comes before its bodies.
def statement (unit : String) (level : Nat) : Node → Except RenderError (List String)
  | .write value _ => do
      let text ← expression value
      return [line unit level ("escreva(" ++ text ++ ")")]
  | .declare name .absent _ => return [line unit level ("var " ++ name)]
  | .declare name initial _ => do
      let text ← expression initial
      return [line unit level ("var " ++ name ++ " = " ++ text)]
  | .assign name value _ => do
      let text ← expression value
      return [line unit level (name ++ " = " ++ text)]
  | .branch condition consequent alternate _ => do
      let text ← expression condition
      let inner ← statements unit (level + 1) consequent
      let other ← alternative unit level alternate
      return line unit level ("se (" ++ text ++ ") entao \x7b") ::
        orEmptyBody unit (level + 1) inner ++ other ++ [line unit level "\x7d"]
  | .loop condition body _ => do
      let text ← expression condition
      let inner ← statements unit (level + 1) body
      return line unit level ("enquanto (" ++ text ++ ") faca \x7b") ::
        orEmptyBody unit (level + 1) inner ++ [line unit level "\x7d"]
  | other => .error (.misplaced ⟨.statement, other.kind⟩)

def statements (unit : String) (level : Nat) : List Node → Except RenderError (List String)
  | [] => return []
  | node :: rest => do
      let first ← statement unit level node
      let others ← statements unit level rest
      return first ++ others

-- An alternate without statements is not written at all.
def alternative (unit : String) (level : Nat) : Option (List Node) → Except RenderError (List String)
  | none => return []
  | some [] => return []
  | some (node :: rest) => do
      let inner ← statements unit (level + 1) (node :: rest)
      return line unit level "\x7d senao \x7b" :: orEmptyBody unit (level + 1) inner

end

def programLines (unit : String) (body : List Node) : Except RenderError (List String) := do
  let inner ← statements unit 2 body
  let shown := if inner.isEmpty then [line unit 2 emptyProgram] else inner
  return ["programa \x7b", line unit 1 "funcao inicio() \x7b"] ++ shown ++ [line unit 1 "\x7d", "\x7d"]

def program (unit : String) (body : List Node) : Except RenderError String :=
  (programLines unit body).map fun lines => "\n".intercalate lines

end Source
end BlockCanvas
