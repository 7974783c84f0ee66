import BlockCanvas.Table
import BlockCanvas.Text.Encoding
import BlockCanvas.Text.Match
namespace BlockCanvas.Http

-- What a parameter of a path may hold.
inductive Shape where
  | segment
  | path
  | digits
  | decimal
  | identifier
deriving DecidableEq

namespace Shape

def names : List (String × Shape) :=
  [("str", .segment), ("path", .path), ("int", .digits), ("float", .decimal), ("uuid", .identifier)]

def isHex (c : Char) : Bool := (Text.hexValue? c).isSome

-- Groups of hexadecimal digits with or without a dash between two of them.
def takeGroups (next : Text.Onward α) : List Nat → Text.Onward α
  | [] => next
  | [size] => Text.exactly isHex next size
  | size :: sizes =>
      let others := takeGroups next sizes
      Text.exactly isHex (Text.orElse (Text.one (· == '-') others) others) size

-- Takes what the shape admits, as much of it as the rest allows.
def take (shape : Shape) (rest : List Char → Option α) : Text.Onward α :=
  let done := Text.stop rest
  match shape with
  | .segment => Text.several (· != '/') done
  | .path => Text.many (· != '\n') done
  | .digits => Text.several Char.isDigit done
  | .decimal =>
      let fraction := Text.one (· == '.') (Text.several Char.isDigit done)
      Text.several Char.isDigit (Text.orElse fraction done)
  | .identifier => takeGroups done [8, 4, 4, 4, 12]

end Shape

-- A path with parameters in it.
inductive Piece where
  | literal (c : Char)
  | parameter (name : String) (shape : Shape)
deriving DecidableEq

abbrev Pattern := List Piece

inductive PatternFault where
  | unknownShape (name : String)
  | repeated (names : List String)
deriving DecidableEq

namespace Pattern

def isNameStart (c : Char) : Bool := c.isAlpha || c = '_'
def isNameRest (c : Char) : Bool := c.isAlphanum || c = '_'

def takeName (text : List Char) : Option (String × List Char) :=
  match text with
  | c :: rest =>
      if isNameStart c then
        some (String.ofList (c :: rest.takeWhile isNameRest), rest.dropWhile isNameRest)
      else none
  | [] => none

-- A name and perhaps the name of a shape, up to the closing brace.
def takeParameter (text : List Char) : Option (String × String × List Char) := do
  let (name, rest) ← takeName text
  match rest with
  | '\x7d' :: left => return (name, "str", left)
  | ':' :: shaped =>
      let (shape, rest) ← takeName shaped
      match rest with
      | '\x7d' :: left => return (name, shape, left)
      | _ => none
  | _ => none

-- Braces that hold no parameter stand for themselves. Every step takes a character at least.
def readWithin : Nat → List Char → Except PatternFault Pattern
  | 0, _ => .ok []
  | _, [] => .ok []
  | steps + 1, c :: rest =>
    match if c = '\x7b' then takeParameter rest else none with
    | none => (readWithin steps rest).map (.literal c :: ·)
    | some (name, shape, left) =>
      match Rows.find? shape Shape.names with
      | none => .error (.unknownShape shape)
      | some found => (readWithin steps left).map (.parameter name found :: ·)

def parameters (pattern : Pattern) : List String :=
  pattern.filterMap fun
    | .literal _ => none
    | .parameter name _ => some name

def repeatedParameters (pattern : Pattern) : List String :=
  let names := pattern.parameters
  (names.filter fun name => 1 < names.count name).eraseDups.mergeSort

def read (template : String) : Except PatternFault Pattern := do
  let pattern ← readWithin template.length template.toList
  if pattern.repeatedParameters.isEmpty then return pattern
  else .error (.repeated pattern.repeatedParameters)

-- The path with the parameters as bare names.
def format (pattern : Pattern) : List Char :=
  pattern.flatMap fun
    | .literal c => [c]
    | .parameter name _ => '\x7b' :: name.toList ++ ['\x7d']

-- What stands between an opening brace and the next closing one on the same line.
def bracedFrom : Option (List Char) → List Char → List String
  | _, [] => []
  | none, c :: rest => bracedFrom (if c = '\x7b' then some [] else none) rest
  | some inside, c :: rest =>
      if c = '\x7d' then String.ofList inside.reverse :: bracedFrom none rest
      else if c = '\n' then bracedFrom none rest
      else bracedFrom (some (c :: inside)) rest

-- The names that are looked for in the path. A brace before a parameter hides its name.
def visibleNames (pattern : Pattern) : List String := bracedFrom none pattern.format

end Pattern

-- A parameter and the part of a path that it stands for.
structure Captured where
  name : String
  shape : Shape
  text : String
deriving DecidableEq

namespace Pattern

-- A line break at the end of the path is overlooked.
def captured? : Pattern → List Char → Option (List Captured)
  | [], text => if text = [] ∨ text = ['\n'] then some [] else none
  | .literal _ :: _, [] => none
  | .literal c :: rest, d :: text => if c = d then captured? rest text else none
  | .parameter name shape :: rest, text =>
      (shape.take (captured? rest) text).map fun taken =>
        ⟨name, shape, String.ofList taken.1⟩ :: taken.2

end Pattern
end BlockCanvas.Http
