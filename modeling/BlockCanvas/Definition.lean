import BlockCanvas.Check.Basic
namespace BlockCanvas

inductive DataType where
  | number
  | text
  | boolean
  | any
  | void
deriving DecidableEq

def DataType.options : List (String × DataType) :=
  [("number", .number), ("text", .text), ("boolean", .boolean), ("any", .any), ("void", .void)]

def DataType.name : DataType → String
  | .number => "number"
  | .text => "text"
  | .boolean => "boolean"
  | .any => "any"
  | .void => "void"

theorem DataType.find?_name (type : DataType) : Rows.find? type.name options = some type := by
  cases type <;> rfl

-- Whole numbers are exact at any size; a double counts as a number only when it is finite.
def DataType.admits : DataType → Value → Bool
  | .any, _ => true
  | .number, .int _ => true
  | .number, .float x => x.isFinite
  | .text, .text _ => true
  | .boolean, .bool _ => true
  | .void, .null => true
  | _, _ => false

inductive BlockKind where
  | statement
  | expression
  | control
  | terminal
deriving DecidableEq

def BlockKind.options : List (String × BlockKind) :=
  [("statement", .statement), ("expression", .expression), ("control", .control), ("terminal", .terminal)]

def BlockKind.name : BlockKind → String
  | .statement => "statement"
  | .expression => "expression"
  | .control => "control"
  | .terminal => "terminal"

theorem BlockKind.find?_name (kind : BlockKind) : Rows.find? kind.name options = some kind := by
  cases kind <;> rfl

inductive Category where
  | io
  | naming
  | control
  | operators
  | functions
deriving DecidableEq

def Category.options : List (String × Category) :=
  [("io", .io), ("variables", .naming), ("control", .control), ("operators", .operators),
    ("functions", .functions)]

def Category.name : Category → String
  | .io => "io"
  | .naming => "variables"
  | .control => "control"
  | .operators => "operators"
  | .functions => "functions"

theorem Category.find?_name (category : Category) : Rows.find? category.name options = some category := by
  cases category <;> rfl

-- A place of a block where a value can be stored or another block connected.
structure Socket where
  id : String
  label : String := ""
  type : DataType
  required : Bool := true
  accepts : Option (List DataType) := none
deriving DecidableEq

namespace Socket

-- An empty list of accepted types counts as none given.
def acceptedTypes (socket : Socket) : List DataType :=
  match socket.accepts with
  | some (type :: rest) => type :: rest
  | _ => [socket.type]

-- An output of unknown type fits everywhere, and so does any output where everything is accepted.
def acceptsType (socket : Socket) (source : DataType) : Bool :=
  .any ∈ socket.acceptedTypes || source = .any || source ∈ socket.acceptedTypes

def check (origin : Origin) (data : Json) : Checked Socket :=
  Check.fields origin "SocketSpec" data fun members =>
    Socket.mk <$> Check.required members "id" Check.name
      <*> Check.defaulted members "label" "" Check.text
      <*> Check.required members "data_type" (Check.choice DataType.options)
      <*> Check.defaulted members "required" true Check.flag
      <*> Check.optional members "accepts" (Check.tuple (Check.choice DataType.options))

def typeData (type : DataType) : Json := .text type.name

def dump (socket : Socket) : Json :=
  .object
    [("id", .text socket.id),
      ("label", .text socket.label),
      ("data_type", typeData socket.type),
      ("required", .bool socket.required),
      ("accepts", Json.ofOption (fun types => .list (types.map typeData)) socket.accepts)]

end Socket

-- What blocks of one kind look like and where they can stand.
structure Definition where
  id : String
  category : Category
  kind : BlockKind
  label : String
  inputs : List Socket := []
  output : Option Socket := none
  hasNext : Bool := false
  hasPrevious : Bool := false
  level : Int := 1
  help : String := ""
  examples : List String := []
  template : String := ""
deriving DecidableEq

namespace Definition

def isChainCapable (definition : Definition) : Bool :=
  definition.hasNext || definition.hasPrevious

def input? (definition : Definition) (socket : String) : Option Socket :=
  definition.inputs.find? fun input => input.id = socket

def leastLevel : Int := 1
def greatestLevel : Int := 5

def check (origin : Origin) (data : Json) : Checked Definition :=
  Check.fields origin "BlockDefinition" data fun members =>
    Definition.mk <$> Check.required members "id" Check.name
      <*> Check.required members "category" (Check.choice Category.options)
      <*> Check.required members "kind" (Check.choice BlockKind.options)
      <*> Check.required members "label" Check.name
      <*> Check.defaulted members "inputs" [] (Check.tuple (Socket.check origin))
      <*> Check.optional members "output" (Socket.check origin)
      <*> Check.defaulted members "has_next" false Check.flag
      <*> Check.defaulted members "has_previous" false Check.flag
      <*> Check.defaulted members "pedagogy_level" 1 (Check.integerWithin leastLevel greatestLevel)
      <*> Check.defaulted members "help_text" "" Check.text
      <*> Check.defaulted members "examples" [] (Check.tuple Check.text)
      <*> Check.defaulted members "code_template" "" Check.text

def dump (definition : Definition) : Json :=
  .object
    [("id", .text definition.id),
      ("category", .text definition.category.name),
      ("kind", .text definition.kind.name),
      ("label", .text definition.label),
      ("inputs", .list (definition.inputs.map Socket.dump)),
      ("output", Json.ofOption Socket.dump definition.output),
      ("has_next", .bool definition.hasNext),
      ("has_previous", .bool definition.hasPrevious),
      ("pedagogy_level", .int definition.level),
      ("help_text", .text definition.help),
      ("examples", Json.texts definition.examples),
      ("code_template", .text definition.template)]

end Definition
end BlockCanvas
