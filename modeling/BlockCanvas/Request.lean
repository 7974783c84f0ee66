import BlockCanvas.BlockRecord
namespace BlockCanvas

def greatestNameLength : Nat := 128
def greatestDescriptionLength : Nat := 2048
def firstSchemaVersion : Int := 1

-- A program to be stored.
structure Draft where
  name : String
  description : String
  schemaVersion : Int
  graph : Sketch
deriving DecidableEq

namespace Draft

def checkMembers (origin : Origin) (members : List (String × Json)) : Checked Draft :=
  Draft.mk <$> Check.required members "name" (Check.nameTo greatestNameLength)
    <*> Check.defaulted members "description" "" (Check.textTo greatestDescriptionLength)
    <*> Check.defaulted members "schema_version" firstSchemaVersion Check.integer
    <*> Check.defaulted members "graph" ⟨[]⟩ (Sketch.check origin)

def check (origin : Origin) (data : Json) : Checked Draft :=
  Check.fields origin "ProgramCreateRequest" data (checkMembers origin)

def dumpMembers (number : Binary64 → Json) (draft : Draft) : List (String × Json) :=
  [("name", .text draft.name),
    ("description", .text draft.description),
    ("schema_version", .int draft.schemaVersion),
    ("graph", draft.graph.dump number)]

def dump (number : Binary64 → Json) (draft : Draft) : Json :=
  .object (draft.dumpMembers number)

end Draft

-- Changes to a stored program; what is not given stays.
structure Revision where
  name : Option String
  description : Option String
  graph : Option Sketch
  schemaVersion : Option Int
deriving DecidableEq

namespace Revision

def check (origin : Origin) (data : Json) : Checked Revision :=
  Check.fields origin "ProgramUpdateRequest" data fun members =>
    Revision.mk <$> Check.optional members "name" (Check.nameTo greatestNameLength)
      <*> Check.optional members "description" (Check.textTo greatestDescriptionLength)
      <*> Check.optional members "graph" (Sketch.check origin)
      <*> Check.optional members "schema_version" Check.integer

def dump (number : Binary64 → Json) (revision : Revision) : Json :=
  .object
    [("name", Json.ofOption .text revision.name),
      ("description", Json.ofOption .text revision.description),
      ("graph", Json.ofOption (Sketch.dump number) revision.graph),
      ("schema_version", Json.ofOption .int revision.schemaVersion)]

end Revision

-- What compiling a program answers.
structure Compiled where
  program : Option String
  code : String
  diagnostics : List String
  order : List String
deriving DecidableEq

namespace Compiled

def check (origin : Origin) (data : Json) : Checked Compiled :=
  Check.fields origin "CompileResponse" data fun members =>
    Compiled.mk <$> Check.optional members "program_id" Check.text
      <*> Check.required members "code" Check.text
      <*> Check.defaulted members "diagnostics" [] (Check.list Check.text)
      <*> Check.defaulted members "evaluation_order" [] (Check.list Check.text)

def dump (compiled : Compiled) : Json :=
  .object
    [("program_id", Json.ofOption .text compiled.program),
      ("code", .text compiled.code),
      ("diagnostics", Json.texts compiled.diagnostics),
      ("evaluation_order", Json.texts compiled.order)]

end Compiled
end BlockCanvas
