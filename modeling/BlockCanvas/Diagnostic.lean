import BlockCanvas.Graph.Refusal
import BlockCanvas.Log
namespace BlockCanvas

-- What building a program tree notes about one block.
inductive BuildNote where
  | unknownStatement
  | unknownExpression
  | selfDependent
  | promptIgnored
  | unmappedOperator
  | missingSource (socket source : String)
deriving DecidableEq

-- What is reported about records or graphs without stopping the work on them.
inductive Diagnostic where
  | unknownDefinition (block definition : String)
  | refused (block : String) (refusal : Refusal)
  | foreignConnection (block target : String)
  | alreadyLinked (block next previous : String)
  | disputedPrevious (block next recorded : String)
  | dataCycle (blocks : List String)
  | build (block definition : String) (note : BuildNote)
deriving DecidableEq

def BuildNote.message (definition : String) : BuildNote → String
  | .unknownStatement => s!"unknown statement block '{definition}' skipped."
  | .unknownExpression => s!"unknown expression block '{definition}'; using its value as a literal."
  | .selfDependent => "expression depends on itself; using an empty placeholder."
  | .promptIgnored => "prompt must be a literal text; the connected expression was ignored."
  | .unmappedOperator => s!"no operator mapped for '{definition}'; using '+'."
  | .missingSource socket source => s!"socket '{socket}' is connected to missing block '{source}'."

namespace Diagnostic

def message : Diagnostic → String
  | .unknownDefinition block definition => s!"Block '{block}' references unknown definition '{definition}'."
  | .refused block refusal => s!"Block '{block}': " ++ refusal.message
  | .foreignConnection block target => s!"Block '{block}' lists a connection targeting '{target}'."
  | .alreadyLinked block next previous =>
      s!"Block '{block}': next block '{next}' is already linked after '{previous}'."
  | .disputedPrevious block next recorded =>
      s!"Block '{block}': next block '{next}' records '{recorded}' as its previous block."
  | .dataCycle blocks =>
      "Data connections contain a cycle; unordered blocks: " ++ ", ".intercalate blocks ++ "."
  | .build block definition note => s!"Block '{block}' ({definition}): " ++ note.message definition

-- A diagnostic is logged by the part that finds it, with its mark in front.
def under (channel : Channel) (mark : String) (diagnostic : Diagnostic) : LogEntry :=
  ⟨.warning, channel, mark ++ diagnostic.message⟩

end Diagnostic
end BlockCanvas
