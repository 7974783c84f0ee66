import BlockCanvas.Definition
namespace BlockCanvas

-- Why the graph turns a change down.
inductive Refusal where
  | unknownBlock (block : String)
  | unknownSocket (socket definition : String)
  | valueType (socket : String) (expected : DataType) (given : Value)
  | noOutput (definition : String)
  | outputType (output : DataType) (socket : String) (accepted : List DataType)
  | dataCycle (source target socket : String)
  | noNext (definition : String)
  | noPrevious (definition : String)
  | sequenceCycle (block next : String)
deriving DecidableEq

namespace Refusal

def code : Refusal → String
  | .unknownBlock _ => "unknown_block"
  | .unknownSocket .. => "unknown_socket"
  | .valueType .. => "type_mismatch"
  | .outputType .. => "type_mismatch"
  | .noOutput _ => "no_output"
  | .dataCycle .. => "would_create_cycle"
  | .sequenceCycle .. => "would_create_cycle"
  | .noNext _ => "unsupported_sequencing"
  | .noPrevious _ => "unsupported_sequencing"

def message : Refusal → String
  | .unknownBlock block => s!"Block '{block}' not found."
  | .unknownSocket socket definition => s!"Socket '{socket}' not found on block '{definition}'."
  | .valueType socket expected given =>
      s!"Type mismatch on socket '{socket}': expected " ++ expected.name ++ ", got " ++ given.typeName ++ "."
  | .noOutput definition => s!"Block '{definition}' has no output to connect."
  | .outputType output socket accepted =>
      "Type mismatch: " ++ output.name ++ s!" is not accepted by socket '{socket}' (" ++
        ", ".intercalate (accepted.map DataType.name) ++ ")."
  | .dataCycle source target socket =>
      s!"Connecting '{source}' into '{target}.{socket}' would create a cycle."
  | .noNext definition => s!"Block '{definition}' does not support a next link."
  | .noPrevious definition => s!"Block '{definition}' does not support a previous link."
  | .sequenceCycle block next => s!"Linking '{block}' -> '{next}' would create a cycle in the sequence."

end Refusal
end BlockCanvas
