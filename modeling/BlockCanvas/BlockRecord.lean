import BlockCanvas.Check.Basic
namespace BlockCanvas

structure Position where
  x : Binary64 := Binary64.zero
  y : Binary64 := Binary64.zero
deriving DecidableEq

namespace Position

def zero : Position := ⟨Binary64.zero, Binary64.zero⟩

def check (origin : Origin) (data : Json) : Checked Position :=
  Check.fields origin "BlockPosition" data fun members =>
    Position.mk <$> Check.defaulted members "x" Binary64.zero Check.number
      <*> Check.defaulted members "y" Binary64.zero Check.number

def dump (number : Binary64 → Json) (position : Position) : Json :=
  .object [("x", number position.x), ("y", number position.y)]

end Position

-- A data connection: the source block's output feeds a socket of the target block.
structure Connection where
  source : String
  target : String
  socket : String
deriving DecidableEq

namespace Connection

def check (origin : Origin) (data : Json) : Checked Connection :=
  Check.fields origin "Connection" data fun members =>
    Connection.mk <$> Check.required members "source_block_id" Check.name
      <*> Check.required members "target_block_id" Check.name
      <*> Check.required members "socket_id" Check.name

def dump (connection : Connection) : Json :=
  .object
    [("source_block_id", .text connection.source),
      ("target_block_id", .text connection.target),
      ("socket_id", .text connection.socket)]

end Connection

-- One block of a canvas, written down.
structure BlockRecord where
  id : String
  definition : String
  position : Position
  values : Table Value
  connections : List Connection
  next : Option String
  previous : Option String
deriving DecidableEq

namespace BlockRecord

def check (origin : Origin) (data : Json) : Checked BlockRecord :=
  Check.fields origin "BlockState" data fun members =>
    BlockRecord.mk <$> Check.required members "uuid" Check.name
      <*> Check.required members "definition_id" Check.name
      <*> Check.defaulted members "position" Position.zero (Position.check origin)
      <*> Check.defaulted members "values" Table.empty (Check.table Check.value)
      <*> Check.defaulted members "connections" [] (Check.list (Connection.check origin))
      <*> Check.optional members "next_block_id" Check.text
      <*> Check.optional members "previous_block_id" Check.text

def dump (number : Binary64 → Json) (record : BlockRecord) : Json :=
  .object
    [("uuid", .text record.id),
      ("definition_id", .text record.definition),
      ("position", record.position.dump number),
      ("values", .object (record.values.map (Json.ofValue number)).rows),
      ("connections", .list (record.connections.map Connection.dump)),
      ("next_block_id", Json.ofOption .text record.next),
      ("previous_block_id", Json.ofOption .text record.previous)]

end BlockRecord

-- The blocks of a whole program, written down.
structure Sketch where
  blocks : List BlockRecord
deriving DecidableEq

namespace Sketch

def greatestSize : Nat := 500

def ids (sketch : Sketch) : List String := sketch.blocks.map BlockRecord.id

def checkSize (blocks : List BlockRecord) : Checked (List BlockRecord) :=
  if greatestSize < blocks.length then
    .fail (.rule s!"Program exceeds maximum block count ({greatestSize})")
  else .accepted blocks

def checkDistinct (blocks : List BlockRecord) : Checked Sketch :=
  if (blocks.map BlockRecord.id).Nodup then .accepted ⟨blocks⟩
  else .fail (.rule "Block identities must be unique")

-- The size is looked at when every block is sound, distinctness when the size is.
def check (origin : Origin) (data : Json) : Checked Sketch :=
  Check.fields origin "ProgramGraph" data fun members =>
    (Check.defaulted members "blocks" [] fun blocks =>
      (Check.list (BlockRecord.check origin) blocks).andThen checkSize).andThen checkDistinct

def dump (number : Binary64 → Json) (sketch : Sketch) : Json :=
  .object [("blocks", .list (sketch.blocks.map (BlockRecord.dump number)))]

end Sketch
end BlockCanvas
