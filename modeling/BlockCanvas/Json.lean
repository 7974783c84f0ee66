import BlockCanvas.Table
import BlockCanvas.Value
namespace BlockCanvas

-- Data before it is checked. Whole numbers and doubles are told apart, and an object keeps the
-- order of its members.
inductive Json where
  | null
  | bool (value : Bool)
  | int (value : Int)
  | float (value : Binary64)
  | text (value : String)
  | list (items : List Json)
  | object (members : List (String × Json))
deriving Inhabited

namespace Json

-- A repeated member keeps its first place and takes its last value.
def ofMembers (members : List (String × Json)) : Json :=
  .object (Table.ofRows members).rows

def ofValue (number : Binary64 → Json) : Value → Json
  | .null => .null
  | .bool value => .bool value
  | .int value => .int value
  | .float value => number value
  | .text value => .text value

-- Text formats have no spelling for what is not a number.
def finiteOrNull (x : Binary64) : Json :=
  if x.isFinite then .float x else .null

def ofOption (write : α → Json) : Option α → Json
  | none => .null
  | some value => write value

mutual

-- Whether every number in the data is finite.
def isFinite : Json → Bool
  | .float x => x.isFinite
  | .list items => itemsFinite items
  | .object members => membersFinite members
  | _ => true

def itemsFinite : List Json → Bool
  | [] => true
  | item :: rest => isFinite item && itemsFinite rest

def membersFinite : List (String × Json) → Bool
  | [] => true
  | (_, value) :: rest => isFinite value && membersFinite rest

end

def texts (items : List String) : Json := .list (items.map .text)

end Json
end BlockCanvas
