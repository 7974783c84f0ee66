import BlockCanvas.Number.Reading
import BlockCanvas.Number.Shortest
namespace BlockCanvas

-- What a block can hold at an input socket.
inductive Value where
  | null
  | bool (value : Bool)
  | int (value : Int)
  | float (value : Binary64)
  | text (value : String)
deriving DecidableEq

namespace Value

def typeName : Value → String
  | .null => "NoneType"
  | .bool _ => "bool"
  | .int _ => "int"
  | .float _ => "float"
  | .text _ => "str"

-- Whole numbers of too many digits are not turned into text, alone among the values.
def fits : Value → Bool
  | .int value => Number.fits value
  | _ => true

def unboundedText : Value → String
  | .null => "None"
  | .bool value => if value then "True" else "False"
  | .int value => toString value
  | .float value => value.shown
  | .text value => value

-- The text that a value shows when it stands where a text is wanted.
def shown (value : Value) : Except Number.Oversized String :=
  if value.fits then .ok value.unboundedText else .error .written

def isTrue : Value → Bool
  | .null => false
  | .bool value => value
  | .int value => value ≠ 0
  | .float value => !value.isZero
  | .text value => value ≠ ""

def unboundedNumber : Value → String
  | .null => "None"
  | .bool value => if value then "1" else "0"
  | .int value => toString value
  | .float value => value.written
  | .text value => value

-- The text of a value where a program wants a number.
def writtenNumber (value : Value) : Except Number.Oversized String :=
  if value.fits then .ok value.unboundedNumber else .error .written

end Value
end BlockCanvas
