import BlockCanvas.Json
import BlockCanvas.Text.Shown
namespace BlockCanvas.Json

-- The controls are escaped, by a letter where they have one and else by their number.
def escapedChar (c : Char) : List Char :=
  if c = '"' then ['\\', '"']
  else if c = '\\' then ['\\', '\\']
  else if c = '\x08' then ['\\', 'b']
  else if c = '\x0c' then ['\\', 'f']
  else if c = '\n' then ['\\', 'n']
  else if c = '\r' then ['\\', 'r']
  else if c = '\t' then ['\\', 't']
  else if c.toNat < 0x20 then '\\' :: 'u' :: Text.hexDigits 4 c.toNat
  else [c]

def textChars (text : String) : List Char :=
  '"' :: (text.toList.flatMap escapedChar ++ ['"'])

-- Only a finite number has digits.
def floatChars : Binary64 → List Char
  | .finite negative significand exponent =>
      if significand = 0 then Decimal.signText negative ++ ['0', '.', '0']
      else (Binary64.shortest negative significand exponent).compact
  | _ => "null".toList

mutual

-- The text of data, without gaps. Whole numbers are written with all their digits.
def chars : Json → List Char
  | .null => "null".toList
  | .bool value => if value then "true".toList else "false".toList
  | .int value => Decimal.signText (value < 0) ++ Decimal.digits value.natAbs
  | .float value => floatChars value
  | .text value => textChars value
  | .list items => '[' :: itemChars items
  | .object members => '\x7b' :: memberChars members

def itemChars : List Json → List Char
  | [] => [']']
  | item :: rest => chars item ++ moreItemChars rest

def moreItemChars : List Json → List Char
  | [] => [']']
  | item :: rest => ',' :: (chars item ++ moreItemChars rest)

def memberChars : List (String × Json) → List Char
  | [] => ['\x7d']
  | (name, value) :: rest => textChars name ++ ':' :: (chars value ++ moreMemberChars rest)

def moreMemberChars : List (String × Json) → List Char
  | [] => ['\x7d']
  | (name, value) :: rest => ',' :: (textChars name ++ ':' :: (chars value ++ moreMemberChars rest))

end

def write (data : Json) : String := String.ofList data.chars

end BlockCanvas.Json
