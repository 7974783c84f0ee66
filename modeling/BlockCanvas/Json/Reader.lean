import BlockCanvas.Json
import BlockCanvas.Number.Reading
import BlockCanvas.Text.Encoding
namespace BlockCanvas.Json

-- JSON text is read token by token, and each token moves the reading on.
inductive Token where
  | listStart
  | listEnd
  | objectStart
  | objectEnd
  | colon
  | comma
  | atom (value : Json)

def hexUnit? (a b c d : Char) : Option Nat := do
  return (((← Text.hexValue? a) * 16 + (← Text.hexValue? b)) * 16 + (← Text.hexValue? c)) * 16 + (← Text.hexValue? d)

def simpleEscape? : Char → Option Char
  | '"' => some '"'
  | '\\' => some '\\'
  | '/' => some '/'
  | 'b' => some '\x08'
  | 'f' => some '\x0c'
  | 'n' => some '\n'
  | 'r' => some '\r'
  | 't' => some '\t'
  | _ => none

-- The characters of a text up to its closing quote.
def readText : List Char → Option (List Char × List Char)
  | [] => none
  | '"' :: rest => some ([], rest)
  | '\\' :: 'u' :: a :: b :: c :: d :: '\\' :: 'u' :: e :: f :: g :: h :: rest => do
      let high ← hexUnit? a b c d
      match hexUnit? e f g h with
      | some low =>
          if Text.isHighUnit high && Text.isLowUnit low then
            let (read, left) ← readText rest
            return (Text.pairChar high low :: read, left)
          else
            let (read, left) ← readText ('\\' :: 'u' :: e :: f :: g :: h :: rest)
            return (Text.unitChar high :: read, left)
      | none => none
  | '\\' :: 'u' :: a :: b :: c :: d :: rest => do
      let unit ← hexUnit? a b c d
      let (read, left) ← readText rest
      return (Text.unitChar unit :: read, left)
  | '\\' :: c :: rest => do
      let plain ← simpleEscape? c
      let (read, left) ← readText rest
      return (plain :: read, left)
  | c :: rest =>
      if c.toNat < 0x20 ∨ c = '\\' then none
      else do
        let (read, left) ← readText rest
        return (c :: read, left)

-- Digits without a leading zero, unless they are one zero.
def readWhole (text : List Char) : Option (List Char × List Char) :=
  match text with
  | '0' :: rest => some (['0'], rest)
  | _ =>
      let digits := text.takeWhile Char.isDigit
      if digits.isEmpty then none else some (digits, text.dropWhile Char.isDigit)

-- A point counts only with digits behind it.
def readFraction (text : List Char) : List Char × List Char :=
  match text with
  | '.' :: rest =>
      let digits := rest.takeWhile Char.isDigit
      if digits.isEmpty then ([], text) else (digits, rest.dropWhile Char.isDigit)
  | _ => ([], text)

def readPower (text : List Char) : Option (Int × List Char) :=
  match text with
  | mark :: rest =>
      if mark = 'e' ∨ mark = 'E' then
        let (negative, tail) := Number.takeSign rest
        let digits := tail.takeWhile Char.isDigit
        if digits.isEmpty then none
        else some (Binary64.signed negative (Number.ofDigits digits), tail.dropWhile Char.isDigit)
      else none
  | [] => none

-- A number with a fraction or a power of ten is a double, any other a whole number.
def readNumber (negative : Bool) (text : List Char) : Option (Json × List Char) := do
  let (whole, rest) ← readWhole text
  let (fraction, rest) := readFraction rest
  match readPower rest with
  | some (power, rest) =>
      return (.float (Binary64.ofDecimal negative (Number.ofDigits (whole ++ fraction))
        (power - (fraction.length : Int))), rest)
  | none =>
      if fraction.isEmpty then return (.int (Binary64.signed negative (Number.ofDigits whole)), rest)
      else return (.float (Binary64.ofDecimal negative (Number.ofDigits (whole ++ fraction))
        (-(fraction.length : Int))), rest)

def words : List (List Char × Json) :=
  [("null".toList, .null), ("true".toList, .bool true), ("false".toList, .bool false),
    ("NaN".toList, .float .undefined), ("Infinity".toList, .float (.infinite false)),
    ("-Infinity".toList, .float (.infinite true))]

def readWord (text : List Char) : Option (Json × List Char) :=
  words.findSome? fun word =>
    if word.1.isPrefixOf text then some (word.2, text.drop word.1.length) else none

def readAtom (text : List Char) : Option (Json × List Char) :=
  match readWord text with
  | some found => some found
  | none =>
    match text with
    | '"' :: rest => (readText rest).map fun read => (.text (String.ofList read.1), read.2)
    | '-' :: rest => readNumber true rest
    | _ => readNumber false text

def isGap (c : Char) : Bool := c = ' ' || c = '\t' || c = '\n' || c = '\r'

def mark? : Char → Option Token
  | '[' => some .listStart
  | ']' => some .listEnd
  | '\x7b' => some .objectStart
  | '\x7d' => some .objectEnd
  | ':' => some .colon
  | ',' => some .comma
  | _ => none

def takeToken (text : List Char) : Option (Token × List Char) :=
  match text with
  | [] => none
  | c :: rest =>
    match mark? c with
    | some token => some (token, rest)
    | none => (readAtom text).map fun read => (.atom read.1, read.2)

-- Why a text holds no JSON value that can be used.
inductive ReadError where
  | malformed
  | oversized (fault : Number.Oversized)
  | tooDeep (list : Bool)
deriving DecidableEq

-- A list or an object that is not closed yet, the newest part first; the object waits for the value
-- of a member.
inductive Frame where
  | list (items : List Json)
  | member (members : List (String × Json)) (name : String)

-- What may come next, inside what is open.
inductive Reading where
  | atValue (frames : List Frame)
  | atFirstItem (frames : List Frame)
  | atFirstName (frames : List Frame)
  | atName (frames : List Frame) (members : List (String × Json))
  | atColon (frames : List Frame) (members : List (String × Json)) (name : String)
  | atEnd (frames : List Frame) (value : Json)

namespace Reading

-- Lists and objects are nested no deeper than the place where they are read has room for.
def enter (room : Nat) (list : Bool) (frames : List Frame) (next : Reading) :
    Except ReadError Reading :=
  if frames.length < room then .ok next else .error (.tooDeep list)

def takeValue (room : Nat) (frames : List Frame) : Token → Except ReadError Reading
  | .atom (.int n) =>
      if Number.fits n then .ok (.atEnd frames (.int n))
      else .error (.oversized (.read (Decimal.digits n.natAbs).length))
  | .atom value => .ok (.atEnd frames value)
  | .listStart => enter room true frames (.atFirstItem frames)
  | .objectStart => enter room false frames (.atFirstName frames)
  | _ => .error .malformed

def takeName (frames : List Frame) (members : List (String × Json)) : Token → Except ReadError Reading
  | .atom (.text name) => .ok (.atColon frames members name)
  | _ => .error .malformed

def advance (room : Nat) : Reading → Token → Except ReadError Reading
  | .atValue frames, token => takeValue room frames token
  | .atFirstItem frames, .listEnd => .ok (.atEnd frames (.list []))
  | .atFirstItem frames, token => takeValue room (.list [] :: frames) token
  | .atFirstName frames, .objectEnd => .ok (.atEnd frames (.object []))
  | .atFirstName frames, token => takeName frames [] token
  | .atName frames members, token => takeName frames members token
  | .atColon frames members name, .colon => .ok (.atValue (.member members name :: frames))
  | .atEnd (.list items :: frames) value, .comma => .ok (.atValue (.list (value :: items) :: frames))
  | .atEnd (.list items :: frames) value, .listEnd => .ok (.atEnd frames (.list (value :: items).reverse))
  | .atEnd (.member members name :: frames) value, .comma =>
      .ok (.atName frames ((name, value) :: members))
  | .atEnd (.member members name :: frames) value, .objectEnd =>
      .ok (.atEnd frames (ofMembers ((name, value) :: members).reverse))
  | _, _ => .error .malformed

def finish : Reading → Except ReadError Json
  | .atEnd [] value => .ok value
  | _ => .error .malformed

-- One token or one gap a step, so that a text takes no more steps than it has characters. What is
-- wrong first is what is reported.
def run (room : Nat) : Nat → Reading → List Char → Except ReadError Json
  | _, state, [] => state.finish
  | 0, _, _ :: _ => .error .malformed
  | steps + 1, state, c :: rest =>
      if isGap c then run room steps state rest
      else
        match takeToken (c :: rest) with
        | none => .error .malformed
        | some (token, left) =>
          match state.advance room token with
          | .error error => .error error
          | .ok next => run room steps next left

end Reading

def read (room : Nat) (text : String) : Except ReadError Json :=
  Reading.run room text.length (.atValue []) text.toList

end BlockCanvas.Json
