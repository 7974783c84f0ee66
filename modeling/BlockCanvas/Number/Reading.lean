import BlockCanvas.Number.Binary64
import BlockCanvas.Number.Decimal
import BlockCanvas.Text.Blank
import BlockCanvas.Text.Digit
namespace BlockCanvas.Number

def digitValue (c : Char) : Nat := c.toNat - '0'.toNat

def ofDigits (digits : List Char) : Nat :=
  digits.foldl (fun sum c => 10 * sum + digitValue c) 0

def takeSign : List Char → Bool × List Char
  | '-' :: rest => (true, rest)
  | '+' :: rest => (false, rest)
  | text => (false, text)

-- Underscores may group digits when each stands alone between two other characters.
def dropUnderscores (text : List Char) : Option (List Char) :=
  let doubled := (text.zip text.tail).any fun pair => pair.1 == '_' && pair.2 == '_'
  if text.head? = some '_' ∨ text.getLast? = some '_' ∨ doubled then none
  else some (text.filter fun c => c ≠ '_')

-- Longer runs of digits are not converted, neither from text nor to text.
def greatestLength : Nat := 4300

inductive Oversized where
  | read (digits : Nat)
  | written
deriving DecidableEq

def Oversized.message : Oversized → String
  | .read digits =>
      s!"Exceeds the limit ({greatestLength} digits) for integer string conversion: value has {digits} digits; " ++
        "use sys.set_int_max_str_digits() to increase the limit"
  | .written =>
      s!"Exceeds the limit ({greatestLength} digits) for integer string conversion; " ++
        "use sys.set_int_max_str_digits() to increase the limit"

def fits (n : Int) : Bool := (Decimal.digits n.natAbs).length ≤ greatestLength

def natural? (text : List Char) : Option Nat := do
  let digits ← dropUnderscores text
  if digits.isEmpty ∨ !digits.all Char.isDigit ∨ greatestLength < digits.length then none
  else some (ofDigits digits)

def integerArgument? (text : String) : Option Int :=
  let (negative, rest) := takeSign ((Text.trimWhere Text.isSpace text.toList).map Text.plainDigit)
  (natural? rest).map fun n => Binary64.signed negative n

inductive IntegerText where
  | value (n : Int)
  | malformed
  | oversized
deriving DecidableEq

def takeMinus : List Char → Bool × List Char
  | '-' :: rest => (true, rest)
  | text => (false, text)

-- Digits behind an optional minus, without a zero in front. How many they are is looked at before
-- what follows them.
def plainInteger (text : List Char) : IntegerText :=
  let (negative, rest) := takeMinus text
  let digits := rest.takeWhile Char.isDigit
  let complete := (rest.dropWhile Char.isDigit).isEmpty
  if digits.isEmpty then .malformed
  else if digits.head? = some '0' then
    if complete ∧ digits.length = 1 then .value 0 else .malformed
  else if greatestLength < digits.length then .oversized
  else if complete then .value (Binary64.signed negative (ofDigits digits))
  else .malformed

def dropZeros (last : Char) : List Char → Option (List Char)
  | [] => some [last]
  | c :: rest =>
      if c = '0' ∨ c = '_' then dropZeros c rest
      else if c = '-' ∨ c.isDigit then some (c :: rest)
      else if c = '.' then some (last :: c :: rest)
      else none

def dropLeadingZeros : List Char → Option (List Char)
  | [] => none
  | c :: rest =>
      if c = '0' then dropZeros c rest
      else if c.isDigit then some (c :: rest)
      else none

def dropZeroFraction (text : List Char) : List Char :=
  let fraction := (text.dropWhile fun c => c ≠ '.').tail
  if !fraction.isEmpty ∧ fraction.all (· == '0') then text.takeWhile fun c => c ≠ '.' else text

def tidy (text : List Char) : Option (List Char) := do
  let trimmed := Text.trimWhere Text.isSpace text
  let (negative, rest) := takeSign trimmed
  let digits ← dropLeadingZeros rest
  let whole := (if negative then ['-'] else []) ++ dropZeroFraction digits
  return (dropUnderscores whole).getD whole

def integerField (text : String) : IntegerText :=
  match plainInteger text.toList with
  | .value n => .value n
  | .oversized => .oversized
  | .malformed =>
    match (tidy text.toList).map plainInteger with
    | some (.value n) => .value n
    | _ => .malformed

def exponent? : List Char → Option Int
  | [] => some 0
  | mark :: rest =>
      if mark = 'e' ∨ mark = 'E' then
        let (negative, digits) := takeSign rest
        if digits.isEmpty ∨ !digits.all Char.isDigit then none
        else some (Binary64.signed negative (ofDigits digits))
      else none

def unsigned? (negative : Bool) (text : List Char) : Option Binary64 :=
  let whole := text.takeWhile Char.isDigit
  let rest := text.dropWhile Char.isDigit
  let (fraction, rest) := match rest with
    | '.' :: tail => (tail.takeWhile Char.isDigit, tail.dropWhile Char.isDigit)
    | other => ([], other)
  if whole.isEmpty ∧ fraction.isEmpty then none
  else (exponent? rest).map fun power =>
    Binary64.ofDecimal negative (ofDigits (whole ++ fraction)) (power - (fraction.length : Int))

def float? (text : List Char) : Option Binary64 :=
  let (negative, rest) := takeSign text
  let word := String.ofList (rest.map Char.toLower)
  if word = "inf" ∨ word = "infinity" then some (.infinite negative)
  else if word = "nan" then some .undefined
  else unsigned? negative rest

def floatField? (text : String) : Option Binary64 :=
  match float? (Text.trimWhere Text.isSpace text.toList) with
  | some x => some x
  | none => (dropUnderscores text.toList).bind float?

end BlockCanvas.Number
