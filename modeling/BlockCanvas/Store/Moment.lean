import BlockCanvas.Check.Basic
namespace BlockCanvas

-- A wall clock reading in microseconds from the start of 1970, and the minutes it is ahead of
-- universal time, if known.
structure Moment where
  wall : Int
  zone : Option Int
deriving DecidableEq

namespace Moment

def second : Int := 1000000
def day : Int := 86400 * second

def universal (wall : Int) : Moment := ⟨wall, some 0⟩

-- A clock without a zone is read as universal time.
def assumeUniversal (moment : Moment) : Moment :=
  match moment.zone with
  | none => universal moment.wall
  | some _ => moment

-- Days from the start of 1970 to a date of the Gregorian calendar, counted in years from March.
def daysFromDate (year month date : Int) : Int :=
  let shifted := if month ≤ 2 then year - 1 else year
  let era := shifted / 400
  let yearOfEra := shifted % 400
  let monthFromMarch := (month + 9) % 12
  let dayOfYear := (153 * monthFromMarch + 2) / 5 + date - 1
  let dayOfEra := yearOfEra * 365 + yearOfEra / 4 - yearOfEra / 100 + dayOfYear
  era * 146097 + dayOfEra - 719468

def dateFromDays (days : Int) : Int × Int × Int :=
  let shifted := days + 719468
  let era := shifted / 146097
  let dayOfEra := shifted % 146097
  let yearOfEra := (dayOfEra - dayOfEra / 1460 + dayOfEra / 36524 - dayOfEra / 146096) / 365
  let dayOfYear := dayOfEra - (365 * yearOfEra + yearOfEra / 4 - yearOfEra / 100)
  let monthFromMarch := (5 * dayOfYear + 2) / 153
  let date := dayOfYear - (153 * monthFromMarch + 2) / 5 + 1
  let month := if monthFromMarch < 10 then monthFromMarch + 3 else monthFromMarch - 9
  let year := yearOfEra + era * 400
  (if month ≤ 2 then year + 1 else year, month, date)

def padded (width : Nat) (n : Int) : String :=
  let digits := toString n.natAbs
  String.ofList (List.replicate (width - digits.length) '0') ++ digits

def zoneText (universalText : String) : Option Int → String
  | none => ""
  | some minutes =>
      if minutes = 0 then universalText
      else
        (if minutes < 0 then "-" else "+") ++ padded 2 (minutes.natAbs / 60) ++ ":" ++
          padded 2 (minutes.natAbs % 60)

-- `2024-01-01T10:00:00`, six digits of fraction if there is one, then the zone.
def isoText (universalText : String) (moment : Moment) : String :=
  let (year, month, date) := dateFromDays (moment.wall / day)
  let inDay := moment.wall % day
  let seconds := inDay / second
  let fraction := inDay % second
  padded 4 year ++ "-" ++ padded 2 month ++ "-" ++ padded 2 date ++ "T" ++
    padded 2 (seconds / 3600) ++ ":" ++ padded 2 (seconds / 60 % 60) ++ ":" ++ padded 2 (seconds % 60) ++
    (if fraction = 0 then "" else "." ++ padded 6 fraction) ++ zoneText universalText moment.zone

def isLeap (year : Int) : Bool := year % 4 = 0 && (year % 100 ≠ 0 || year % 400 = 0)

def daysInMonth (year month : Int) : Int :=
  if month = 2 then (if isLeap year then 29 else 28)
  else if month = 4 ∨ month = 6 ∨ month = 9 ∨ month = 11 then 30
  else 31

-- Readers take what they read off the front of the text.
def takeDigits (count : Nat) (text : List Char) : Option (Int × List Char) :=
  let digits := text.take count
  if digits.length = count ∧ digits.all Char.isDigit then
    some (Number.ofDigits digits, text.drop count)
  else none

def takeMark (marks : List Char) : List Char → Option (List Char)
  | c :: rest => if c ∈ marks then some rest else none
  | [] => none

def orProblem (problem : MomentProblem) : Option α → Except MomentProblem α
  | some value => .ok value
  | none => .error problem

def leastDateSize : Nat := 10

-- Year, month and day with a dash between them; the first thing that is wrong is named.
def takeDate (text : String) : Except MomentProblem (Int × Int × Int × List Char) := do
  if text.utf8ByteSize < leastDateSize then throw .tooShort
  let (year, rest) ← orProblem .badYear (takeDigits 4 text.toList)
  let rest ← orProblem .badSeparator (takeMark ['-'] rest)
  let (month, rest) ← orProblem .badMonth (takeDigits 2 rest)
  let rest ← orProblem .badSeparator (takeMark ['-'] rest)
  let (date, rest) ← orProblem .badDay (takeDigits 2 rest)
  if month < 1 ∨ 12 < month then throw .monthOutOfRange
  if date < 1 ∨ daysInMonth year month < date then throw .dayOutOfRange
  return (year, month, date, rest)

-- Digits after the sixth are dropped; a mark without digits is no fraction.
def takeFraction (text : List Char) : Option (Int × List Char) :=
  match takeMark ['.', ','] text with
  | none => some (0, text)
  | some rest =>
      let digits := rest.takeWhile Char.isDigit
      let six := digits.take 6 ++ List.replicate (6 - digits.length) '0'
      if digits.isEmpty then none else some (Number.ofDigits six, rest.dropWhile Char.isDigit)

-- Seconds may be left out, and only seconds have a fraction.
def takeSeconds (text : List Char) : Option (Int × List Char) :=
  match takeMark [':'] text with
  | none => some (0, text)
  | some rest => do
      let (seconds, rest) ← takeDigits 2 rest
      let (fraction, rest) ← takeFraction rest
      if seconds < 60 then return (seconds * second + fraction, rest) else none

-- Microseconds since midnight.
def takeTime (text : List Char) : Option (Int × List Char) := do
  let (hours, rest) ← takeDigits 2 text
  let (minutes, rest) ← takeDigits 2 (← takeMark [':'] rest)
  let (seconds, rest) ← takeSeconds rest
  if hours < 24 ∧ minutes < 60 then return ((hours * 60 + minutes) * 60 * second + seconds, rest)
  else none

-- Nothing, the letter of universal time, or a sign with hours and minutes to the end of the text.
def readZone : List Char → Option (Option Int)
  | [] => some none
  | ['Z'] => some (some 0)
  | ['z'] => some (some 0)
  | sign :: rest => do
      let negative ←
        if sign = '+' then some false else if sign = '-' ∨ sign = '−' then some true else none
      let (hours, rest) ← takeDigits 2 rest
      let (minutes, rest) ← takeDigits 2 ((takeMark [':'] rest).getD rest)
      if rest.isEmpty ∧ hours < 24 ∧ minutes < 60 then
        return some (if negative then -(hours * 60 + minutes) else hours * 60 + minutes)
      else none

-- A date and a time of day.
def ofCalendar? (text : String) : Option Moment :=
  match takeDate text with
  | .error _ => none
  | .ok (year, month, date, rest) => do
      let (time, rest) ← takeTime (← takeMark ['T', 't', ' ', '_'] rest)
      let zone ← readZone rest
      return ⟨daysFromDate year month date * day + time, zone⟩

-- Numbers up to here count seconds from the start of 1970, larger ones milliseconds.
def greatestSeconds : Nat := 20000000000

def unitOf (large : Bool) : Nat := if large then 1000 else 1000000

def firstSecond : Int := daysFromDate 0 1 1 * 86400
def lastSecond : Int := daysFromDate 10000 1 1 * 86400 - 1

def ofMicroseconds (wall : Int) : Except MomentProblem Moment :=
  if wall / second < firstSecond then .error .tooEarly
  else if lastSecond < wall / second then .error .tooLate
  else .ok (universal wall)

def ofCount (count : Int) : Except MomentProblem Moment :=
  ofMicroseconds (count * unitOf (greatestSeconds < count.natAbs))

-- What a number is above the integer below it is brought to microseconds, a half upwards.
def ofNumber : Binary64 → Except MomentProblem Moment
  | .undefined => .error .undefined
  | .infinite negative => .error (if negative then .tooEarly else .tooLate)
  | x =>
      let unit := unitOf (x.exceeds greatestSeconds)
      ofMicroseconds (x.floor * unit + (x.aboveFloor.times unit).nearest)

-- A written number: a count, or a number with a point in it.
inductive Written where
  | count (n : Int)
  | number (x : Binary64)

def countBound : Int := Int.pow 2 63

-- Only a number with a point may have a power of ten behind it.
def written? (text : String) : Option Written :=
  let (negative, rest) := Number.takeSign text.toList
  let digits := rest.takeWhile Char.isDigit
  let count := Binary64.signed negative (Number.ofDigits digits)
  if count < -countBound ∨ countBound ≤ count then none
  else
    match rest.dropWhile Char.isDigit with
    | [] => if digits.isEmpty then none else some (.count count)
    | '.' :: _ => (Number.unsigned? negative rest).map .number
    | _ => none

def ofWritten : Written → Except MomentProblem Moment
  | .count n => ofCount n
  | .number x => ofNumber x

-- A day alone is a date and nothing behind it. A count that is out of range says so.
def dateProblem (text : String) (found : MomentProblem) : MomentProblem :=
  match written? text with
  | some (.count n) =>
    match ofCount n with
    | .error problem => problem
    | .ok _ => found
  | _ => found

def ofDay (text : String) : Except MomentProblem Moment :=
  match takeDate text with
  | .error problem => .error (dateProblem text problem)
  | .ok (year, month, date, []) => .ok ⟨daysFromDate year month date * day, none⟩
  | .ok _ => .error (dateProblem text .extraCharacters)

-- There is a year zero in the calendar, but no moment in it can be kept.
def keep (moment : Moment) : Checked Moment :=
  if moment.wall < daysFromDate 1 1 1 * day then .fail (.noMoment .yearZero) else .accepted moment

-- A date with a time, a number that counts from 1970, or else a date at midnight.
def checkText (text : String) : Checked Moment :=
  match ofCalendar? text with
  | some moment => keep moment
  | none =>
    match (written? text).map ofWritten with
    | some (.ok moment) => keep moment
    | _ =>
      match ofDay text with
      | .ok moment => keep moment
      | .error problem => .fail (.noDate problem)

def checkCount : Except MomentProblem Moment → Checked Moment
  | .ok moment => keep moment
  | .error problem => .fail (.noMoment problem)

def check : Json → Checked Moment
  | .text text => checkText text
  | .int n => if (Binary64.ofInt n).isFinite then checkCount (ofCount n) else .fail .notMoment
  | .float x => checkCount (ofNumber x)
  | _ => .fail .notMoment

end Moment

-- Readings that are set in advance, in microseconds from the base; after them, one second at a time.
structure Clock where
  ahead : List Int := []
  last : Int := 1704067200000000

namespace Clock

def base : Int := 1704067200000000

def read (clock : Clock) : Moment × Clock :=
  match clock.ahead with
  | offset :: rest => (.universal (base + offset), ⟨rest, base + offset⟩)
  | [] => (.universal (clock.last + Moment.second), ⟨[], clock.last + Moment.second⟩)

end Clock
end BlockCanvas
