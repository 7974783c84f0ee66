namespace BlockCanvas

-- A step from a piece of data into one of its parts, or to one of the kinds it could be of.
inductive Step where
  | member (name : String)
  | item (index : Nat)
  | kind (name : String)
deriving DecidableEq

-- Why a text or a number names no moment.
inductive MomentProblem where
  | tooShort
  | extraCharacters
  | badYear
  | badMonth
  | badDay
  | badSeparator
  | monthOutOfRange
  | dayOutOfRange
  | tooEarly
  | tooLate
  | yearZero
  | undefined
deriving DecidableEq

def MomentProblem.message : MomentProblem → String
  | .tooShort => "input is too short"
  | .extraCharacters => "unexpected extra characters at the end of the input"
  | .badYear => "invalid character in year"
  | .badMonth => "invalid character in month"
  | .badDay => "invalid character in day"
  | .badSeparator => "invalid date separator, expected `-`"
  | .monthOutOfRange => "month value is outside expected range of 1-12"
  | .dayOutOfRange => "day value is outside expected range"
  | .tooEarly => "dates before 0000 are not supported as unix timestamps"
  | .tooLate => "dates after 9999 are not supported as unix timestamps"
  | .yearZero => "year 0 is out of range"
  | .undefined => "NaN values not permitted"

-- Why a piece of data is not what its place asks for.
inductive Cause where
  | missing
  | notRecord (model : String)
  | notObject
  | notText
  | tooShort (least : Nat)
  | tooLong (most : Nat)
  | notList
  | notTuple
  | notTable
  | notChoice (options : List String)
  | notInteger
  | fractional
  | notFinite
  | beyondWord
  | notIntegerText
  | below (least : Int)
  | above (most : Int)
  | notNumber
  | notNumberText
  | notFlag
  | notFlagText
  | notMoment
  | noMoment (problem : MomentProblem)
  | noDate (problem : MomentProblem)
  | notJson
  | rule (text : String)
deriving DecidableEq

namespace Cause

def code : Cause → String
  | .missing => "missing"
  | .notRecord _ => "model_type"
  | .notObject => "model_attributes_type"
  | .notText => "string_type"
  | .tooShort _ => "string_too_short"
  | .tooLong _ => "string_too_long"
  | .notList => "list_type"
  | .notTuple => "tuple_type"
  | .notTable => "dict_type"
  | .notChoice _ => "enum"
  | .notInteger => "int_type"
  | .fractional => "int_from_float"
  | .notFinite => "finite_number"
  | .beyondWord => "int_parsing_size"
  | .notIntegerText => "int_parsing"
  | .below _ => "greater_than_equal"
  | .above _ => "less_than_equal"
  | .notNumber => "float_type"
  | .notNumberText => "float_parsing"
  | .notFlag => "bool_type"
  | .notFlagText => "bool_parsing"
  | .notMoment => "datetime_type"
  | .noMoment _ => "datetime_parsing"
  | .noDate _ => "datetime_from_date_parsing"
  | .notJson => "json_invalid"
  | .rule _ => "value_error"

-- `'a', 'b' or 'c'`.
def alternatives : List String → String
  | [] => ""
  | [last] => s!"'{last}'"
  | [previous, last] => s!"'{previous}' or '{last}'"
  | first :: rest => s!"'{first}', " ++ alternatives rest

def characters (count : Nat) : String :=
  if count = 1 then "1 character" else toString count ++ " characters"

def message : Cause → String
  | .missing => "Field required"
  | .notRecord model => "Input should be a valid dictionary or instance of " ++ model
  | .notObject => "Input should be a valid dictionary or object to extract fields from"
  | .notText => "Input should be a valid string"
  | .tooShort least => "String should have at least " ++ characters least
  | .tooLong most => "String should have at most " ++ characters most
  | .notList => "Input should be a valid list"
  | .notTuple => "Input should be a valid tuple"
  | .notTable => "Input should be a valid dictionary"
  | .notChoice options => "Input should be " ++ alternatives options
  | .notInteger => "Input should be a valid integer"
  | .fractional => "Input should be a valid integer, got a number with a fractional part"
  | .notFinite => "Input should be a finite number"
  | .beyondWord => "Unable to parse input string as an integer, exceeded maximum size"
  | .notIntegerText => "Input should be a valid integer, unable to parse string as an integer"
  | .below least => "Input should be greater than or equal to " ++ toString least
  | .above most => "Input should be less than or equal to " ++ toString most
  | .notNumber => "Input should be a valid number"
  | .notNumberText => "Input should be a valid number, unable to parse string as a number"
  | .notFlag => "Input should be a valid boolean"
  | .notFlagText => "Input should be a valid boolean, unable to interpret input"
  | .notMoment => "Input should be a valid datetime"
  | .noMoment problem => "Input should be a valid datetime, " ++ problem.message
  | .noDate problem => "Input should be a valid datetime or date, " ++ problem.message
  | .notJson => "JSON decode error"
  | .rule text => "Value error, " ++ text

end Cause

-- A cause and the way to the part that it is about.
structure Fault where
  path : List Step
  cause : Cause
deriving DecidableEq

end BlockCanvas
