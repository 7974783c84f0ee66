import BlockCanvas.Http.App
import BlockCanvas.Number.Reading
import BlockCanvas.Text.Shown
namespace BlockCanvas

-- What the command line asks for. A value can also be taken away.
structure LaunchOptions where
  host : Option String := some "0.0.0.0"
  port : Option Int := some 8000
  logLevel : Option String := some "info"
  reload : Bool := true
  accessLog : Bool := true
  debug : Option Bool := none
deriving DecidableEq

-- The options a command line can name. A switch has a form that turns it off.
inductive LaunchOption where
  | help
  | host
  | port
  | logLevel
  | reload
  | accessLog
  | debug
deriving DecidableEq

namespace LaunchOption

def spellings : List (String × LaunchOption) :=
  [("-h", .help), ("--help", .help), ("--host", .host), ("--port", .port), ("--log-level", .logLevel),
    ("--reload", .reload), ("--no-reload", .reload), ("--access-log", .accessLog),
    ("--no-access-log", .accessLog), ("--debug", .debug), ("--no-debug", .debug)]

-- All spellings of an option, as messages name it.
def title (option : LaunchOption) : String :=
  "/".intercalate ((spellings.filter fun row => row.2 = option).map Prod.fst)

def takesValue : LaunchOption → Bool
  | .host => true
  | .port => true
  | .logLevel => true
  | _ => false

end LaunchOption

-- How a command line ends before anything is started.
inductive LaunchStop where
  | help
  | ambiguous (argument : String) (options : List String)
  | needsValue (option : LaunchOption)
  | noValueTaken (option : LaunchOption) (given : String)
  | badPort (given : String)
  | unrecognized (arguments : List String)
deriving DecidableEq

namespace LaunchStop

def exitCode : LaunchStop → Nat
  | .help => 0
  | _ => 2

def message : LaunchStop → String
  | .help => ""
  | .ambiguous argument options =>
      "ambiguous option: " ++ argument ++ " could match " ++ ", ".intercalate options
  | .needsValue option => "argument " ++ option.title ++ ": expected one argument"
  | .noValueTaken option given =>
      "argument " ++ option.title ++ ": ignored explicit argument " ++ Text.shown given
  | .badPort given => "argument --port: invalid int value: " ++ Text.shown given
  | .unrecognized arguments => "unrecognized arguments: " ++ " ".intercalate arguments

end LaunchStop

namespace Launch

-- An argument on its own: a plain value, an option under one of its spellings, perhaps with a value
-- of its own, or something that looks like an option and is none.
inductive Argument where
  | plain (text : String)
  | option (option : LaunchOption) (spelling : String) (value : Option String)
  | unknown (text : String)
deriving DecidableEq

def splitValue (text : List Char) : List Char × Option (List Char) :=
  match text.dropWhile fun c => c ≠ '=' with
  | [] => (text, none)
  | _ :: value => (text.takeWhile fun c => c ≠ '=', some value)

-- A minus, then digits, perhaps with a point before or among them and digits behind it. A line break
-- may follow.
def isNegativeNumber (text : List Char) : Bool :=
  let line := if text.getLast? = some '\n' then text.dropLast else text
  match line with
  | '-' :: rest =>
    match rest.dropWhile Text.isDecimal with
    | [] => !rest.isEmpty
    | '.' :: digits => !digits.isEmpty && digits.all Text.isDecimal
    | _ => false
  | _ => false

-- A long option may be cut short. A short one may carry its value without a mark.
def candidates (text : List Char) : List (String × LaunchOption × Option String) :=
  match text with
  | '-' :: '-' :: _ =>
      let (start, value) := splitValue text
      (LaunchOption.spellings.filter fun row => start.isPrefixOf row.1.toList).map fun row =>
        (row.1, row.2, value.map String.ofList)
  | _ =>
      (LaunchOption.spellings.filter fun row => row.1.toList = text.take 2).map fun row =>
        (row.1, row.2, some (String.ofList (text.drop 2)))

def classify (text : String) : Except LaunchStop Argument :=
  let chars := text.toList
  let (start, value) := splitValue chars
  if chars.head? ≠ some '-' then .ok (.plain text)
  else
    match Rows.find? text LaunchOption.spellings with
    | some option => .ok (.option option text none)
    | none =>
      if chars.length = 1 then .ok (.plain text)
      else
        match Rows.find? (String.ofList start) LaunchOption.spellings, value with
        | some option, some given => .ok (.option option (String.ofList start) (some (String.ofList given)))
        | _, _ =>
          match candidates chars with
          | [(spelling, option, given)] => .ok (.option option spelling given)
          | [] =>
              if isNegativeNumber chars ∨ ' ' ∈ chars then .ok (.plain text) else .ok (.unknown text)
          | several => .error (.ambiguous text (several.map Prod.fst))

-- After a bare double dash everything is a plain value, and so is the dash itself.
def classifyAll : List String → Except LaunchStop (List Argument)
  | [] => .ok []
  | "--" :: rest => .ok (.unknown "--" :: rest.map .plain)
  | text :: rest => do
      let first ← classify text
      let others ← classifyAll rest
      return first :: others

def isOff (spelling : String) : Bool := "--no-".toList.isPrefixOf spelling.toList

def setSwitch (options : LaunchOptions) (option : LaunchOption) (spelling : String) : LaunchOptions :=
  let on := !isOff spelling
  match option with
  | .reload => { options with reload := on }
  | .accessLog => { options with accessLog := on }
  | .debug => { options with debug := some on }
  | _ => options

def setValue (options : LaunchOptions) (option : LaunchOption) (given : String) :
    Except LaunchStop LaunchOptions :=
  match option with
  | .host => .ok { options with host := some given }
  | .logLevel => .ok { options with logLevel := some given }
  | .port =>
    match Number.integerArgument? given with
    | some port => .ok { options with port := some port }
    | none => .error (.badPort given)
  | _ => .ok options

def clearValue (options : LaunchOptions) : LaunchOption → LaunchOptions
  | .host => { options with host := none }
  | .logLevel => { options with logLevel := none }
  | .port => { options with port := none }
  | _ => options

-- A value that an option carries itself. A double dash there is no value.
def setAttached (options : LaunchOptions) (option : LaunchOption) (given : String) :
    Except LaunchStop LaunchOptions :=
  if given = "--" then .ok (clearValue options option) else setValue options option given

-- Options that take no value. What a short one carries is read as more short options, and help is
-- the only one there is.
def applySwitch (options : LaunchOptions) (option : LaunchOption) (spelling : String) :
    Option String → Except LaunchStop LaunchOptions
  | none => if option = .help then .error .help else .ok (setSwitch options option spelling)
  | some value =>
      let left := if spelling = "-h" then value.toList.dropWhile (· == 'h') else value.toList
      if left.isEmpty ∧ value ≠ "" then .error .help
      else .error (.noValueTaken option (String.ofList left))

-- Options take effect from left to right; the last of repeated ones wins. What no option takes is
-- kept for the end.
def consume (options : LaunchOptions) (extras : List String) :
    List Argument → Except LaunchStop (LaunchOptions × List String)
  | [] => .ok (options, extras)
  | .plain text :: rest => consume options (extras ++ [text]) rest
  | .unknown text :: rest => consume options (extras ++ [text]) rest
  | .option option spelling none :: .plain value :: rest =>
      if option.takesValue then
        match setValue options option value with
        | .ok next => consume next extras rest
        | .error stop => .error stop
      else
        match applySwitch options option spelling none with
        | .ok next => consume next extras (.plain value :: rest)
        | .error stop => .error stop
  | .option option spelling given :: rest =>
      if option.takesValue then
        match given with
        | none => .error (.needsValue option)
        | some value =>
          match setAttached options option value with
          | .ok next => consume next extras rest
          | .error stop => .error stop
      else
        match applySwitch options option spelling given with
        | .ok next => consume next extras rest
        | .error stop => .error stop

def parse (arguments : List String) : Except LaunchStop LaunchOptions := do
  let (options, extras) ← consume {} [] (← classifyAll arguments)
  if extras.isEmpty then return options else .error (.unrecognized extras)

-- The name under which the server finds the service.
def target : String := "backend.app.main:app"

structure Plan where
  options : LaunchOptions
  settings : Settings
deriving DecidableEq

inductive Failure where
  | stopped (stop : LaunchStop)
  | notStarted (error : Http.StartError)
deriving DecidableEq

-- The debug switch is passed on through the environment, where it overrides what was there.
def environment (env : List (String × String)) (debug : Option Bool) : List (String × String) :=
  match debug with
  | none => env
  | some on => Rows.put "BLOCKCODE_DEBUG" (if on then "1" else "0") env

def plan (arguments : List String) (env : List (String × String)) : Except Failure Plan :=
  match parse arguments with
  | .error stop => .error (.stopped stop)
  | .ok options =>
    match Http.App.start (environment env options.debug) with
    | .error error => .error (.notStarted error)
    | .ok settings => .ok ⟨options, settings⟩

end Launch
end BlockCanvas
