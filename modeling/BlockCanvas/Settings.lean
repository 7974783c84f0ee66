import BlockCanvas.Check.Basic
import BlockCanvas.Json.Reader
import BlockCanvas.Program.Source
namespace BlockCanvas

structure Settings where
  appName : String := "Blockcode API"
  appVersion : String := "0.1.0"
  debug : Bool := false
  mount : String := "/api"
  databaseUrl : String := "sqlite:///:memory:"
  origins : List String := ["http://localhost:5173", "http://127.0.0.1:5173"]
  indent : String := Source.defaultIndent
deriving DecidableEq

inductive SettingsError where
  | unreadable (field : String)
  | tooDeep (list : Bool)
  | invalid (faults : List Fault)
deriving DecidableEq

def SettingsError.unreadableMessage (field : String) : String :=
  "error parsing value for field \"" ++ field ++ "\" from source \"EnvSettingsSource\""

def SettingsError.tooDeepMessage (list : Bool) : String :=
  "maximum recursion depth exceeded while decoding a JSON " ++ (if list then "array" else "object") ++
    " from a unicode string"

namespace Settings

def variableStart : String := "blockcode_"

-- Besides the capitals, the sign of the kelvin has a plain small letter.
def lowered (c : Char) : Char := if c.toNat = 0x212a then 'k' else c.toLower

-- Names match without regard to case; of several that match the last one counts.
def setting? (env : List (String × String)) (name : String) : Option String :=
  (env.reverse.find? fun row => row.1.map lowered = variableStart ++ name).map Prod.snd

-- How deep the data of a setting may be nested.
def room : Nat := 985

-- The list of origins is written as JSON; a null leaves the default.
def readOrigins (env : List (String × String)) : Except SettingsError (Option Json) :=
  match setting? env "cors_origins" with
  | none => .ok none
  | some text =>
    match Json.read room text with
    | .error (.tooDeep list) => .error (.tooDeep list)
    | .error _ => .error (.unreadable "cors_origins")
    | .ok .null => .ok none
    | .ok data => .ok (some data)

def checkField (name : String) (default : α) (check : Json → Checked α) : Option Json → Checked α
  | none => .accepted default
  | some data => (check data).under (.member name)

def load (env : List (String × String)) : Except SettingsError Settings := do
  let origins ← readOrigins env
  let defaults : Settings := {}
  let text (name default : String) : Checked String := .accepted ((setting? env name).getD default)
  let checked : Checked Settings :=
    Settings.mk <$> text "app_name" defaults.appName
      <*> text "app_version" defaults.appVersion
      <*> checkField "debug" defaults.debug Check.flag ((setting? env "debug").map .text)
      <*> text "api_prefix" defaults.mount
      <*> text "database_url" defaults.databaseUrl
      <*> checkField "cors_origins" defaults.origins (Check.list Check.text) origins
      <*> text "code_indent" defaults.indent
  match checked with
  | .accepted settings => return settings
  | .refused faults => .error (.invalid faults)

def dump (settings : Settings) : Json :=
  .object
    [("app_name", .text settings.appName),
      ("app_version", .text settings.appVersion),
      ("debug", .bool settings.debug),
      ("api_prefix", .text settings.mount),
      ("database_url", .text settings.databaseUrl),
      ("cors_origins", Json.texts settings.origins),
      ("code_indent", .text settings.indent)]

end Settings
end BlockCanvas
