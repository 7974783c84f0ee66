import BlockCanvas.Launch
namespace BlockCanvas.Launch

def describeStart : Http.StartError → String
  | .settings (.unreadable field) => SettingsError.unreadableMessage field
  | .settings (.tooDeep list) => SettingsError.tooDeepMessage list
  | .settings (.invalid faults) => "\n".intercalate (faults.map fun fault => fault.cause.message)
  | .app fault => fault.message

def describePlan (plan : Plan) : String :=
  target ++ " on " ++ plan.options.host.getD "no host" ++ ":" ++
    (plan.options.port.map toString).getD "no port" ++ " (log level " ++
    plan.options.logLevel.getD "not set" ++ ")"

-- The variables that settings can be given by.
def variableNames : List String :=
  ["BLOCKCODE_APP_NAME", "BLOCKCODE_APP_VERSION", "BLOCKCODE_DEBUG", "BLOCKCODE_API_PREFIX",
    "BLOCKCODE_DATABASE_URL", "BLOCKCODE_CORS_ORIGINS", "BLOCKCODE_CODE_INDENT"]

def readEnvironment : IO (List (String × String)) := do
  let found ← variableNames.mapM fun name => do
    return (← IO.getEnv name).map fun value => (name, value)
  return found.filterMap id

end BlockCanvas.Launch

open BlockCanvas in
def main (arguments : List String) : IO UInt32 := do
  match Launch.plan arguments (← Launch.readEnvironment) with
  | .ok plan =>
      IO.println (Launch.describePlan plan)
      return 0
  | .error (.stopped stop) =>
      if stop.message ≠ "" then IO.eprintln ("error: " ++ stop.message)
      return stop.exitCode.toUInt32
  | .error (.notStarted error) =>
      IO.eprintln (Launch.describeStart error)
      return 1
