import BlockCanvas.Http.Route
import BlockCanvas.Settings
namespace BlockCanvas.Http

-- What keeps the service from being put together. Of the routes only the last is made then.
inductive AppFault where
  | untitled
  | unversioned
  | mountNotRooted
  | mountTrailing
  | route (fault : RouteFault)
deriving DecidableEq

def RouteFault.message : RouteFault → String
  | .pattern (.unknownShape name) _ => "Unknown path convertor '" ++ name ++ "'"
  | .pattern (.repeated names) path =>
      "Duplicated param name" ++ (if 1 < names.length then "s " else " ") ++ ", ".intercalate names ++
        " at path " ++ path
  | .queryInPath name => "Cannot use `Query` for path param '" ++ name ++ "'"
  | .bodyInPath => "Path params must be of one of the supported types"

def AppFault.message : AppFault → String
  | .untitled => "A title must be provided for OpenAPI, e.g.: 'My API'"
  | .unversioned => "A version must be provided for OpenAPI, e.g.: '2.1.0'"
  | .mountNotRooted => "A path prefix must start with '/'"
  | .mountTrailing => "A path prefix must not end with '/', as the routes will start with '/'"
  | .route fault => fault.message

inductive StartError where
  | settings (error : SettingsError)
  | app (fault : AppFault)
deriving DecidableEq

namespace App

def mountFault? (mount : String) : Option AppFault :=
  if mount = "" then none
  else if mount.toList.head? ≠ some '/' then some .mountNotRooted
  else if mount.toList.getLast? = some '/' then some .mountTrailing
  else none

def fault? (settings : Settings) : Option AppFault :=
  if settings.appName = "" then some .untitled
  else if settings.appVersion = "" then some .unversioned
  else
    match mountFault? settings.mount with
    | some fault => some fault
    | none =>
      match Route.make settings.mount .health with
      | .error fault => some (.route fault)
      | .ok _ => none

-- The settings under which the service starts.
def start (env : List (String × String)) : Except StartError Settings :=
  match Settings.load env with
  | .error error => .error (.settings error)
  | .ok settings =>
    match fault? settings with
    | some fault => .error (.app fault)
    | none => .ok settings

end App
end BlockCanvas.Http
