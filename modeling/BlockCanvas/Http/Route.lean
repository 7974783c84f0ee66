import BlockCanvas.Http.Pattern
import BlockCanvas.Number.Reading
namespace BlockCanvas.Http

-- What the service can be asked for.
inductive Endpoint where
  | listBlocks
  | countCategories
  | getBlock
  | createProgram
  | listPrograms
  | getProgram
  | updateProgram
  | deleteProgram
  | compileProgram
  | compile
  | health
deriving DecidableEq

namespace Endpoint

-- In the order in which a path is compared with them. The routes of a group are made together.
def groups : List (List Endpoint) :=
  [[.listBlocks, .countCategories, .getBlock],
    [.createProgram, .listPrograms, .getProgram, .updateProgram, .deleteProgram, .compileProgram],
    [.compile], [.health]]

def method : Endpoint → String
  | .createProgram => "POST"
  | .updateProgram => "PUT"
  | .deleteProgram => "DELETE"
  | .compileProgram => "POST"
  | .compile => "POST"
  | _ => "GET"

def blockParameter : String := "definition_id"
def programParameter : String := "program_id"

def slot (name : String) : String := "/\x7b" ++ name ++ "\x7d"

-- The path under the mount point.
def path : Endpoint → String
  | .listBlocks => "/blocks"
  | .countCategories => "/blocks/categories"
  | .getBlock => "/blocks" ++ slot blockParameter
  | .createProgram => "/programs"
  | .listPrograms => "/programs"
  | .getProgram => "/programs" ++ slot programParameter
  | .updateProgram => "/programs" ++ slot programParameter
  | .deleteProgram => "/programs" ++ slot programParameter
  | .compileProgram => "/programs" ++ slot programParameter ++ "/compile"
  | .compile => "/compile"
  | .health => "/health"

-- The parameter that names a block or a program.
def subject? : Endpoint → Option String
  | .getBlock => some blockParameter
  | .getProgram => some programParameter
  | .updateProgram => some programParameter
  | .deleteProgram => some programParameter
  | .compileProgram => some programParameter
  | _ => none

-- Names that stand for parts of the query, and of the body.
def queryNames : Endpoint → List String
  | .listBlocks => ["category", "level"]
  | _ => []

def bodyNames : Endpoint → List String
  | .createProgram => ["request"]
  | .updateProgram => ["request"]
  | .compile => ["graph"]
  | _ => []

end Endpoint

structure Route where
  pattern : Pattern
  endpoint : Endpoint

inductive RouteFault where
  | pattern (fault : PatternFault) (path : String)
  | queryInPath (name : String)
  | bodyInPath
deriving DecidableEq

namespace Route

-- A parameter of the path can be neither a part of the query nor the body.
def make (mount : String) (endpoint : Endpoint) : Except RouteFault Route :=
  match Pattern.read (mount ++ endpoint.path) with
  | .error fault => .error (.pattern fault (mount ++ endpoint.path))
  | .ok pattern =>
      let taken (name : String) : Bool := pattern.visibleNames.contains name
      match endpoint.queryNames.find? taken with
      | some name => .error (.queryInPath name)
      | none => if endpoint.bodyNames.any taken then .error .bodyInPath else .ok ⟨pattern, endpoint⟩

-- The subject of a request, unless it has to be looked for in the query.
def subjectOf (route : Route) (captured : List Captured) : Option String :=
  route.endpoint.subject?.bind fun name =>
    if route.pattern.visibleNames.contains name then
      (captured.find? fun part => part.name = name).map Captured.text
    else none

-- What a path and a method lead to.
inductive Found where
  | route (route : Route) (captured : List Captured)
  | otherMethod
  | nothing

inductive FindFault where
  | route (fault : RouteFault)
  | oversized (fault : Number.Oversized)
deriving DecidableEq

-- A number in a path is converted as soon as the path fits.
def oversized? (captured : List Captured) : Option Nat :=
  ((captured.filter fun part => part.shape = .digits).map fun part => part.text.length).find?
    fun digits => Number.greatestLength < digits

def findAmong (method : String) (path : List Char) (before : Found) :
    List Route → Except FindFault Found
  | [] => .ok before
  | route :: rest =>
    match route.pattern.captured? path with
    | none => findAmong method path before rest
    | some captured =>
      match oversized? captured with
      | some digits => .error (.oversized (.read digits))
      | none =>
          if route.endpoint.method = method then .ok (.route route captured)
          else findAmong method path .otherMethod rest

-- A group is made when the search gets to it, so a fault in it hides what comes behind.
def findIn (mount method : String) (path : List Char) (before : Found) :
    List (List Endpoint) → Except FindFault Found
  | [] => .ok before
  | group :: rest =>
    match group.mapM (make mount) with
    | .error fault => .error (.route fault)
    | .ok routes =>
      match findAmong method path before routes with
      | .ok (.route route captured) => .ok (.route route captured)
      | .ok found => findIn mount method path found rest
      | .error fault => .error fault

def find (mount method path : String) : Except FindFault Found :=
  findIn mount method path.toList .nothing Endpoint.groups

end Route
end BlockCanvas.Http
