import BlockCanvas.Catalog.Builtin
import BlockCanvas.Http.App
import BlockCanvas.Http.Target
import BlockCanvas.Text.Capital
import BlockCanvas.Workspace
namespace BlockCanvas.Http

inductive Payload where
  | none
  | data (value : Json)
  | text (value : String)

-- A query of its own takes the place of the one in the target.
structure Request where
  method : String
  target : String
  query : Option (List (String × String))
  payload : Payload

inductive Failure where
  | store (error : StoreError)
  | unwritable
  | target (fault : TargetFault)
  | route (fault : RouteFault)
  | oversized (fault : Number.Oversized)
  | compile (error : CompileError)
deriving DecidableEq

def Failure.unwritableMessage : String := "Out of range float values are not JSON compliant"

-- A failure that no rule of the service foresees is passed on as it is.
inductive Reply where
  | content (status : Nat) (body : Json)
  | empty (status : Nat)
  | invalid (faults : List Fault)
  | failed (failure : Failure)

structure Session where
  settings : Settings
  workspace : Workspace

-- What handling a request leads to.
structure Handled where
  session : Session
  reply : Reply
  log : Log

namespace Session

def start (env : List (String × String)) (clock : Clock) : Except StartError Session :=
  (App.start env).map fun settings =>
    ⟨settings, ⟨Catalog.builtin, Builder.usualRoom, settings.indent, Table.empty, { clock := clock }⟩⟩

def detail (status : Nat) (body : Json) : Reply := .content status (.object [("detail", body)])

def notFound : Reply := detail 404 (.text "Not Found")
def notAllowed : Reply := detail 405 (.text "Method Not Allowed")
def unreadableBody : Reply := detail 400 (.text "There was an error parsing the body")

def errorReply : ProgramError → Reply
  | .notFound id => detail 404 (.text (ProgramError.notFoundMessage id))
  | .notCompiled diagnostics => detail 422 (.object [("diagnostics", Json.texts diagnostics)])
  | .halted error => .failed (.compile error)
  | .store error => .failed (.store error)

def documentBody (document : Document) : Json := document.dump Json.finiteOrNull "Z"

-- How deep the data of a body may be nested.
def room : Nat := 960

-- The data of the body, if there is one. Text that is no JSON is invalid; text that breaks a limit,
-- or that is no text in the encoding it seems to have, is turned away.
def bodyData : Payload → Except Reply (Option Json)
  | .none => .ok none
  | .data value => .ok (some value)
  | .text value =>
      if value = "" then .ok none
      else
        match Text.decode (Text.bytesOf value) with
        | none => .error unreadableBody
        | some text =>
          match Json.read room text with
          | .ok data => .ok (some data)
          | .error .malformed => .error (.invalid [⟨[.member "body"], .notJson⟩])
          | .error _ => .error unreadableBody

-- Faults are answered together with what they are about, and only finite numbers can be written.
def refusal (earlier : List Fault) (data : Json) (faults : List Fault) : Reply :=
  if faults.all fun fault => (fault.about data).isFinite then
    .invalid (earlier ++ faults.map fun fault =>
      { fault with path := .member "body" :: fault.path })
  else .failed .unwritable

-- The body is checked before anything is looked up, also if there were faults before it.
def withBody (session : Session) (earlier : List Fault) (payload : Payload)
    (check : Json → Checked α) (act : α → Handled) : Handled :=
  match bodyData payload with
  | .error reply => ⟨session, reply, []⟩
  | .ok none => ⟨session, .invalid (earlier ++ [⟨[.member "body"], .missing⟩]), []⟩
  | .ok (some data) =>
    match check data with
    | .refused faults => ⟨session, refusal earlier data faults, []⟩
    | .accepted value => if earlier.isEmpty then act value else ⟨session, .invalid earlier, []⟩

def queryValue (query : List (String × String)) (name : String) : Option String :=
  (query.reverse.find? fun row => row.1 = name).map Prod.snd

def levelOf (query : List (String × String)) : Checked (Option Int) :=
  match queryValue query "level" with
  | none => .accepted none
  | some text =>
      some <$> (((Check.integerWithin Definition.leastLevel Definition.greatestLevel (.text text)).under
        (.member "level")).under (.member "query"))

def answer (session : Session) (reply : Reply) : Handled := ⟨session, reply, []⟩

def listBlocks (session : Session) (query : List (String × String)) : Handled :=
  match levelOf query with
  | .refused faults => session.answer (.invalid faults)
  | .accepted level =>
      let found := session.workspace.catalog.select (queryValue query "category") level
      session.answer (.content 200 (.list (found.map Definition.dump)))

def getBlock (session : Session) (id : String) : Handled :=
  match session.workspace.catalog.get? id with
  | some definition => session.answer (.content 200 definition.dump)
  | none => session.answer (detail 404 (.text s!"Block definition '{id}' not found"))

def categoryCounts (session : Session) : Handled :=
  session.answer (.content 200 (.object (session.workspace.catalog.categories.map fun row =>
    (row.1, .int row.2))))

def createProgram (session : Session) (draft : Draft) : Handled :=
  let (workspace, outcome) := session.workspace.create draft
  let session := { session with workspace := workspace }
  match outcome with
  | .ok created => ⟨session, .content 201 (documentBody created.value), created.log⟩
  | .error error => session.answer (errorReply error)

def listPrograms (session : Session) : Handled :=
  match session.workspace.list with
  | .ok items => session.answer (.content 200 (.list (items.map ProgramItem.dump)))
  | .error error => session.answer (errorReply error)

def getProgram (session : Session) (id : String) : Handled :=
  match session.workspace.find id with
  | .ok document => session.answer (.content 200 (documentBody document))
  | .error error => session.answer (errorReply error)

def updateProgram (session : Session) (id : String) (revision : Revision) : Handled :=
  let (workspace, outcome) := session.workspace.update id revision
  let session := { session with workspace := workspace }
  match outcome with
  | .ok document => session.answer (.content 200 (documentBody document))
  | .error error => session.answer (errorReply error)

def deleteProgram (session : Session) (id : String) : Handled :=
  let (workspace, outcome) := session.workspace.delete id
  let session := { session with workspace := workspace }
  match outcome with
  | .ok _ => session.answer (.empty 204)
  | .error error => session.answer (errorReply error)

def compiledReply (session : Session) (outcome : Except (Logged ProgramError) (Logged Compiled)) :
    Handled :=
  match outcome with
  | .ok compiled => ⟨session, .content 200 compiled.value.dump, compiled.log⟩
  | .error failure => ⟨session, errorReply failure.value, failure.log⟩

def health (session : Session) : Handled :=
  session.answer (.content 200 (.object
    [("status", .text "ok"),
      ("version", .text session.settings.appVersion),
      ("block_definitions", .int session.workspace.catalog.definitions.length)]))

-- A subject that is not in the path is asked for in the query.
def subject (route : Route) (captured : List Captured) (query : List (String × String)) :
    Checked String :=
  match route.subjectOf captured, route.endpoint.subject? with
  | some id, _ => .accepted id
  | none, none => .accepted ""
  | none, some name =>
    match queryValue query name with
    | some id => .accepted id
    | none => .refused [⟨[.member "query", .member name], .missing⟩]

def dispatch (session : Session) (payload : Payload) (query : List (String × String))
    (subject : Checked String) (endpoint : Endpoint) : Handled :=
  let (earlier, id) := match subject with
    | .accepted id => ([], id)
    | .refused faults => (faults, "")
  if !earlier.isEmpty ∧ endpoint.bodyNames.isEmpty then session.answer (.invalid earlier)
  else
    match endpoint with
    | .listBlocks => session.listBlocks query
    | .countCategories => session.categoryCounts
    | .getBlock => session.getBlock id
    | .createProgram => session.withBody earlier payload (Draft.check .request) session.createProgram
    | .listPrograms => session.listPrograms
    | .getProgram => session.getProgram id
    | .updateProgram =>
        session.withBody earlier payload (Revision.check .request) (session.updateProgram id)
    | .deleteProgram => session.deleteProgram id
    | .compileProgram => session.compiledReply (session.workspace.compileStored id)
    | .compile =>
        session.withBody earlier payload (Sketch.check .request) fun sketch =>
          session.compiledReply (session.workspace.compile none sketch)
    | .health => session.health

-- Debugging keeps every entry of the log, otherwise the lowest level is dropped.
def logLevel (session : Session) : LogLevel :=
  if session.settings.debug then .debug else .info

def route (session : Session) (request : Request) (target : Target) : Handled :=
  match Route.find session.settings.mount (Text.capitals request.method) target.path with
  | .error (.route fault) => session.answer (.failed (.route fault))
  | .error (.oversized fault) => session.answer (.failed (.oversized fault))
  | .ok .nothing => session.answer notFound
  | .ok .otherMethod => session.answer notAllowed
  | .ok (.route route captured) =>
      let query := request.query.getD target.query
      session.dispatch request.payload query (subject route captured query) route.endpoint

-- A request for the head of a reply gets no body.
def headOnly (method : String) (reply : Reply) : Reply :=
  match reply with
  | .content status body =>
      if Text.capitals method = "HEAD" then .empty status else .content status body
  | other => other

def handle (session : Session) (request : Request) : Handled :=
  match Target.read request.target with
  | .error fault => session.answer (.failed (.target fault))
  | .ok target =>
      let handled := session.route request target
      ⟨handled.session, headOnly request.method handled.reply, handled.log.atLeast session.logLevel⟩

def run (session : Session) : List Request → List Reply × Log
  | [] => ([], [])
  | request :: rest =>
      let handled := session.handle request
      let (replies, log) := handled.session.run rest
      (handled.reply :: replies, handled.log ++ log)

end Session
end BlockCanvas.Http
