import BlockCanvas.Compile
import BlockCanvas.Store.Basic
namespace BlockCanvas

-- Why a request about programs fails.
inductive ProgramError where
  | notFound (id : String)
  | notCompiled (diagnostics : List String)
  | halted (error : CompileError)
  | store (error : StoreError)
deriving DecidableEq

def ProgramError.notFoundMessage (id : String) : String := s!"Program '{id}' not found"

-- Stored programs, the catalog they are compiled with, and where new identities come from.
structure Workspace where
  catalog : Catalog
  room : Nat
  unit : String
  store : Store
  sources : Sources

structure ProgramItem where
  id : String
  name : String
  description : String
  schemaVersion : Int
  blockCount : Nat
  updated : Moment
deriving DecidableEq

def ProgramItem.dump (item : ProgramItem) : Json :=
  .object
    [("id", .text item.id),
      ("name", .text item.name),
      ("description", .text item.description),
      ("schema_version", .int item.schemaVersion),
      ("block_count", .int item.blockCount),
      ("updated_at", .text (item.updated.isoText "Z"))]

namespace Workspace

def now (workspace : Workspace) : Moment × Workspace :=
  let (moment, clock) := workspace.sources.clock.read
  (moment, { workspace with sources := { workspace.sources with clock := clock } })

def newId (workspace : Workspace) : String × Workspace :=
  let (id, supply) := workspace.sources.supply.draw
  (id, { workspace with sources := { workspace.sources with supply := supply } })

def createdEntry (document : Document) : LogEntry :=
  let id := document.id
  let count := document.draft.graph.blocks.length
  ⟨.info, .programs, s!"Created program '{id}' ({count} blocks)"⟩

def create (workspace : Workspace) (draft : Draft) :
    Workspace × Except ProgramError (Logged Document) :=
  let (now, workspace) := workspace.now
  let (id, workspace) := workspace.newId
  let document : Document := ⟨draft, id, now, now⟩
  match Store.create workspace.store document with
  | .error error => (workspace, .error (.store error))
  | .ok store => ({ workspace with store := store }, .ok ⟨document, [createdEntry document]⟩)

def find (workspace : Workspace) (id : String) : Except ProgramError Document :=
  match Store.find workspace.store id with
  | .error error => .error (.store error)
  | .ok none => .error (.notFound id)
  | .ok (some document) => .ok document

def item (document : Document) : ProgramItem :=
  ⟨document.id, document.draft.name, document.draft.description, document.draft.schemaVersion,
    document.draft.graph.blocks.length, document.updated⟩

def list (workspace : Workspace) : Except ProgramError (List ProgramItem) :=
  match Store.all workspace.store with
  | .error error => .error (.store error)
  | .ok documents => .ok (documents.map item)

-- What the revision gives replaces what was there.
def revise (draft : Draft) (revision : Revision) : Draft :=
  ⟨revision.name.getD draft.name, revision.description.getD draft.description,
    revision.schemaVersion.getD draft.schemaVersion, revision.graph.getD draft.graph⟩

-- The clock is read only for a program that is there and readable.
def update (workspace : Workspace) (id : String) (revision : Revision) :
    Workspace × Except ProgramError Document :=
  match workspace.find id with
  | .error error => (workspace, .error error)
  | .ok existing =>
      let (now, workspace) := workspace.now
      let updated : Document := ⟨revise existing.draft revision, existing.id, existing.created, now⟩
      match Store.update workspace.store id updated with
      | .error error => (workspace, .error (.store error))
      | .ok none => (workspace, .error (.notFound id))
      | .ok (some (document, store)) => ({ workspace with store := store }, .ok document)

def delete (workspace : Workspace) (id : String) : Workspace × Except ProgramError Unit :=
  if workspace.store.contains id then
    ({ workspace with store := workspace.store.erase id }, .ok ())
  else (workspace, .error (.notFound id))

def failedEntry (program : Option String) (diagnostics : List String) : LogEntry :=
  let name := program.getD "None"
  ⟨.warning, .programs, s!"Compilation of program '{name}' failed: " ++ " | ".intercalate diagnostics⟩

def compile (workspace : Workspace) (program : Option String) (sketch : Sketch) :
    Except (Logged ProgramError) (Logged Compiled) :=
  match compileRecords workspace.catalog workspace.room workspace.unit sketch.blocks with
  | .error ⟨.refused error, log⟩ =>
      .error ⟨.notCompiled [error.message], log ++ [failedEntry program [error.message]]⟩
  | .error ⟨error, log⟩ => .error ⟨.halted error, log⟩
  | .ok compiled =>
      let artifact := compiled.value
      .ok ⟨⟨program, artifact.code, artifact.diagnostics.map Diagnostic.message, artifact.order⟩,
        compiled.log⟩

def compileStored (workspace : Workspace) (id : String) :
    Except (Logged ProgramError) (Logged Compiled) :=
  match workspace.find id with
  | .error error => .error ⟨error, []⟩
  | .ok document => workspace.compile (some document.id) document.draft.graph

end Workspace
end BlockCanvas
