import BlockCanvas.Json.Reader
import BlockCanvas.Json.Writer
import BlockCanvas.Store.Document
namespace BlockCanvas

-- One program as the database keeps it: the graph as text, the times without their zone.
structure Stored where
  name : String
  description : String
  schemaVersion : Int
  graph : String
  created : Int
  updated : Int

inductive StoreError where
  | occupied
  | beyondWord
  | undecodable (error : Json.ReadError)
  | unreadable (faults : List Fault)
deriving DecidableEq

def StoreError.beyondWordMessage : String := "Python int too large to convert to SQLite INTEGER"

-- Programs by id, in the order of their creation.
abbrev Store := Table Stored

namespace Store

def fitsWord (n : Int) : Bool := -(Int.pow 2 63) ≤ n && n < Int.pow 2 63

-- There is no spelling for what is not a finite number.
def writtenGraph (sketch : Sketch) : String := (sketch.dump Json.finiteOrNull).write

def ofDocument (document : Document) : Stored :=
  ⟨document.draft.name, document.draft.description, document.draft.schemaVersion,
    writtenGraph document.draft.graph, document.created.wall, document.updated.wall⟩

-- How deep the data of a graph may be nested.
def room : Nat := 960

def readGraph (graph : String) : Except StoreError Sketch :=
  match Json.read room graph with
  | .error error => .error (.undecodable error)
  | .ok data =>
    match Sketch.check .record data with
    | .accepted sketch => .ok sketch
    | .refused faults => .error (.unreadable faults)

-- Times are handed out as universal time.
def read (id : String) (stored : Stored) : Except StoreError Document := do
  let sketch ← readGraph stored.graph
  return ⟨⟨stored.name, stored.description, stored.schemaVersion, sketch⟩, id,
    .universal stored.created, .universal stored.updated⟩

def create (store : Store) (document : Document) : Except StoreError Store :=
  if !fitsWord document.draft.schemaVersion then .error .beyondWord
  else if store.contains document.id then .error .occupied
  else .ok (store.put document.id (ofDocument document))

def find (store : Store) (id : String) : Except StoreError (Option Document) :=
  match store.get? id with
  | none => .ok none
  | some stored => (read id stored).map some

-- The latest change first.
def latestFirst (store : Store) : List (String × Stored) :=
  store.rows.mergeSort fun left right => right.2.updated ≤ left.2.updated

def all (store : Store) : Except StoreError (List Document) :=
  store.latestFirst.mapM fun row => read row.1 row.2

-- The id and the time of creation stay. The new graph is read back before anything is kept.
def update (store : Store) (id : String) (document : Document) :
    Except StoreError (Option (Document × Store)) :=
  match store.get? id with
  | none => .ok none
  | some stored => do
      let written := { ofDocument document with created := stored.created }
      let sketch ← readGraph written.graph
      if !fitsWord document.draft.schemaVersion then .error .beyondWord
      else
        return some (⟨{ document.draft with graph := sketch }, id, .universal stored.created,
          document.updated.assumeUniversal⟩, store.put id written)

end Store
end BlockCanvas
