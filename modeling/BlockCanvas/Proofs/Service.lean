import BlockCanvas.Proofs.StoredGraph
import BlockCanvas.Workspace
namespace BlockCanvas

-- What can be asked of the stored programs.
inductive Call where
  | create (draft : Draft)
  | update (id : String) (revision : Revision)
  | delete (id : String)
  | find (id : String)
  | list
deriving DecidableEq

inductive Answer where
  | stored (document : Document)
  | removed
  | found (document : Document)
  | listed (items : List ProgramItem)
  | failed (error : ProgramError)
deriving DecidableEq

-- The request has passed its check, and its numbers are doubles, as they are in all data that is read.
def Call.Accepted : Call → Prop
  | .create draft => ∃ origin data, data.IsReduced ∧ Draft.check origin data = .accepted draft
  | .update _ revision => ∃ origin data, data.IsReduced ∧ Revision.check origin data = .accepted revision
  | _ => True

theorem Call.accepted_create {draft : Draft} (valid : draft.Valid) (reduced : draft.graph.IsReduced) :
    Accepted (.create draft) := by
  refine ⟨.request, draft.dump Json.float, ?_, ?_⟩
  · simp [Draft.dump, Draft.dumpMembers, Json.IsReduced.object_iff, Json.IsReduced.text, Json.IsReduced.int, reduced.dump]
  · have checked := valid.check_dump .exact .request
    rwa [Sketch.faults_exact, Sketch.back_exact] at checked

theorem Call.accepted_of_read {room : Nat} {text id : String} {origin : Origin} {data : Json}
    (read : Json.read room text = .ok data) :
    (∀ draft, Draft.check origin data = .accepted draft → Accepted (.create draft)) ∧
      ∀ revision, Revision.check origin data = .accepted revision → Accepted (.update id revision) :=
  ⟨fun _ checked => ⟨origin, data, Json.read_isReduced read, checked⟩,
    fun _ checked => ⟨origin, data, Json.read_isReduced read, checked⟩⟩

-- The graph that comes with a request, if any.
def Call.graph? : Call → Option Sketch
  | .create draft => some draft.graph
  | .update _ revision => revision.graph
  | _ => none

structure Exchange where
  call : Call
  answer : Answer
deriving DecidableEq

-- What an exchange settles about an id: the document that is now stored there, or that there is none.
def Exchange.settles (id : String) : Exchange → Option (Option Document)
  | ⟨.create _, .stored document⟩ => if document.id = id then some (some document) else none
  | ⟨.update key _, .stored document⟩ => if key = id then some (some document) else none
  | ⟨.delete key, .removed⟩ => if key = id then some none else none
  | _ => none

-- What the last successful creation or update of an id returned, unless it was deleted since. The last
-- exchange stands first.
def latest (id : String) (history : List Exchange) : Option Document :=
  (history.findSome? (Exchange.settles id)).join

namespace Workspace

def serve (workspace : Workspace) : Call → Workspace × Answer
  | .create draft =>
    match workspace.create draft with
    | (next, .ok created) => (next, .stored created.value)
    | (next, .error error) => (next, .failed error)
  | .update id revision =>
    match workspace.update id revision with
    | (next, .ok document) => (next, .stored document)
    | (next, .error error) => (next, .failed error)
  | .delete id =>
    match workspace.delete id with
    | (next, .ok _) => (next, .removed)
    | (next, .error error) => (next, .failed error)
  | .find id =>
    match workspace.find id with
    | .ok document => (workspace, .found document)
    | .error error => (workspace, .failed error)
  | .list =>
    match workspace.list with
    | .ok items => (workspace, .listed items)
    | .error error => (workspace, .failed error)

end Workspace

-- A workspace that started empty, with everything it was asked and answered. Identities and times come
-- from outside: either may repeat, and the clock may be set back.
inductive Served : Workspace → List Exchange → Prop where
  | start (catalog : Catalog) (room : Nat) (unit : String) (sources : Sources) :
      Served ⟨catalog, room, unit, Table.empty, sources⟩ []
  | call : Served workspace history → call.Accepted →
      Served (workspace.serve call).1 (⟨call, (workspace.serve call).2⟩ :: history)
  | supply (sources : Sources) : Served workspace history → Served { workspace with sources := sources } history

namespace Document

structure Kept (id : String) (document : Document) : Prop where
  named : document.id = id
  valid : document.draft.Valid
  reduced : document.draft.graph.IsReduced
  created : document.created = .universal document.created.wall
  updated : document.updated = .universal document.updated.wall

def failure? (document : Document) : Option StoreError := document.draft.graph.failure?

def back (document : Document) : Document :=
  { document with draft := { document.draft with graph := document.draft.graph.back .finite } }

def IsReadable (document : Document) : Prop := document.draft.graph.IsReadable

-- The document as it is read back after it was written.
def reading (document : Document) : Except StoreError Document :=
  match document.failure? with
  | some error => .error error
  | none => .ok document.back

theorem reading_eq_ok_iff {document result : Document} :
    document.reading = .ok result ↔ document.IsReadable ∧ document.back = result := by
  rw [IsReadable, ← Sketch.failure?_eq_none_iff, reading, failure?]
  cases document.draft.graph.failure? with
  | none => simp
  | some error => simp

theorem reading_of_readable {document : Document} (readable : document.IsReadable) : document.reading = .ok document.back :=
  reading_eq_ok_iff.mpr ⟨readable, rfl⟩

theorem reading_of_failure {document : Document} {error : StoreError} (fails : document.failure? = some error) :
    document.reading = .error error := by
  rw [reading, fails]

theorem failure_of_reading {document : Document} {error : StoreError} (fails : document.reading = .error error) :
    document.failure? = some error := by
  unfold reading at fails
  split at fails
  · next failure =>
      cases fails
      exact failure
  · cases fails

-- The document after an update, before it is stored.
def revised (document : Document) (revision : Revision) (now : Moment) : Document :=
  ⟨Workspace.revise document.draft revision, document.id, document.created, now⟩

theorem Kept.back {id : String} {document : Document} (kept : Kept id document) : Kept id document.back where
  named := kept.named
  valid := ⟨kept.valid.named, kept.valid.short, kept.valid.description, kept.valid.graph.back .finite⟩
  reduced := kept.reduced.back
  created := kept.created
  updated := kept.updated

theorem Kept.revised {id : String} {document : Document} {revision : Revision} {now : Moment} (kept : Kept id document)
    (valid : revision.Valid) (reduced : ∀ graph, revision.graph = some graph → graph.IsReduced)
    (universal : now = .universal now.wall) : Kept id (document.revised revision now) := by
  obtain ⟨named, short, description, graph⟩ := kept.valid
  refine ⟨kept.named, ⟨?_, ?_, ?_, ?_⟩, ?_, kept.created, universal⟩
  · cases given : revision.name with
    | none => simpa [Document.revised, Workspace.revise, given] using named
    | some name => simpa [Document.revised, Workspace.revise, given] using (valid.name name given).1
  · cases given : revision.name with
    | none => simpa [Document.revised, Workspace.revise, given] using short
    | some name => simpa [Document.revised, Workspace.revise, given] using (valid.name name given).2
  · cases given : revision.description with
    | none => simpa [Document.revised, Workspace.revise, given] using description
    | some text => simpa [Document.revised, Workspace.revise, given] using valid.description text given
  · cases given : revision.graph with
    | none => simpa [Document.revised, Workspace.revise, given] using graph
    | some sketch => simpa [Document.revised, Workspace.revise, given] using valid.graph sketch given
  · cases given : revision.graph with
    | none => simpa [Document.revised, Workspace.revise, given] using kept.reduced
    | some sketch => simpa [Document.revised, Workspace.revise, given] using reduced sketch given

end Document

-- What a document that is written comes from.
inductive Arises (history : List Exchange) : Exchange → Document → Prop where
  | created {id : String} : Arises history ⟨.create draft, .stored ⟨draft, id, now, now⟩⟩ ⟨draft, id, now, now⟩
  | updated {id : String} : latest id history = some existing → (existing.back.revised revision now).IsReadable →
      Arises history ⟨.update id revision, .stored (existing.back.revised revision now).back⟩
        (existing.back.revised revision now).back

theorem latest_cons (id : String) (event : Exchange) (history : List Exchange) :
    latest id (event :: history) = (event.settles id).getD (latest id history) := by
  cases settled : event.settles id <;> simp [latest, settled]

namespace Store

theorem ofDocument_back (document : Document) : ofDocument document.back = ofDocument document := by
  simp only [ofDocument, Document.back, writtenGraph, Sketch.dump_back]

-- An update of what is stored writes the new document and gives back what a later reading of it gives.
theorem update_ofDocument {store : Store} {id : String} {document next : Document}
    (found : store.get? id = some (ofDocument document)) (kept : next.Kept id)
    (created : next.created = document.created) :
    store.update id next =
      match next.reading with
      | .error error => .error error
      | .ok final =>
        if fitsWord next.draft.schemaVersion = false then .error .beyondWord
        else .ok (some (final, store.put id (ofDocument final))) := by
  have written : { ofDocument next with created := (ofDocument document).created } = ofDocument next := by
    simp [ofDocument, created]
  have graph : readGraph (ofDocument next).graph = _ := readGraph_writtenGraph kept.valid.graph kept.reduced
  have early : Moment.universal (ofDocument document).created = next.created := by
    rw [kept.created, created]
    rfl
  have late : next.updated.assumeUniversal = next.updated := by
    rw [kept.updated]
    rfl
  have again : ofDocument next.back = ofDocument next := ofDocument_back next
  cases kept.named
  simp only [update, found, written, graph, early, late, Document.reading, Document.failure?]
  cases next.draft.graph.failure? with
  | some error => rfl
  | none =>
      cases fits : fitsWord next.draft.schemaVersion with
      | false => rfl
      | true => simp only [again]; rfl

theorem read_ofDocument {id : String} {document : Document} (kept : document.Kept id) :
    read id (ofDocument document) = document.reading := by
  have graph := readGraph_writtenGraph kept.valid.graph kept.reduced
  have created := kept.created
  have updated := kept.updated
  cases kept.named
  simp only [read, ofDocument, graph, Document.reading, Document.failure?, ← created, ← updated]
  cases document.draft.graph.failure? <;> rfl

theorem latestFirst_sorted (store : Store) :
    store.latestFirst.Pairwise fun left right => right.2.updated ≤ left.2.updated := by
  have sorted : store.latestFirst.Pairwise fun left right => decide (right.2.updated ≤ left.2.updated) = true := by
    apply List.pairwise_mergeSort
    · intro first second third before after
      simp only [decide_eq_true_eq] at before after ⊢
      omega
    · intro first second
      simp only [Bool.or_eq_true, decide_eq_true_eq]
      omega
  exact sorted.imp of_decide_eq_true

theorem mapM_read {rows : List (String × Stored)} {known : String × Stored → Option Document}
    (reads : ∀ row ∈ rows, ∃ document, known row = some document ∧ read row.1 row.2 = .ok document.back) :
    rows.mapM (fun row => read row.1 row.2) = .ok ((rows.filterMap known).map Document.back) := by
  induction rows with
  | nil => rfl
  | cons row rest ih =>
      obtain ⟨⟨document, named, this⟩, later⟩ := List.forall_mem_cons.mp reads
      rw [List.mapM_cons, this, ih later, List.filterMap_cons_some named]
      rfl

-- Of several readings that fail one is reported.
theorem mapM_read_error {rows : List (String × Stored)} {row : String × Stored} {error : StoreError}
    (listed : row ∈ rows) (fails : read row.1 row.2 = .error error) :
    ∃ first ∈ rows, ∃ problem, read first.1 first.2 = .error problem ∧
      rows.mapM (fun row => read row.1 row.2) = .error problem := by
  induction rows with
  | nil => cases listed
  | cons head rest ih =>
      cases reading : read head.1 head.2 with
      | error problem =>
          refine ⟨head, List.mem_cons_self, problem, reading, ?_⟩
          rw [List.mapM_cons, reading]
          rfl
      | ok document =>
          have later : row ∈ rest := by
            rcases List.mem_cons.mp listed with rfl | later
            · rw [fails] at reading
              cases reading
            · exact later
          obtain ⟨first, member, problem, reads, failed⟩ := ih later
          refine ⟨first, List.mem_cons_of_mem head member, problem, reads, ?_⟩
          rw [List.mapM_cons, reading, failed]
          rfl

end Store

namespace Workspace

-- The store agrees with the history: under each id stands what the last answer about it says.
structure Holds (workspace : Workspace) (history : List Exchange) : Prop where
  stored : ∀ id, workspace.store.get? id = (latest id history).map Store.ofDocument
  kept : ∀ id document, latest id history = some document → document.Kept id

variable {workspace next : Workspace} {history : List Exchange} {id : String} {document : Document}

theorem now_universal (workspace : Workspace) : workspace.now.1 = .universal workspace.now.1.wall := by
  unfold now Clock.read
  cases workspace.sources.clock.ahead <;> rfl

theorem serve_create (workspace : Workspace) (draft : Draft) :
    workspace.serve (.create draft) =
      let document : Document := ⟨draft, workspace.newId.1, workspace.now.1, workspace.now.1⟩
      let next := workspace.now.2.newId.2
      if Store.fitsWord draft.schemaVersion = false then (next, .failed (.store .beyondWord))
      else if workspace.store.contains document.id then (next, .failed (.store .occupied))
      else ({ next with store := workspace.store.put document.id (Store.ofDocument document) }, .stored document) := by
  cases fits : Store.fitsWord draft.schemaVersion with
  | false => simp [serve, create, Store.create, now, newId, fits]
  | true =>
      cases taken : workspace.store.contains workspace.newId.1 with
      | true =>
          simp only [newId] at taken
          simp [serve, create, Store.create, now, newId, fits, taken]
      | false =>
          simp only [newId] at taken
          simp [serve, create, Store.create, now, newId, fits, taken]

theorem Holds.contains_eq (holds : workspace.Holds history) (id : String) :
    workspace.store.contains id = (latest id history).isSome := by
  rw [Table.contains, holds.stored, Option.isSome_map]

theorem Holds.find_eq (holds : workspace.Holds history) (id : String) :
    workspace.find id =
      match latest id history with
      | none => .error (.notFound id)
      | some document => document.reading.mapError .store := by
  have stored := holds.stored id
  cases last : latest id history with
  | none => simp [find, Store.find, stored, last]
  | some document =>
      have read := Store.read_ofDocument (holds.kept id document last)
      simp only [find, Store.find, stored, last, Option.map_some, read]
      cases document.reading <;> rfl

theorem Holds.find_of_absent (holds : workspace.Holds history) (last : latest id history = none) :
    workspace.find id = .error (.notFound id) := by
  rw [holds.find_eq, last]

theorem Holds.find_of_readable (holds : workspace.Holds history) (last : latest id history = some document)
    (readable : document.IsReadable) : workspace.find id = .ok document.back := by
  rw [holds.find_eq, last]
  exact congrArg (Except.mapError _) (Document.reading_of_readable readable)

theorem Holds.find_of_failure (holds : workspace.Holds history) {error : StoreError} (last : latest id history = some document)
    (fails : document.failure? = some error) : workspace.find id = .error (.store error) := by
  rw [holds.find_eq, last]
  exact congrArg (Except.mapError _) (Document.reading_of_failure fails)

theorem update_of_find {revision : Revision} {existing : Document} (found : workspace.find id = .ok existing) :
    workspace.update id revision =
      match workspace.store.update id (existing.revised revision workspace.now.1) with
      | .error error => (workspace.now.2, .error (.store error))
      | .ok none => (workspace.now.2, .error (.notFound id))
      | .ok (some (document, store)) => ({ workspace.now.2 with store := store }, .ok document) := by
  rw [update, found]
  rfl

theorem Holds.serve_update (holds : workspace.Holds history) {revision : Revision} (valid : revision.Valid)
    (reduced : ∀ graph, revision.graph = some graph → graph.IsReduced) :
    workspace.serve (.update id revision) =
      match latest id history with
      | none => (workspace, .failed (.notFound id))
      | some document =>
        match document.reading with
        | .error error => (workspace, .failed (.store error))
        | .ok existing =>
          let next := existing.revised revision workspace.now.1
          match next.reading with
          | .error error => (workspace.now.2, .failed (.store error))
          | .ok final =>
            if Store.fitsWord next.draft.schemaVersion = false then (workspace.now.2, .failed (.store .beyondWord))
            else ({ workspace.now.2 with store := workspace.store.put id (Store.ofDocument final) }, .stored final) := by
  have found := holds.find_eq id
  cases last : latest id history with
  | none =>
      simp only [last] at found
      simp [serve, update, found]
  | some document =>
      simp only [last] at found
      cases read : document.reading with
      | error error =>
          simp only [read, Except.mapError] at found
          simp [serve, update, found, read]
      | ok existing =>
          simp only [read, Except.mapError] at found
          have stored : workspace.store.get? id = some (Store.ofDocument document) := by
            rw [holds.stored, last, Option.map_some]
          obtain ⟨_, rfl⟩ := Document.reading_eq_ok_iff.mp read
          have kept := (holds.kept id document last).back.revised valid reduced workspace.now_universal
          simp only [serve, update_of_find found, Store.update_ofDocument stored kept rfl, read]
          cases (document.back.revised revision workspace.now.1).reading with
          | error error => rfl
          | ok final =>
              cases Store.fitsWord (document.back.revised revision workspace.now.1).draft.schemaVersion <;> rfl

theorem Holds.serve_delete (holds : workspace.Holds history) (id : String) :
    workspace.serve (.delete id) =
      match latest id history with
      | none => (workspace, .failed (.notFound id))
      | some _ => ({ workspace with store := workspace.store.erase id }, .removed) := by
  simp only [serve, delete, holds.contains_eq]
  cases latest id history <;> rfl

-- What a call does to the store, and what its answer settles.
inductive Effect (workspace : Workspace) (history : List Exchange) (next : Workspace) (event : Exchange) : Prop where
  | quiet : next.store = workspace.store → (∀ id, event.settles id = none) → Effect workspace history next event
  | wrote (key : String) (document : Document) : Arises history event document → document.Kept key →
      next.store = workspace.store.put key (Store.ofDocument document) →
      (∀ id, event.settles id = if key = id then some (some document) else none) →
      Effect workspace history next event
  | erased (key : String) : next.store = workspace.store.erase key →
      (∀ id, event.settles id = if key = id then some none else none) → Effect workspace history next event

theorem effect_create {draft : Draft} (valid : draft.Valid) (reduced : draft.graph.IsReduced) :
    workspace.Effect history (workspace.serve (.create draft)).1 ⟨.create draft, (workspace.serve (.create draft)).2⟩ := by
  rw [serve_create]
  dsimp only
  split_ifs with wide taken
  · exact .quiet rfl fun _ => rfl
  · exact .quiet rfl fun _ => rfl
  · exact .wrote _ _ .created ⟨rfl, valid, reduced, workspace.now_universal, workspace.now_universal⟩ rfl fun _ => rfl

theorem Holds.effect_update (holds : workspace.Holds history) {revision : Revision} (valid : revision.Valid)
    (reduced : ∀ graph, revision.graph = some graph → graph.IsReduced) :
    workspace.Effect history (workspace.serve (.update id revision)).1
      ⟨.update id revision, (workspace.serve (.update id revision)).2⟩ := by
  rw [holds.serve_update valid reduced]
  cases last : latest id history with
  | none => exact .quiet rfl fun _ => rfl
  | some document =>
      dsimp only
      cases read : document.reading with
      | error error => exact .quiet rfl fun _ => rfl
      | ok existing =>
          obtain ⟨_, rfl⟩ := Document.reading_eq_ok_iff.mp read
          dsimp only
          cases again : (document.back.revised revision workspace.now.1).reading with
          | error error => exact .quiet rfl fun _ => rfl
          | ok final =>
              obtain ⟨readable, rfl⟩ := Document.reading_eq_ok_iff.mp again
              have kept := ((holds.kept id document last).back.revised valid reduced workspace.now_universal).back
              dsimp only
              split_ifs with wide
              · exact .quiet rfl fun _ => rfl
              · exact .wrote id _ (.updated last readable) kept rfl fun _ => rfl

theorem Holds.effect (holds : workspace.Holds history) {call : Call}
    (accepted : call.Accepted) :
    workspace.Effect history (workspace.serve call).1 ⟨call, (workspace.serve call).2⟩ := by
  cases call with
  | create draft =>
      obtain ⟨origin, data, reduced, checked⟩ := accepted
      exact effect_create (Draft.valid_of_check checked) (Draft.check_reduces origin data draft reduced checked)
  | update id revision =>
      obtain ⟨origin, data, reduced, checked⟩ := accepted
      exact holds.effect_update (Revision.valid_of_check checked) (Revision.check_reduces origin data revision reduced checked)
  | delete id =>
      rw [holds.serve_delete]
      cases latest id history with
      | none => exact .quiet rfl fun _ => rfl
      | some document => exact .erased id rfl fun _ => rfl
  | find id =>
      simp only [serve]
      cases workspace.find id <;> exact .quiet rfl fun _ => rfl
  | list =>
      simp only [serve]
      cases workspace.list <;> exact .quiet rfl fun _ => rfl

theorem Holds.after {event : Exchange} (holds : workspace.Holds history) (effect : workspace.Effect history next event) :
    next.Holds (event :: history) := by
  cases effect with
  | quiet store settles =>
      have last : ∀ id, latest id (event :: history) = latest id history := by
        intro id
        rw [latest_cons, settles]
        rfl
      refine ⟨?_, ?_⟩
      · intro id
        rw [store, last, holds.stored]
      · intro id document found
        rw [last] at found
        exact holds.kept id document found
  | wrote key document arises kept store settles =>
      have last : ∀ id, latest id (event :: history) = if key = id then some document else latest id history := by
        intro id
        rw [latest_cons, settles]
        split_ifs <;> rfl
      refine ⟨?_, ?_⟩
      · intro id
        rw [store, Table.get?_put, last, holds.stored]
        split_ifs <;> rfl
      · intro id other found
        rw [last] at found
        split_ifs at found with same
        · cases found
          cases same
          exact kept
        · exact holds.kept id other found
  | erased key store settles =>
      have last : ∀ id, latest id (event :: history) = if key = id then none else latest id history := by
        intro id
        rw [latest_cons, settles]
        split_ifs <;> rfl
      refine ⟨?_, ?_⟩
      · intro id
        rw [store, Table.get?_erase, last, holds.stored]
        split_ifs <;> rfl
      · intro id other found
        rw [last] at found
        split_ifs at found
        exact holds.kept id other found

end Workspace

theorem Served.holds {workspace : Workspace} {history : List Exchange} (path : Served workspace history) :
    workspace.Holds history := by
  induction path with
  | start catalog room unit sources => exact ⟨fun _ => rfl, nofun⟩
  | call path accepted ih => exact ih.after (ih.effect accepted)
  | supply sources path ih => exact ⟨ih.stored, ih.kept⟩

-- What every written document keeps, as long as the events are of one kind, every stored document has.
theorem Served.every {workspace : Workspace} {history : List Exchange} (path : Served workspace history)
    (HasIt : Document → Prop) (OfKind : Exchange → Prop)
    (step : ∀ history event document, OfKind event → (∀ id stored, latest id history = some stored → HasIt stored) →
      Arises history event document → HasIt document)
    (kind : ∀ event ∈ history, OfKind event) (id : String) (document : Document)
    (found : latest id history = some document) : HasIt document := by
  induction path generalizing id document with
  | start catalog room unit sources => cases found
  | supply sources path ih => exact ih kind id document found
  | @call workspace history call path accepted ih =>
      obtain ⟨this, before⟩ := List.forall_mem_cons.mp kind
      rw [latest_cons] at found
      cases path.holds.effect accepted with
      | quiet store settles =>
          rw [settles] at found
          exact ih before id document found
      | wrote key written arises kept store settles =>
          rw [settles] at found
          split_ifs at found
          · cases found
            exact step _ _ _ this (ih before) arises
          · exact ih before id document found
      | erased key store settles =>
          rw [settles] at found
          split_ifs at found
          · cases found
          · exact ih before id document found

namespace Workspace
variable {workspace : Workspace} {history : List Exchange} {id : String} {document : Document} {row : String × Stored}

-- The documents the history leaves, in the order in which they are listed.
def documents (workspace : Workspace) (history : List Exchange) : List Document :=
  workspace.store.latestFirst.filterMap fun row => latest row.1 history

theorem Holds.row_written (holds : workspace.Holds history) (listed : row ∈ workspace.store.latestFirst) :
    ∃ document, latest row.1 history = some document ∧ row.2 = Store.ofDocument document := by
  have found := holds.stored row.1
  rw [Table.mem_rows_iff.mp (List.mem_mergeSort.mp listed)] at found
  obtain ⟨document, last, written⟩ := Option.map_eq_some_iff.mp found.symm
  exact ⟨document, last, written.symm⟩

theorem Holds.row_reading (holds : workspace.Holds history) (listed : row ∈ workspace.store.latestFirst) :
    ∃ document, latest row.1 history = some document ∧ Store.read row.1 row.2 = document.reading := by
  obtain ⟨document, last, written⟩ := holds.row_written listed
  have read := Store.read_ofDocument (holds.kept row.1 document last)
  rw [← written] at read
  exact ⟨document, last, read⟩

theorem Holds.mem_latestFirst (holds : workspace.Holds history) (last : latest id history = some document) :
    (id, Store.ofDocument document) ∈ workspace.store.latestFirst := by
  have stored := holds.stored id
  rw [last] at stored
  exact List.mem_mergeSort.mpr (Table.mem_rows_iff.mpr stored)

theorem Holds.mem_documents_iff (holds : workspace.Holds history) :
    document ∈ workspace.documents history ↔ latest document.id history = some document := by
  unfold documents
  rw [List.mem_filterMap]
  constructor
  · rintro ⟨row, listed, last⟩
    rw [(holds.kept row.1 document last).named]
    exact last
  · intro last
    exact ⟨(document.id, Store.ofDocument document), holds.mem_latestFirst last, last⟩

theorem Holds.documents_distinct (holds : workspace.Holds history) :
    ((workspace.documents history).map Document.id).Nodup := by
  have sorted : (workspace.store.latestFirst.map Prod.fst).Nodup :=
    ((List.mergeSort_perm _ _).map Prod.fst).nodup_iff.mpr workspace.store.distinct
  rw [List.Nodup, List.pairwise_map] at sorted ⊢
  refine List.pairwise_filterMap.mpr (sorted.imp ?_)
  intro left right apart first firstLast second secondLast
  rwa [(holds.kept left.1 first firstLast).named, (holds.kept right.1 second secondLast).named]

theorem Holds.documents_latestFirst (holds : workspace.Holds history) :
    (workspace.documents history).Pairwise fun earlier later => later.updated.wall ≤ earlier.updated.wall := by
  refine List.pairwise_filterMap.mpr (workspace.store.latestFirst_sorted.imp_of_mem ?_)
  intro left right leftListed rightListed order first firstLast second secondLast
  obtain ⟨_, leftLast, leftWritten⟩ := holds.row_written leftListed
  obtain ⟨_, rightLast, rightWritten⟩ := holds.row_written rightListed
  rw [firstLast] at leftLast
  rw [secondLast] at rightLast
  cases leftLast
  cases rightLast
  rwa [leftWritten, rightWritten] at order

theorem Holds.list_of_readable (holds : workspace.Holds history)
    (readable : ∀ id document, latest id history = some document → document.IsReadable) :
    workspace.list = .ok ((workspace.documents history).map item) := by
  have reads : ∀ row ∈ workspace.store.latestFirst, ∃ document, latest row.1 history = some document ∧
      Store.read row.1 row.2 = .ok document.back := by
    intro row listed
    obtain ⟨document, last, read⟩ := holds.row_reading listed
    exact ⟨document, last, read.trans (Document.reading_of_readable (readable row.1 document last))⟩
  have all : workspace.store.all = .ok ((workspace.documents history).map Document.back) := Store.mapM_read reads
  rw [list, all]
  simp [item, Document.back, Sketch.back, Function.comp_def]

theorem Holds.list_of_failure (holds : workspace.Holds history) {error : StoreError}
    (last : latest id history = some document) (fails : document.failure? = some error) :
    ∃ key first problem, latest key history = some first ∧ first.failure? = some problem ∧
      workspace.list = .error (.store problem) := by
  have listed := holds.mem_latestFirst last
  have read := Store.read_ofDocument (holds.kept id document last)
  rw [Document.reading_of_failure fails] at read
  obtain ⟨row, member, problem, reads, failed⟩ := Store.mapM_read_error listed read
  obtain ⟨first, lastFirst, reading⟩ := holds.row_reading member
  have all : workspace.store.all = .error problem := failed
  refine ⟨row.1, first, problem, lastFirst, Document.failure_of_reading (reading.symm.trans reads), ?_⟩
  rw [list, all]

end Workspace
end BlockCanvas
