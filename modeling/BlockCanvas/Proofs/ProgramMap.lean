import BlockCanvas.Proofs.Service
import BlockCanvas.Catalog.Builtin
namespace BlockCanvas

-- Programs by id, as a caller sees them.
abbrev Shelf := String → Option Document

def InWord (n : Int) : Prop := -(Int.pow 2 63) ≤ n ∧ n < Int.pow 2 63

def Call.subject? : Call → Option String
  | .update id _ => some id
  | .delete id => some id
  | .find id => some id
  | _ => none

namespace Shelf

def put (shelf : Shelf) (document : Document) : Shelf :=
  fun id => if document.id = id then some document else shelf id

def drop (shelf : Shelf) (key : String) : Shelf :=
  fun id => if key = id then none else shelf id

-- Every program stands in the list once, the latest change first.
structure Lists (shelf : Shelf) (items : List ProgramItem) : Prop where
  distinct : (items.map ProgramItem.id).Nodup
  complete : ∀ id document, shelf id = some document → ∃ item ∈ items, item.id = id
  exact : ∀ item ∈ items, ∃ document, shelf item.id = some document ∧
    item = ⟨document.id, document.draft.name, document.draft.description, document.draft.schemaVersion,
      document.draft.graph.blocks.length, document.updated⟩
  universal : ∀ item ∈ items, item.updated = .universal item.updated.wall
  latestFirst : items.Pairwise fun earlier later => later.updated.wall ≤ earlier.updated.wall

-- How a map from ids to programs answers a call, and the map that is left. A new id and the time are
-- given from outside.
inductive Answers (shelf : Shelf) (fresh : String) (now : Moment) : Call → Answer → Shelf → Prop where
  | created : InWord draft.schemaVersion → shelf fresh = none →
      Answers shelf fresh now (.create draft) (.stored ⟨draft, fresh, now, now⟩) (shelf.put ⟨draft, fresh, now, now⟩)
  | occupied : InWord draft.schemaVersion → shelf fresh = some document →
      Answers shelf fresh now (.create draft) (.failed (.store .occupied)) shelf
  | createdWide : ¬InWord draft.schemaVersion →
      Answers shelf fresh now (.create draft) (.failed (.store .beyondWord)) shelf
  | updated {id : String} : shelf id = some document → InWord next.draft.schemaVersion →
      next = ⟨⟨revision.name.getD document.draft.name, revision.description.getD document.draft.description,
        revision.schemaVersion.getD document.draft.schemaVersion, revision.graph.getD document.draft.graph⟩,
        id, document.created, now⟩ →
      Answers shelf fresh now (.update id revision) (.stored next) (shelf.put next)
  | updatedWide {id : String} : shelf id = some document →
      ¬InWord (revision.schemaVersion.getD document.draft.schemaVersion) →
      Answers shelf fresh now (.update id revision) (.failed (.store .beyondWord)) shelf
  | removed {id : String} : shelf id = some document → Answers shelf fresh now (.delete id) .removed (shelf.drop id)
  | found {id : String} : shelf id = some document → Answers shelf fresh now (.find id) (.found document) shelf
  | listed : shelf.Lists items → Answers shelf fresh now .list (.listed items) shelf
  | absent {id : String} : call.subject? = some id → shelf id = none →
      Answers shelf fresh now call (.failed (.notFound id)) shelf

end Shelf

-- Finite numbers only, and no whole number of more digits than are converted.
structure Sketch.IsLasting (sketch : Sketch) : Prop where
  finite : sketch.IsFinite
  short : sketch.IsShort

def Call.IsLasting (call : Call) : Prop := ∀ graph, call.graph? = some graph → graph.IsLasting

theorem Store.fitsWord_eq_false_iff {n : Int} : Store.fitsWord n = false ↔ ¬InWord n := by
  simp only [← Bool.not_eq_true, Store.fitsWord, InWord, Bool.and_eq_true, decide_eq_true_eq]

namespace Document
variable {document : Document}

theorem back_of_lasting (lasting : document.draft.graph.IsLasting) : document.back = document := by
  rw [back, lasting.finite.back]

theorem readable_of_lasting (lasting : document.draft.graph.IsLasting) : document.IsReadable :=
  ⟨lasting.finite.1, lasting.short⟩

theorem reading_of_lasting (lasting : document.draft.graph.IsLasting) : document.reading = .ok document :=
  reading_eq_ok_iff.mpr ⟨readable_of_lasting lasting, back_of_lasting lasting⟩

theorem revised_lasting {revision : Revision} (lasting : document.draft.graph.IsLasting)
    (given : ∀ graph, revision.graph = some graph → graph.IsLasting) (now : Moment) :
    (document.revised revision now).draft.graph.IsLasting := by
  change (revision.graph.getD document.draft.graph).IsLasting
  cases new : revision.graph with
  | none => exact lasting
  | some graph => exact given graph new

end Document

-- A call that fails leaves every program as it was, whatever is stored.
theorem Workspace.serve_failed {workspace : Workspace} {call : Call} {error : ProgramError}
    (failed : (workspace.serve call).2 = .failed error) : (workspace.serve call).1.store = workspace.store := by
  cases call with
  | create draft =>
      rw [serve_create] at failed ⊢
      dsimp only at failed ⊢
      split_ifs at failed ⊢ <;> rfl
  | update id revision =>
      simp only [serve] at failed ⊢
      cases found : workspace.find id with
      | error problem => simp [update, found]
      | ok existing =>
          rw [update_of_find found] at failed ⊢
          cases written : workspace.store.update id (existing.revised revision workspace.now.1) with
          | error problem => rfl
          | ok result =>
              cases result with
              | none => rfl
              | some pair => simp [written] at failed
  | delete id =>
      simp only [serve, delete] at failed ⊢
      split_ifs at failed ⊢
      rfl
  | find id =>
      simp only [serve]
      cases workspace.find id <;> rfl
  | list =>
      simp only [serve]
      cases workspace.list <;> rfl

namespace Workspace
variable {workspace : Workspace} {history : List Exchange}

-- Reading gives back what was written, so the workspace answers from its history as the map does.
structure ActsAsMap (workspace : Workspace) (history : List Exchange) : Prop where
  find : ∀ id, workspace.find id =
    match latest id history with
    | some document => .ok document
    | none => .error (.notFound id)
  answers : ∀ call, call.Accepted → call.IsLasting →
    Shelf.Answers (latest · history) workspace.newId.1 workspace.now.1 call (workspace.serve call).2
      (latest · (⟨call, (workspace.serve call).2⟩ :: history))
  failed : ∀ call error, (workspace.serve call).2 = .failed error → (workspace.serve call).1.store = workspace.store
  named : ∀ id document, latest id history = some document → document.id = id
  rechecked : ∀ id document, latest id history = some document →
    ∀ origin, Draft.check origin (document.draft.dump Json.float) = .accepted document.draft

theorem latest_eq_put {event : Exchange} (document : Document)
    (settles : ∀ id, event.settles id = if document.id = id then some (some document) else none) :
    (latest · (event :: history)) = Shelf.put (latest · history) document := by
  funext id
  simp only [latest_cons, settles, Shelf.put]
  split_ifs <;> rfl

theorem Holds.answers_create (holds : workspace.Holds history) (draft : Draft) :
    Shelf.Answers (latest · history) workspace.newId.1 workspace.now.1 (.create draft) (workspace.serve (.create draft)).2
      (latest · (⟨.create draft, (workspace.serve (.create draft)).2⟩ :: history)) := by
  rw [serve_create]
  dsimp only
  split_ifs with wide taken
  · exact .createdWide (Store.fitsWord_eq_false_iff.mp wide)
  · rw [holds.contains_eq, Option.isSome_iff_exists] at taken
    obtain ⟨document, taken⟩ := taken
    rw [Store.fitsWord_eq_false_iff, not_not] at wide
    exact .occupied wide taken
  · rw [latest_eq_put _ fun _ => rfl]
    rw [Store.fitsWord_eq_false_iff, not_not] at wide
    refine .created wide ?_
    simpa [holds.contains_eq] using taken

theorem Holds.answers_update (holds : workspace.Holds history)
    (lasting : ∀ id document, latest id history = some document → document.draft.graph.IsLasting) {id : String}
    {revision : Revision} (valid : revision.Valid) (reduced : ∀ graph, revision.graph = some graph → graph.IsReduced)
    (given : ∀ graph, revision.graph = some graph → graph.IsLasting) :
    Shelf.Answers (latest · history) workspace.newId.1 workspace.now.1 (.update id revision)
      (workspace.serve (.update id revision)).2
      (latest · (⟨.update id revision, (workspace.serve (.update id revision)).2⟩ :: history)) := by
  rw [holds.serve_update valid reduced]
  cases last : latest id history with
  | none => exact .absent rfl last
  | some document =>
      cases (holds.kept id document last).named
      have next := Document.revised_lasting (lasting _ document last) given workspace.now.1
      simp only [Document.reading_of_lasting (lasting _ document last), Document.reading_of_lasting next]
      split_ifs with wide
      · exact .updatedWide last (Store.fitsWord_eq_false_iff.mp wide)
      · rw [latest_eq_put (document.revised revision workspace.now.1) fun _ => rfl]
        rw [Store.fitsWord_eq_false_iff, not_not] at wide
        exact .updated last wide rfl

theorem Holds.answers_delete (holds : workspace.Holds history) (id : String) :
    Shelf.Answers (latest · history) workspace.newId.1 workspace.now.1 (.delete id) (workspace.serve (.delete id)).2
      (latest · (⟨.delete id, (workspace.serve (.delete id)).2⟩ :: history)) := by
  rw [holds.serve_delete]
  cases last : latest id history with
  | none => exact .absent rfl last
  | some document =>
      have dropped : (latest · (⟨.delete id, .removed⟩ :: history)) = Shelf.drop (latest · history) id := by
        funext key
        simp only [latest_cons, Exchange.settles, Shelf.drop]
        split_ifs <;> rfl
      dsimp only
      rw [dropped]
      exact .removed last

theorem Holds.lists (holds : workspace.Holds history) :
    Shelf.Lists (latest · history) ((workspace.documents history).map item) where
  distinct := by
    rw [List.map_map]
    exact holds.documents_distinct
  complete := by
    intro id document found
    cases (holds.kept id document found).named
    exact ⟨item document, List.mem_map_of_mem (holds.mem_documents_iff.mpr found), rfl⟩
  exact := by
    intro entry listed
    obtain ⟨document, member, rfl⟩ := List.mem_map.mp listed
    exact ⟨document, holds.mem_documents_iff.mp member, rfl⟩
  universal := by
    intro entry listed
    obtain ⟨document, member, rfl⟩ := List.mem_map.mp listed
    exact (holds.kept document.id document (holds.mem_documents_iff.mp member)).updated
  latestFirst := List.pairwise_map.mpr holds.documents_latestFirst

theorem Holds.actsAsMap (holds : workspace.Holds history)
    (lasting : ∀ id document, latest id history = some document → document.draft.graph.IsLasting) :
    workspace.ActsAsMap history := by
  have find : ∀ id, workspace.find id =
      match latest id history with
      | some document => .ok document
      | none => .error (.notFound id) := by
    intro id
    cases last : latest id history with
    | none => exact holds.find_of_absent last
    | some document =>
        have own := lasting id document last
        rw [holds.find_of_readable last (Document.readable_of_lasting own), Document.back_of_lasting own]
  refine ⟨find, ?_, fun _ _ => serve_failed, fun id document last => (holds.kept id document last).named, ?_⟩
  · intro call accepted given
    cases call with
    | create draft => exact holds.answers_create draft
    | update id revision =>
        obtain ⟨origin, data, reduced, checked⟩ := accepted
        exact holds.answers_update lasting (Revision.valid_of_check checked)
          (Revision.check_reduces origin data revision reduced checked) given
    | delete id => exact holds.answers_delete id
    | find id =>
        simp only [serve, find]
        cases last : latest id history with
        | none => exact .absent rfl last
        | some document => exact .found last
    | list =>
        have readable : ∀ id document, latest id history = some document → document.IsReadable :=
          fun id document last => Document.readable_of_lasting (lasting id document last)
        simp only [serve, holds.list_of_readable readable]
        exact .listed holds.lists
  · intro id document last origin
    have valid := (holds.kept id document last).valid
    have checked := valid.check_dump .exact origin
    rw [Sketch.faults_exact, Sketch.back_exact] at checked
    exact checked

end Workspace

theorem Served.lasting {workspace : Workspace} {history : List Exchange} (path : Served workspace history)
    (lasting : ∀ exchange ∈ history, exchange.call.IsLasting) (id : String) (document : Document)
    (found : latest id history = some document) : document.draft.graph.IsLasting := by
  refine path.every (fun document => document.draft.graph.IsLasting) (fun exchange => exchange.call.IsLasting) ?_ lasting
    id document found
  intro history exchange document given before arises
  cases arises with
  | created => exact given _ rfl
  | @updated existing revision now id last readable =>
      have next := Document.revised_lasting (before id existing last) given now
      rwa [Document.back_of_lasting (before id existing last), Document.back_of_lasting next]

theorem served_acts_as_map {workspace : Workspace} {history : List Exchange} (path : Served workspace history)
    (lasting : ∀ exchange ∈ history, exchange.call.IsLasting) : workspace.ActsAsMap history :=
  path.holds.actsAsMap (path.lasting lasting)

-- A block with a value of every kind, in an order of its own.
def mixedDraft : Draft :=
  ⟨"mixed", "", 3, ⟨[⟨"a", "literal.text", ⟨.finite true (Nat.pow 2 52 + Nat.pow 2 51) (-52), Binary64.zero⟩,
    Table.ofRows [("z", .int 1), ("y", .float Binary64.one), ("x", .bool true), ("w", .null), ("v", .text "1")],
    [⟨"b", "a", "z"⟩], some "b", none⟩]⟩⟩

def mixedRevision : Revision := ⟨some "renamed", none, none, none⟩

-- The clock is set back before the update.
def mixedStart : Workspace := ⟨Catalog.builtin, Builder.usualRoom, "  ", Table.empty, ⟨{}, ⟨[5, -7], 0⟩⟩⟩

def mixedCreated : Workspace := (mixedStart.serve (.create mixedDraft)).1

def mixedHistory : List Exchange :=
  [⟨.update "gen-1" mixedRevision, (mixedCreated.serve (.update "gen-1" mixedRevision)).2⟩,
    ⟨.create mixedDraft, (mixedStart.serve (.create mixedDraft)).2⟩]

theorem mixedDraft_values {record : BlockRecord} (listed : record ∈ mixedDraft.graph.blocks) {socket : String} {value : Value}
    (found : record.values.get? socket = some value) :
    value ∈ [.int 1, .float Binary64.one, .bool true, .null, .text "1"] := by
  cases List.mem_singleton.mp listed
  simp only [Table.ofRows, List.foldl_cons, List.foldl_nil, Table.get?_put, Table.get?_empty] at found
  split_ifs at found <;> cases found <;> simp

theorem mixedDraft_lasting : mixedDraft.graph.IsLasting := by
  refine ⟨⟨by simp [mixedDraft, Sketch.IsPlaced, Binary64.isFinite, Binary64.zero, Binary64.signedZero], ?_⟩, ?_⟩
  · intro record listed socket x found
    have known := mixedDraft_values listed found
    simp only [List.mem_cons, reduceCtorEq, Value.float.injEq, List.not_mem_nil, or_false, false_or] at known
    rw [known]
    rfl
  · intro record listed socket n found
    have known := mixedDraft_values listed found
    simp only [List.mem_cons, reduceCtorEq, Value.int.injEq, List.not_mem_nil, or_false] at known
    rw [known]
    exact Number.fits_iff.mp (by decide +kernel)

theorem mixedDraft_accepted : Call.Accepted (.create mixedDraft) := by
  apply Call.accepted_create
  · refine ⟨by decide, by decide, by decide, ?_, by decide, by decide⟩
    intro record listed
    cases List.mem_singleton.mp listed
    refine ⟨by decide, by decide, ?_⟩
    intro connection member
    cases List.mem_singleton.mp member
    exact ⟨by decide, by decide, by decide⟩
  · intro record listed
    refine ⟨?_, ?_⟩
    · cases List.mem_singleton.mp listed
      exact ⟨⟨by norm_num, by decide, by decide, .inl (by norm_num)⟩, Binary64.signedZero_isReduced false⟩
    · intro socket value found
      have known := mixedDraft_values listed found
      simp only [List.mem_cons, List.not_mem_nil, or_false] at known
      rcases known with rfl | rfl | rfl | rfl | rfl
      · trivial
      · exact ⟨by norm_num, by decide, by decide, .inl le_rfl⟩
      · trivial
      · trivial
      · trivial

def mixedDocument : Document :=
  ⟨mixedDraft, "gen-1", .universal (Clock.base + 5), .universal (Clock.base + 5)⟩

def mixedUpdate : Document :=
  ⟨{ mixedDraft with name := "renamed" }, "gen-1", .universal (Clock.base + 5), .universal (Clock.base - 7)⟩

theorem served_acts_as_map_mixed :
    (mixedCreated.serve (.update "gen-1" mixedRevision)).1.ActsAsMap mixedHistory ∧
    latest "gen-1" mixedHistory = some mixedUpdate := by
  have renamed : Call.Accepted (.update "gen-1" mixedRevision) :=
    ⟨.request, .object [("name", .text "renamed")], .object (by simp [Json.IsReduced.text]), by decide +kernel⟩
  have begun : Served mixedCreated [⟨.create mixedDraft, (mixedStart.serve (.create mixedDraft)).2⟩] :=
    .call (.start _ _ _ _) mixedDraft_accepted
  have path : Served (mixedCreated.serve (.update "gen-1" mixedRevision)).1 mixedHistory := .call begun renamed
  constructor
  · refine served_acts_as_map path ?_
    intro exchange listed graph given
    simp only [mixedHistory, List.mem_cons, List.not_mem_nil, or_false] at listed
    rcases listed with rfl | rfl
    · cases given
    · cases given
      exact mixedDraft_lasting
  · have created : latest "gen-1" [⟨.create mixedDraft, (mixedStart.serve (.create mixedDraft)).2⟩] = some mixedDocument := by
      decide +kernel
    have answer : (mixedCreated.serve (.update "gen-1" mixedRevision)).2 = .stored mixedUpdate := by
      obtain ⟨_, data, _, checked⟩ := renamed
      have reading : mixedDocument.reading = .ok mixedDocument := Document.reading_of_lasting mixedDraft_lasting
      have again : (mixedDocument.revised mixedRevision mixedCreated.now.1).reading =
          .ok (mixedDocument.revised mixedRevision mixedCreated.now.1) := Document.reading_of_lasting mixedDraft_lasting
      rw [begun.holds.serve_update (Revision.valid_of_check checked) nofun, created]
      simp only [reading, again]
      decide +kernel
    rw [mixedHistory, latest_cons, answer]
    rfl

def emptyWorkspace : Workspace := ⟨Catalog.builtin, Builder.usualRoom, "  ", Table.empty, {}⟩

def firstDocument (draft : Draft) : Document :=
  ⟨draft, "gen-1", .universal (Clock.base + Moment.second), .universal (Clock.base + Moment.second)⟩

def firstExchange (draft : Draft) : Exchange := ⟨.create draft, .stored (firstDocument draft)⟩

theorem emptyWorkspace_create {draft : Draft} (small : Store.fitsWord draft.schemaVersion = true) :
    (emptyWorkspace.serve (.create draft)).2 = .stored (firstDocument draft) := by
  rw [Workspace.serve_create, small]
  rfl

theorem latest_firstExchange (draft : Draft) (id : String) :
    latest id [firstExchange draft] = if "gen-1" = id then some (firstDocument draft) else none := by
  by_cases same : "gen-1" = id <;> simp [latest, firstExchange, Exchange.settles, firstDocument, same]

theorem served_firstExchange {draft : Draft} (accepted : Call.Accepted (.create draft))
    (small : Store.fitsWord draft.schemaVersion = true) :
    Served (emptyWorkspace.serve (.create draft)).1 [firstExchange draft] := by
  have path : Served (emptyWorkspace.serve (.create draft)).1 [⟨.create draft, (emptyWorkspace.serve (.create draft)).2⟩] :=
    .call (.start _ _ _ _) accepted
  rwa [emptyWorkspace_create small] at path

-- A program that cannot be read is stored all the same, and then neither it nor the list can be read.
theorem lost_of_failure {draft : Draft} {error : StoreError} (accepted : Call.Accepted (.create draft))
    (small : Store.fitsWord draft.schemaVersion = true) (fails : draft.graph.failure? = some error) :
    (emptyWorkspace.serve (.create draft)).2 = .stored (firstDocument draft) ∧
    (emptyWorkspace.serve (.create draft)).1.find "gen-1" = .error (.store error) ∧
    (emptyWorkspace.serve (.create draft)).1.list = .error (.store error) := by
  have holds := (served_firstExchange accepted small).holds
  have stored : latest "gen-1" [firstExchange draft] = some (firstDocument draft) := latest_firstExchange draft "gen-1"
  refine ⟨emptyWorkspace_create small, holds.find_of_failure stored fails, ?_⟩
  obtain ⟨key, first, problem, last, failed, list⟩ := holds.list_of_failure stored fails
  rw [latest_firstExchange] at last
  split_ifs at last
  cases last
  have same : some problem = some error := failed.symm.trans fails
  cases same
  exact list

def countDraft (number : Int) : Draft := ⟨"count", "", 1, countSketch number⟩

theorem countDraft_value {number : Int} {record : BlockRecord} (listed : record ∈ (countDraft number).graph.blocks)
    {socket : String} {value : Value} (found : record.values.get? socket = some value) : value = .int number := by
  cases List.mem_singleton.mp listed
  simp only [Table.ofRows, List.foldl_cons, List.foldl_nil, Table.get?_put, Table.get?_empty] at found
  split_ifs at found
  cases found
  rfl

theorem countDraft_accepted (number : Int) : Call.Accepted (.create (countDraft number)) := by
  refine Call.accepted_create ⟨by simp [countDraft], ?_, ?_, countSketch_valid number⟩ ?_
  · change "count".length ≤ greatestNameLength
    decide
  · simp [countDraft]
  · intro record listed
    refine ⟨?_, ?_⟩
    · cases List.mem_singleton.mp listed
      exact ⟨Binary64.signedZero_isReduced false, Binary64.signedZero_isReduced false⟩
    · intro socket value found
      rw [countDraft_value listed found]
      trivial

theorem countDraft_finite (number : Int) : (countDraft number).graph.IsFinite := by
  refine ⟨?_, ?_⟩
  · intro record listed
    cases List.mem_singleton.mp listed
    exact ⟨rfl, rfl⟩
  · intro record listed socket x found
    cases countDraft_value listed found

theorem countSketch_failure {number : Int} (long : Number.fits number = false) :
    (countSketch number).failure? = some (.undecodable (.oversized (.read (Decimal.digits number.natAbs).length))) := by
  have wholes : (countSketch number).wholes = [number] := rfl
  rw [Sketch.failure?, wholes, List.find?_cons_of_pos (by simp [long])]

-- A whole number with one digit more than are converted is accepted and stored, and then lost with all its program.
theorem long_number_lost :
    Call.Accepted (.create (countDraft (10 ^ Number.greatestLength))) ∧
    (countDraft (10 ^ Number.greatestLength)).graph.IsFinite ∧
    (emptyWorkspace.serve (.create (countDraft (10 ^ Number.greatestLength)))).2 =
      .stored (firstDocument (countDraft (10 ^ Number.greatestLength))) ∧
    (emptyWorkspace.serve (.create (countDraft (10 ^ Number.greatestLength)))).1.find "gen-1" =
      .error (.store (.undecodable (.oversized (.read (Number.greatestLength + 1))))) ∧
    (emptyWorkspace.serve (.create (countDraft (10 ^ Number.greatestLength)))).1.list =
      .error (.store (.undecodable (.oversized (.read (Number.greatestLength + 1))))) := by
  have fails := countSketch_failure Number.fits_least
  rw [Int.natAbs_pow, show (10 : Int).natAbs = 10 from rfl, Binary64.length_digits_pow] at fails
  exact ⟨countDraft_accepted _, countDraft_finite _, lost_of_failure (countDraft_accepted _) (by decide) fails⟩

end BlockCanvas
