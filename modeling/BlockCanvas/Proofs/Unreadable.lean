import BlockCanvas.Proofs.ProgramMap
namespace BlockCanvas

theorem Sketch.IsReadable.back {sketch : Sketch} (readable : sketch.IsReadable) : (sketch.back .finite).IsReadable := by
  obtain ⟨placed, short⟩ := readable
  constructor
  · simpa [IsPlaced, Sketch.back, BlockRecord.back] using placed
  · intro record listed socket n found
    obtain ⟨old, present, rfl⟩ := List.mem_map.mp listed
    rw [BlockRecord.back, Table.get?_map] at found
    obtain ⟨before, stored, same⟩ := Option.map_eq_some_iff.mp found
    cases before with
    | int m =>
        cases same
        exact short old present socket n stored
    | float x =>
        change (if x.isFinite then Value.float x else .null) = .int n at same
        split_ifs at same
    | _ => cases same

namespace Workspace

-- What can be read of the stored programs: all that stand at finite places and hold no number of too many digits, and
-- the list only if all do.
structure ReadsStored (workspace : Workspace) (history : List Exchange) : Prop where
  absent : ∀ id, latest id history = none → workspace.find id = .error (.notFound id)
  found : ∀ id document, latest id history = some document → document.IsReadable → workspace.find id = .ok document.back
  lost : ∀ id document, latest id history = some document → ¬document.IsReadable →
    ∃ error, document.failure? = some error ∧ workspace.find id = .error (.store error)
  listed : (∀ id document, latest id history = some document → document.IsReadable) →
    ∃ items, workspace.list = .ok items ∧ Shelf.Lists (latest · history) items
  unlisted : ∀ id document, latest id history = some document → ¬document.IsReadable →
    ∃ key first error, latest key history = some first ∧ first.failure? = some error ∧
      workspace.list = .error (.store error)
  created : ∀ id document, latest id history = some document → ¬document.IsReadable →
    ⟨.create document.draft, .stored document⟩ ∈ history

end Workspace

theorem Document.failure_of_not_readable {document : Document} (astray : ¬document.IsReadable) :
    ∃ error, document.failure? = some error := by
  rw [IsReadable, ← Sketch.failure?_eq_none_iff] at astray
  exact Option.ne_none_iff_exists'.mp astray

-- Only a creation leaves a program that cannot be read: an update reads the new graph before it is kept.
theorem Served.created_of_not_readable {workspace : Workspace} {history : List Exchange} (path : Served workspace history)
    {id : String} {document : Document} (last : latest id history = some document) (astray : ¬document.IsReadable) :
    ⟨.create document.draft, .stored document⟩ ∈ history := by
  have origin := path.every
    (fun document => document.IsReadable ∨ ⟨.create document.draft, .stored document⟩ ∈ history) (· ∈ history)
    (fun before event written member _ arises => by
      cases arises with
      | created => exact .inr member
      | updated _ readable => exact .inl (Sketch.IsReadable.back readable))
    (fun _ member => member) id document last
  exact origin.resolve_left astray

theorem Served.readsStored {workspace : Workspace} {history : List Exchange} (path : Served workspace history) :
    workspace.ReadsStored history where
  absent := fun _ => path.holds.find_of_absent
  found := fun _ _ => path.holds.find_of_readable
  lost := by
    intro id document last astray
    obtain ⟨error, fails⟩ := Document.failure_of_not_readable astray
    exact ⟨error, fails, path.holds.find_of_failure last fails⟩
  listed := fun readable => ⟨_, path.holds.list_of_readable readable, path.holds.lists⟩
  unlisted := by
    intro id document last astray
    obtain ⟨error, fails⟩ := Document.failure_of_not_readable astray
    exact path.holds.list_of_failure last fails
  created := fun _ _ => path.created_of_not_readable

theorem served_reads_stored {workspace : Workspace} {history : List Exchange} (path : Served workspace history) :
    workspace.ReadsStored history ∧
    ((∀ draft document, ⟨.create draft, .stored document⟩ ∈ history → draft.graph.IsReadable) →
      (∃ items, workspace.list = .ok items) ∧
      ∀ id error, workspace.find id = .error error → error = .notFound id) := by
  have reads := path.readsStored
  refine ⟨reads, ?_⟩
  intro creations
  have readable : ∀ id document, latest id history = some document → document.IsReadable := by
    intro id document last
    by_contra astray
    exact astray (creations document.draft document (reads.created id document last astray))
  constructor
  · obtain ⟨items, list, _⟩ := reads.listed readable
    exact ⟨items, list⟩
  · intro id error failed
    cases last : latest id history with
    | none =>
        rw [reads.absent id last] at failed
        cases failed
        rfl
    | some document =>
        rw [reads.found id document last (readable id document last)] at failed
        cases failed

-- One block at the given place, with one value.
def loneGraph (x value : Binary64) : Sketch :=
  ⟨[⟨"a", "io.write", ⟨x, Binary64.zero⟩, Table.ofRows [("value", .float value)], [], none, none⟩]⟩

theorem loneGraph_valid (x value : Binary64) : (loneGraph x value).Valid := by
  refine ⟨?_, by simp [loneGraph, Sketch.greatestSize], List.nodup_singleton "a"⟩
  intro record listed
  cases List.mem_singleton.mp listed
  exact ⟨by simp, by simp, by simp⟩

theorem loneGraph_reduced {x value : Binary64} (place : x.IsReduced) (own : value.IsReduced) :
    (loneGraph x value).IsReduced := by
  intro record listed
  cases List.mem_singleton.mp listed
  refine ⟨⟨place, Binary64.signedZero_isReduced false⟩, ?_⟩
  intro socket stored found
  simp only [Table.ofRows, List.foldl_cons, List.foldl_nil, Table.get?_put, Table.get?_empty] at found
  split_ifs at found
  cases found
  exact own

def undefinedDraft : Draft := ⟨"undefined", "", 1, loneGraph Binary64.zero .undefined⟩

def farRevision : Revision := ⟨none, none, some (loneGraph (.infinite false) .undefined), none⟩

def farFault : Fault := ⟨[.member "blocks", .item 0, .member "position", .member "x"], .notNumber⟩

theorem loneGraph_far (value : Binary64) : (loneGraph (.infinite false) value).failure? = some (.unreadable [farFault]) := rfl

def undefinedWorkspace : Workspace := (emptyWorkspace.serve (.create undefinedDraft)).1

def undefinedHistory : List Exchange :=
  [⟨.update "gen-1" farRevision, (undefinedWorkspace.serve (.update "gen-1" farRevision)).2⟩, firstExchange undefinedDraft]

-- The update that would move the block away is refused; what stays can be read.
theorem served_reads_stored_undefined :
    (undefinedWorkspace.serve (.update "gen-1" farRevision)).1.ReadsStored undefinedHistory ∧
    (∃ items, (undefinedWorkspace.serve (.update "gen-1" farRevision)).1.list = .ok items) ∧
    (undefinedWorkspace.serve (.update "gen-1" farRevision)).2 = .failed (.store (.unreadable [farFault])) := by
  have created : Call.Accepted (.create undefinedDraft) :=
    Call.accepted_create ⟨by decide, by decide, by decide, loneGraph_valid _ _⟩
      (loneGraph_reduced (Binary64.signedZero_isReduced false) trivial)
  have far : (loneGraph (.infinite false) .undefined).IsReduced := loneGraph_reduced trivial trivial
  have moved : Call.Accepted (.update "gen-1" farRevision) := by
    refine ⟨.request, farRevision.dump Json.float, ?_, by decide +kernel⟩
    simp [Revision.dump, farRevision, Json.ofOption, Json.IsReduced.object_iff, Json.IsReduced.null, far.dump]
  have begun : Served undefinedWorkspace [firstExchange undefinedDraft] := served_firstExchange created (by decide)
  have path : Served (undefinedWorkspace.serve (.update "gen-1" farRevision)).1 undefinedHistory := .call begun moved
  obtain ⟨reads, safe⟩ := served_reads_stored path
  refine ⟨reads, (safe ?_).1, ?_⟩
  · intro draft document member
    simp only [undefinedHistory, firstExchange, List.mem_cons, Exchange.mk.injEq, reduceCtorEq, Call.create.injEq,
      false_and, false_or, List.not_mem_nil, or_false] at member
    rw [member.1]
    exact Sketch.failure?_eq_none_iff.mp rfl
  · obtain ⟨_, data, reduced, checked⟩ := moved
    have reading : (firstDocument undefinedDraft).reading = .ok (firstDocument undefinedDraft).back :=
      Document.reading_of_readable (Sketch.failure?_eq_none_iff.mp rfl)
    have again : ((firstDocument undefinedDraft).back.revised farRevision undefinedWorkspace.now.1).reading =
        .error (.unreadable [farFault]) := Document.reading_of_failure rfl
    rw [begun.holds.serve_update (Revision.valid_of_check checked) (Revision.check_reduces _ data _ reduced checked),
      latest_firstExchange]
    simp only [if_true, reading, again]

def farData : Json :=
  .object [("name", .text "far"), ("graph", .object [("blocks", .list [.object
    [("uuid", .text "a"), ("definition_id", .text "io.write"), ("position", .object [("x", .float (.infinite false))]),
      ("values", .object [("value", .float .undefined)])]])])]

def farDraft : Draft := ⟨"far", "", 1, loneGraph (.infinite false) .undefined⟩

-- A program far out is accepted and stored as it is written, and then neither it nor the list can be read.
theorem far_program_unreadable :
    Draft.check .request farData = .accepted farDraft ∧
    (emptyWorkspace.serve (.create farDraft)).2 = .stored (firstDocument farDraft) ∧
    (emptyWorkspace.serve (.create farDraft)).1.find "gen-1" = .error (.store (.unreadable [farFault])) ∧
    (emptyWorkspace.serve (.create farDraft)).1.list = .error (.store (.unreadable [farFault])) := by
  have accepted : Call.Accepted (.create farDraft) :=
    Call.accepted_create ⟨by decide, by decide, by decide, loneGraph_valid _ _⟩ (loneGraph_reduced trivial trivial)
  exact ⟨by decide +kernel, lost_of_failure accepted (by decide) (loneGraph_far _)⟩

end BlockCanvas
