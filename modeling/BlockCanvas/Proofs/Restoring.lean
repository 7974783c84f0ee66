import BlockCanvas.Graph.Restore
import BlockCanvas.Proofs.Edit
import Mathlib.Data.List.Nodup
namespace BlockCanvas.Graph
variable {catalog : Catalog} {records : List BlockRecord} {state : Restoring}

-- The ids that are told of when some of them repeat.

theorem mem_insertSorted {id wanted : String} {ids : List String} : wanted ∈ insertSorted id ids ↔ wanted = id ∨ wanted ∈ ids := by
  induction ids with
  | nil => simp [insertSorted]
  | cons head rest ih =>
      unfold insertSorted
      split_ifs with same before
      · simp [same]
      · simp
      · rw [List.mem_cons, ih, List.mem_cons]
        exact or_left_comm

theorem mem_repeatedIds_iff {ids : List String} {id : String} : id ∈ repeatedIds ids ↔ 1 < ids.count id := by
  have collected : ∀ chosen : List String, id ∈ chosen.foldr insertSorted [] ↔ id ∈ chosen := by
    intro chosen
    induction chosen with
    | nil => rfl
    | cons head rest ih => rw [List.foldr_cons, mem_insertSorted, ih, List.mem_cons]
  rw [repeatedIds, collected, List.mem_filter, decide_eq_true_eq]
  refine and_iff_right_of_imp fun twice => List.count_pos_iff.mp ?_
  omega

theorem repeatedIds_eq_nil_iff {ids : List String} : repeatedIds ids = [] ↔ ids.Nodup := by
  rw [List.eq_nil_iff_forall_not_mem, List.nodup_iff_count_le_one]
  simp only [mem_repeatedIds_iff, Nat.not_lt]

namespace Restoring

-- The record placed, one whose id is taken being passed over.
def placed (catalog : Catalog) (state : Restoring) (record : BlockRecord) : Restoring :=
  match place catalog state record with
  | .ok next => next
  | .error _ => state

theorem placed_eq (catalog : Catalog) (state : Restoring) (record : BlockRecord) :
    placed catalog state record =
      match catalog.get? record.definition with
      | none => state.note (.unknownDefinition record.id record.definition)
      | some definition =>
        match state.graph.add record.id definition record.position with
        | none => state
        | some graph => record.values.rows.foldl (placeValue record.id) { state with graph := graph } := by
  unfold placed place
  cases catalog.get? record.definition with
  | none => rfl
  | some definition =>
      cases added : state.graph.add record.id definition record.position with
      | none => simp only [added]
      | some graph => simp only [added]

theorem place_eq_ok {record : BlockRecord} (fresh : state.graph.get? record.id = none) :
    place catalog state record = .ok (placed catalog state record) := by
  rw [placed_eq]
  unfold place
  cases catalog.get? record.definition with
  | none => rfl
  | some definition =>
      have added : state.graph.add record.id definition record.position = some _ := add_eq_some_iff.mpr ⟨fresh, rfl⟩
      simp only [added]

theorem placeValue_absent {id wanted : String} {row : String × Value} (absent : state.graph.get? wanted = none) :
    (placeValue id state row).graph.get? wanted = none := by
  unfold placeValue attempt
  cases result : state.graph.setValue id row.1 row.2 with
  | error refusal => exact absent
  | ok graph =>
      obtain ⟨_, _, _, _, _, rfl⟩ := setValue_eq_ok_iff.mp result
      simp [absent]

theorem placed_absent {record : BlockRecord} {wanted : String} (absent : state.graph.get? wanted = none)
    (other : record.id ≠ wanted) : (placed catalog state record).graph.get? wanted = none := by
  have values : ∀ (rows : List (String × Value)) (state : Restoring), state.graph.get? wanted = none →
      (rows.foldl (placeValue record.id) state).graph.get? wanted = none := by
    intro rows
    induction rows with
    | nil => exact fun _ absent => absent
    | cons row rest ih => exact fun state absent => ih _ (placeValue_absent absent)
  rw [placed_eq]
  cases catalog.get? record.definition with
  | none => exact absent
  | some definition =>
      dsimp only
      cases added : state.graph.add record.id definition record.position with
      | none => exact absent
      | some graph =>
          refine values record.values.rows _ ?_
          change graph.get? wanted = none
          rw [get?_add added, if_neg other, absent]

-- No id is met a second time, so that none is taken.
theorem foldlM_place (distinct : (records.map BlockRecord.id).Nodup)
    (fresh : ∀ record ∈ records, state.graph.get? record.id = none) :
    records.foldlM (place catalog) state = .ok (records.foldl (placed catalog) state) := by
  induction records generalizing state with
  | nil => rfl
  | cons record rest ih =>
      obtain ⟨apart, distinct⟩ := List.nodup_cons.mp distinct
      rw [List.foldlM_cons, place_eq_ok (fresh record List.mem_cons_self)]
      refine ih distinct ?_
      intro other later
      refine placed_absent (fresh other (List.mem_cons_of_mem record later)) ?_
      intro same
      exact apart (same ▸ List.mem_map_of_mem later)

-- What comes of records with distinct ids.
def ofRecords (catalog : Catalog) (records : List BlockRecord) : Restoring :=
  records.foldl (linkNext (Table.ofRows (records.map fun record => (record.id, record.previous))))
    (records.foldl connectAll (records.foldl (placed catalog) .start))

end Restoring

theorem restore_eq (catalog : Catalog) (records : List BlockRecord) :
    restore catalog records =
      if (records.map BlockRecord.id).Nodup then .ok (.ofRecords catalog records)
      else .error (.repeated (repeatedIds (records.map BlockRecord.id))) := by
  unfold restore
  split
  · rename_i none
    have distinct := repeatedIds_eq_nil_iff.mp none
    rw [if_pos distinct, Restoring.foldlM_place distinct fun _ _ => rfl]
    rfl
  · rename_i some
    rw [if_neg (fun distinct => some (repeatedIds_eq_nil_iff.mpr distinct))]

theorem restore_of_distinct (distinct : (records.map BlockRecord.id).Nodup) :
    restore catalog records = .ok (.ofRecords catalog records) := by
  rw [restore_eq, if_pos distinct]

theorem restore_eq_ok_iff {restored : Restoring} :
    restore catalog records = .ok restored ↔
      (records.map BlockRecord.id).Nodup ∧ .ofRecords catalog records = restored := by
  rw [restore_eq]
  split_ifs with distinct <;> simp [distinct]

theorem restore_eq_error_iff {error : RestoreError} :
    restore catalog records = .error error ↔
      ¬(records.map BlockRecord.id).Nodup ∧ .repeated (repeatedIds (records.map BlockRecord.id)) = error := by
  rw [restore_eq]
  split_ifs with distinct <;> simp [distinct]

end BlockCanvas.Graph
