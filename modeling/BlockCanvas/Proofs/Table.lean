import BlockCanvas.Table
import Mathlib.Data.List.Induction
namespace BlockCanvas

namespace Rows
variable {α β : Type}

theorem mem_keys_of_mem {key : String} {value : α} {rows : List (String × α)}
    (member : (key, value) ∈ rows) : key ∈ keys rows :=
  List.mem_map.mpr ⟨(key, value), member, rfl⟩

theorem mem_of_find? {key : String} {value : α} {rows : List (String × α)} (found : find? key rows = some value) :
    (key, value) ∈ rows := by
  induction rows with
  | nil => cases found
  | cons row rest ih =>
      rw [find?] at found
      split at found
      · rename_i same
        cases found
        cases same
        exact List.mem_cons_self
      · exact List.mem_cons_of_mem row (ih found)

theorem find?_eq_some_iff {key : String} {value : α} {rows : List (String × α)}
    (distinct : (keys rows).Nodup) : find? key rows = some value ↔ (key, value) ∈ rows := by
  induction rows with
  | nil => simp [find?]
  | cons row rest ih =>
      obtain ⟨fresh, distinct⟩ := List.nodup_cons.mp distinct
      by_cases same : row.1 = key
      · subst key
        rw [find?, if_pos rfl, List.mem_cons]
        constructor
        · intro found
          exact Or.inl (by rw [← Option.some.inj found])
        · rintro (equal | later)
          · rw [← equal]
          · exact absurd (mem_keys_of_mem later) fresh
      · rw [find?, if_neg same, ih distinct, List.mem_cons]
        constructor
        · exact Or.inr
        · rintro (equal | later)
          · exact absurd (by rw [← equal]) same
          · exact later

theorem find?_map (change : α → β) (key : String) (rows : List (String × α)) :
    find? key (rows.map fun row => (row.1, change row.2)) = (find? key rows).map change := by
  induction rows with
  | nil => rfl
  | cons row rest ih =>
      by_cases same : row.1 = key
      · simp [find?, same]
      · simp [find?, same, ih]

theorem find?_filter {test : α → Bool} {key : String} {rows : List (String × α)}
    (distinct : (keys rows).Nodup) :
    find? key (rows.filter fun row => test row.2) = (find? key rows).filter test := by
  induction rows with
  | nil => rfl
  | cons row rest ih =>
      obtain ⟨fresh, distinct⟩ := List.nodup_cons.mp distinct
      have later := ih distinct
      by_cases same : row.1 = key
      · have absent : find? key rest = none := find?_eq_none_iff.mpr (same ▸ fresh)
        by_cases kept : test row.2 = true
        · simp [find?, same, kept, Option.filter]
        · simp [find?, same, kept, later, absent, Option.filter]
      · by_cases kept : test row.2 = true
        · simp [find?, same, kept, later]
        · simp [find?, same, kept, later]

theorem put_put (key : String) (first second : α) (rows : List (String × α)) :
    put key second (put key first rows) = put key second rows := by
  induction rows with
  | nil => simp [put]
  | cons row rest ih =>
      by_cases same : row.1 = key
      · simp [put, same]
      · simp [put, same, ih]

theorem put_of_find? {key : String} {value : α} {rows : List (String × α)}
    (found : find? key rows = some value) : put key value rows = rows := by
  induction rows with
  | nil => cases found
  | cons row rest ih =>
      by_cases same : row.1 = key
      · rw [find?, if_pos same] at found
        rw [put, if_pos same, ← same, ← Option.some.inj found]
      · rw [find?, if_neg same] at found
        rw [put, if_neg same, ih found]

end Rows

namespace Table
variable {α β : Type}

theorem mem_rows_iff {table : Table α} {key : String} {value : α} :
    (key, value) ∈ table.rows ↔ table.get? key = some value :=
  (Rows.find?_eq_some_iff table.distinct).symm

theorem mem_keys_iff {table : Table α} {key : String} :
    key ∈ table.keys ↔ ∃ value, table.get? key = some value := by
  rw [← contains_iff, contains, Option.isSome_iff_exists]

theorem mem_values_iff {table : Table α} {value : α} :
    value ∈ table.values ↔ ∃ key, table.get? key = some value := by
  simp only [values, List.mem_map, Prod.exists, exists_eq_right, mem_rows_iff]

@[simp] theorem get?_map (change : α → β) (table : Table α) (key : String) :
    (table.map change).get? key = (table.get? key).map change :=
  Rows.find?_map change key table.rows

theorem map_eq_self {change : α → α} {table : Table α}
    (same : ∀ key value, table.get? key = some value → change value = value) : table.map change = table := by
  apply ext
  change (table.rows.map fun row => (row.1, change row.2)) = table.rows
  have kept : ∀ row ∈ table.rows, (row.1, change row.2) = id row := by
    intro row member
    rw [same row.1 row.2 (mem_rows_iff.mp member)]
    rfl
  rw [List.map_congr_left kept, List.map_id]

@[simp] theorem get?_filter (test : α → Bool) (table : Table α) (key : String) :
    (table.filter test).get? key = (table.get? key).filter test :=
  Rows.find?_filter table.distinct

@[simp] theorem get?_update (table : Table α) (key : String) (change : α → α) (wanted : String) :
    (table.update key change).get? wanted =
      if key = wanted then (table.get? wanted).map change else table.get? wanted := by
  unfold update
  cases found : table.get? key with
  | none =>
      by_cases same : key = wanted
      · subst wanted
        simp [found]
      · simp [same]
  | some value =>
      by_cases same : key = wanted
      · subst wanted
        simp [found]
      · simp [same]

theorem keys_put_of_mem {table : Table α} {key : String} {value : α} (present : key ∈ table.keys) :
    (table.put key value).keys = table.keys :=
  Rows.keys_put_of_mem present

theorem keys_put_of_not_mem {table : Table α} {key : String} {value : α} (absent : key ∉ table.keys) :
    (table.put key value).keys = table.keys ++ [key] := by
  change Rows.keys (Rows.put key value table.rows) = Rows.keys table.rows ++ [key]
  rw [Rows.put_of_not_mem absent, Rows.keys, List.map_append]
  rfl

@[simp] theorem keys_update (table : Table α) (key : String) (change : α → α) :
    (table.update key change).keys = table.keys := by
  unfold update
  cases found : table.get? key with
  | none => rfl
  | some value => exact keys_put_of_mem (mem_keys_iff.mpr ⟨value, found⟩)

theorem put_put (table : Table α) (key : String) (first second : α) :
    (table.put key first).put key second = table.put key second :=
  ext (Rows.put_put key first second table.rows)

theorem update_put (table : Table α) (key : String) (value : α) (change : α → α) :
    (table.put key value).update key change = table.put key (change value) := by
  simp [update, put_put]

theorem update_update (table : Table α) (key : String) (first second : α → α) :
    (table.update key first).update key second = table.update key fun value => second (first value) := by
  cases found : table.get? key with
  | none => simp [update, found]
  | some value => simp only [update, found, get?_put, if_true, put_put]

theorem update_congr {table : Table α} {key : String} {value : α} {first second : α → α}
    (found : table.get? key = some value) (same : first value = second value) :
    table.update key first = table.update key second := by
  simp only [update, found, same]

theorem update_eq_self {table : Table α} {key : String} {value : α} {change : α → α}
    (found : table.get? key = some value) (same : change value = value) : table.update key change = table := by
  simp only [update, found, same]
  exact ext (Rows.put_of_find? found)

theorem ofRows_concat (rows : List (String × α)) (key : String) (value : α) :
    ofRows (rows ++ [(key, value)]) = (ofRows rows).put key value := by
  simp [ofRows]

-- Distinct rows are taken over as they are.
theorem rows_ofRows {rows : List (String × α)} (distinct : (Rows.keys rows).Nodup) :
    (ofRows rows).rows = rows := by
  induction rows using List.reverseRecOn with
  | nil => rfl
  | append_singleton rows row ih =>
      obtain ⟨key, value⟩ := row
      rw [Rows.keys, List.map_append] at distinct
      obtain ⟨before, _, apart⟩ := List.nodup_append.mp distinct
      have fresh : key ∉ Rows.keys (ofRows rows).rows := by
        rw [ih before]
        intro present
        exact apart key present key (by simp) rfl
      rw [ofRows_concat]
      change Rows.put key value (ofRows rows).rows = _
      rw [Rows.put_of_not_mem fresh, ih before]

theorem ofRows_rows (table : Table α) : ofRows table.rows = table :=
  ext (rows_ofRows table.distinct)

theorem mem_of_get?_ofRows {rows : List (String × α)} {key : String} {value : α}
    (found : (ofRows rows).get? key = some value) : (key, value) ∈ rows := by
  induction rows using List.reverseRecOn with
  | nil => cases found
  | append_singleton rows row ih =>
      rw [ofRows_concat, get?_put] at found
      split_ifs at found with same
      · cases found
        cases same
        simp
      · exact List.mem_append_left _ (ih found)

theorem get?_ofRows {rows : List (String × α)} {key : String} {value : α}
    (distinct : (Rows.keys rows).Nodup) (member : (key, value) ∈ rows) : (ofRows rows).get? key = some value := by
  rw [← mem_rows_iff, rows_ofRows distinct]
  exact member

end Table
end BlockCanvas
