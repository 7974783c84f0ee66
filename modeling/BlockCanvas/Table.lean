namespace BlockCanvas

-- Rows keep the place of their first insertion; a key stands in one row only.
namespace Rows
variable {α β : Type}

def keys (rows : List (String × α)) : List String :=
  rows.map Prod.fst

def find? (key : String) : List (String × α) → Option α
  | [] => none
  | row :: rest => if row.1 = key then some row.2 else find? key rest

-- Replaces the row of the key where it stands, or appends a new one.
def put (key : String) (value : α) : List (String × α) → List (String × α)
  | [] => [(key, value)]
  | row :: rest => if row.1 = key then (key, value) :: rest else row :: put key value rest

def erase (key : String) (rows : List (String × α)) : List (String × α) :=
  rows.filter fun row => row.1 ≠ key

theorem find?_eq_none_iff {key : String} {rows : List (String × α)} :
    find? key rows = none ↔ key ∉ keys rows := by
  induction rows with
  | nil => simp [find?, keys]
  | cons row rest ih =>
      by_cases same : row.1 = key
      · simp [find?, keys, same]
      · simp only [find?, if_neg same, ih, keys, List.map_cons, List.mem_cons, not_or]
        exact ⟨fun absent => ⟨fun equal => same equal.symm, absent⟩, fun both => both.2⟩

theorem keys_put_of_mem {key : String} {value : α} {rows : List (String × α)}
    (present : key ∈ keys rows) : keys (put key value rows) = keys rows := by
  induction rows with
  | nil => simp [keys] at present
  | cons row rest ih =>
      by_cases same : row.1 = key
      · simp [put, keys, same]
      · have later : key ∈ keys rest := by
          simp only [keys, List.map_cons, List.mem_cons] at present
          exact present.resolve_left fun equal => same equal.symm
        simp only [keys] at ih
        simp [put, keys, same, ih later]

theorem put_of_not_mem {key : String} {value : α} {rows : List (String × α)}
    (absent : key ∉ keys rows) : put key value rows = rows ++ [(key, value)] := by
  induction rows with
  | nil => rfl
  | cons row rest ih =>
      simp only [keys, List.map_cons, List.mem_cons, not_or] at absent
      have other : row.1 ≠ key := fun equal => absent.1 equal.symm
      rw [put, if_neg other, ih absent.2, List.cons_append]

theorem distinct_put {key : String} {value : α} {rows : List (String × α)}
    (distinct : (keys rows).Nodup) : (keys (put key value rows)).Nodup := by
  by_cases present : key ∈ keys rows
  · rwa [keys_put_of_mem present]
  · rw [put_of_not_mem present, keys, List.map_append]
    refine List.nodup_append.mpr ⟨distinct, by simp, ?_⟩
    intro left leftMember right rightMember equal
    simp only [List.map_cons, List.map_nil, List.mem_singleton] at rightMember
    subst right left
    exact present leftMember

theorem distinct_erase {key : String} {rows : List (String × α)}
    (distinct : (keys rows).Nodup) : (keys (erase key rows)).Nodup :=
  (List.Sublist.map Prod.fst List.filter_sublist).nodup distinct

theorem find?_put (key : String) (value : α) (rows : List (String × α)) (wanted : String) :
    find? wanted (put key value rows) = if key = wanted then some value else find? wanted rows := by
  induction rows with
  | nil => simp [put, find?]
  | cons row rest ih =>
      by_cases same : row.1 = key
      · by_cases hit : key = wanted
        · simp [put, find?, same, hit]
        · simp [put, find?, same, hit]
      · by_cases hit : row.1 = wanted
        · have other : key ≠ wanted := fun equal => same (hit.trans equal.symm)
          rw [put, if_neg same, find?, if_pos hit, if_neg other, find?, if_pos hit]
        · simp [put, find?, same, hit, ih]

theorem find?_erase (key : String) (rows : List (String × α)) (wanted : String) :
    find? wanted (erase key rows) = if key = wanted then none else find? wanted rows := by
  induction rows with
  | nil => simp [erase, find?]
  | cons row rest ih =>
      simp only [erase] at ih
      by_cases dropped : row.1 = key
      · by_cases hit : key = wanted
        · simpa [erase, find?, dropped, hit] using ih
        · simpa [erase, find?, dropped, hit] using ih
      · by_cases hit : row.1 = wanted
        · have other : key ≠ wanted := fun equal => dropped (hit.trans equal.symm)
          rw [erase, List.filter_cons_of_pos (by simpa using dropped), find?, if_pos hit, if_neg other,
            find?, if_pos hit]
        · simpa [erase, find?, dropped, hit] using ih

end Rows

-- A finite map that remembers insertion order.
structure Table (α : Type) where
  rows : List (String × α)
  distinct : (Rows.keys rows).Nodup
deriving DecidableEq

namespace Table
variable {α β : Type}

@[ext] theorem ext {left right : Table α} (same : left.rows = right.rows) : left = right := by
  cases left
  cases right
  cases same
  rfl

def empty : Table α := ⟨[], List.nodup_nil⟩

instance : Inhabited (Table α) := ⟨empty⟩

def keys (table : Table α) : List String := Rows.keys table.rows

def values (table : Table α) : List α := table.rows.map Prod.snd

def size (table : Table α) : Nat := table.rows.length

def get? (table : Table α) (key : String) : Option α := Rows.find? key table.rows

def contains (table : Table α) (key : String) : Bool := (table.get? key).isSome

def put (table : Table α) (key : String) (value : α) : Table α :=
  ⟨Rows.put key value table.rows, Rows.distinct_put table.distinct⟩

def erase (table : Table α) (key : String) : Table α :=
  ⟨Rows.erase key table.rows, Rows.distinct_erase table.distinct⟩

-- Keys and their places stay; each value is replaced.
def map (change : α → β) (table : Table α) : Table β :=
  ⟨table.rows.map fun row => (row.1, change row.2), by
    have same : Rows.keys (table.rows.map fun row => (row.1, change row.2)) = Rows.keys table.rows := by
      simp [Rows.keys, Function.comp_def]
    rw [same]
    exact table.distinct⟩

-- Keeps the rows whose value passes the test.
def filter (test : α → Bool) (table : Table α) : Table α :=
  ⟨table.rows.filter fun row => test row.2,
    (List.Sublist.map Prod.fst List.filter_sublist).nodup table.distinct⟩

-- Changes the value of one key and leaves a missing key missing.
def update (table : Table α) (key : String) (change : α → α) : Table α :=
  match table.get? key with
  | none => table
  | some value => table.put key (change value)

-- A repeated key keeps its first place and takes its last value.
def ofRows (rows : List (String × α)) : Table α :=
  rows.foldl (fun table row => table.put row.1 row.2) empty

@[simp] theorem get?_empty (key : String) : (empty : Table α).get? key = none := rfl

@[simp] theorem get?_put (table : Table α) (key : String) (value : α) (wanted : String) :
    (table.put key value).get? wanted = if key = wanted then some value else table.get? wanted :=
  Rows.find?_put key value table.rows wanted

@[simp] theorem get?_erase (table : Table α) (key wanted : String) :
    (table.erase key).get? wanted = if key = wanted then none else table.get? wanted :=
  Rows.find?_erase key table.rows wanted

theorem get?_eq_none_iff {table : Table α} {key : String} :
    table.get? key = none ↔ key ∉ table.keys :=
  Rows.find?_eq_none_iff

theorem contains_iff {table : Table α} {key : String} :
    table.contains key = true ↔ key ∈ table.keys := by
  cases found : table.get? key with
  | none =>
      have absent : key ∉ table.keys := get?_eq_none_iff.mp found
      simp [contains, found, absent]
  | some value =>
      have present : key ∈ table.keys := by
        apply Classical.byContradiction
        intro absent
        rw [get?_eq_none_iff.mpr absent] at found
        cases found
      simp [contains, found, present]

end Table
end BlockCanvas
