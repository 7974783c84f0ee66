import BlockCanvas.Proofs.JsonText
import BlockCanvas.Proofs.Limits
import BlockCanvas.Proofs.ReadBack
import BlockCanvas.Store.Basic
namespace BlockCanvas

-- What a check accepts of reduced data is sound.
def Check.Reduces {α : Type} (check : Json → Checked α) (Sound : α → Prop) : Prop :=
  ∀ data value, data.IsReduced → check data = .accepted value → Sound value

namespace Check.Reduces
variable {α : Type} {check : Json → Checked α} {Sound : α → Prop} {members : List (String × Json)} {field : String}
  {value default : α}

theorem found (own : Reduces check Sound) (reduced : (Json.object members).IsReduced) {data : Json}
    (present : Rows.find? field members = some data) (accepted : check data = .accepted value) : Sound value :=
  own data value (Json.IsReduced.object_iff.mp reduced _ (Rows.mem_of_find? present)) accepted

theorem defaulted (own : Reduces check Sound) (usual : Sound default) (reduced : (Json.object members).IsReduced)
    (accepted : Check.defaulted members field default check = .accepted value) : Sound value := by
  rcases Check.defaulted_eq_accepted accepted with rfl | ⟨data, present, accepted⟩
  · exact usual
  · exact own.found reduced present accepted

theorem optional (own : Reduces check Sound) (reduced : (Json.object members).IsReduced) {value : Option α}
    (accepted : Check.optional members field check = .accepted value) : ∀ given, value = some given → Sound given := by
  intro given same
  obtain ⟨data, present, accepted⟩ := Check.optional_eq_accepted accepted given same
  exact own.found reduced present accepted

theorem list (own : Reduces check Sound) : Reduces (Check.list check) fun values => ∀ value ∈ values, Sound value := by
  intro data values reduced accepted value listed
  obtain ⟨items, rfl, each⟩ := Check.list_eq_accepted accepted
  obtain ⟨item, member, accepted⟩ := each value listed
  exact own item value (Json.IsReduced.list_iff.mp reduced item member) accepted

theorem table (each : Reduces check Sound) :
    Reduces (Check.table check) fun table => ∀ key value, table.get? key = some value → Sound value := by
  intro data table reduced accepted key value present
  cases reduced with
  | object inner =>
      obtain ⟨rows, passed, rfl⟩ := Checked.map_eq_accepted_iff.mp accepted
      obtain ⟨member, listed, own⟩ := Check.members_eq_accepted passed _ (Table.mem_of_get?_ofRows present)
      exact each member.2 value (inner member listed) own
  | _ => cases accepted

end Check.Reduces

namespace Number

theorem unsigned?_isReduced {negative : Bool} {text : List Char} {x : Binary64} (read : unsigned? negative text = some x) :
    x.IsReduced := by
  unfold unsigned? at read
  dsimp only at read
  split at read
  all_goals
    split_ifs at read
    obtain ⟨power, _, rfl⟩ := Option.map_eq_some_iff.mp read
    exact Binary64.ofDecimal_isReduced _ _ _

theorem float?_isReduced {text : List Char} {x : Binary64} (read : float? text = some x) : x.IsReduced := by
  unfold float? at read
  dsimp only at read
  split_ifs at read
  · cases read
    trivial
  · cases read
    trivial
  · exact unsigned?_isReduced read

theorem floatField?_isReduced {text : String} {x : Binary64} (read : floatField? text = some x) : x.IsReduced := by
  unfold floatField? at read
  split at read
  · rename_i found
    cases read
    exact float?_isReduced found
  · obtain ⟨_, _, found⟩ := Option.bind_eq_some_iff.mp read
    exact float?_isReduced found

end Number

theorem Check.number_reduces : Check.Reduces Check.number Binary64.IsReduced := by
  intro data x reduced accepted
  cases data with
  | null => cases accepted
  | bool value =>
      cases accepted
      cases value
      · exact Binary64.signedZero_isReduced false
      · exact ⟨by norm_num, by decide, by decide, .inl le_rfl⟩
  | int n =>
      by_cases finite : (Binary64.ofInt n).isFinite = true
      · rw [Check.number, if_pos finite] at accepted
        cases accepted
        exact Binary64.round_isReduced _ _ Nat.one_pos
      · rw [Check.number, if_neg finite] at accepted
        cases accepted
  | float own =>
      cases accepted
      exact Json.IsReduced.float_iff.mp reduced
  | text value =>
      cases read : Number.floatField? value with
      | none =>
          rw [Check.number, read] at accepted
          cases accepted
      | some number =>
          rw [Check.number, read] at accepted
          cases accepted
          exact Number.floatField?_isReduced read
  | list items => cases accepted
  | object members => cases accepted

def Value.IsReduced : Value → Prop
  | .float x => x.IsReduced
  | _ => True

theorem Check.value_reduces : Check.Reduces Check.value Value.IsReduced := by
  intro data value reduced accepted
  cases reduced with
  | float own =>
      cases accepted
      exact own
  | _ =>
      cases accepted
      try trivial

structure Position.IsReduced (position : Position) : Prop where
  x : position.x.IsReduced
  y : position.y.IsReduced

theorem Position.check_reduces (origin : Origin) : Check.Reduces (Position.check origin) Position.IsReduced := by
  intro data position reduced accepted
  obtain ⟨members, rfl, passed⟩ := Check.fields_eq_accepted_iff.mp accepted
  simp only [Checked.seq_eq_accepted_iff, Checked.map_eq_accepted_iff] at passed
  obtain ⟨_, y, ⟨x, first, rfl⟩, second, rfl⟩ := passed
  have zero := Binary64.signedZero_isReduced false
  exact ⟨Check.number_reduces.defaulted zero reduced first, Check.number_reduces.defaulted zero reduced second⟩

structure BlockRecord.IsReduced (record : BlockRecord) : Prop where
  position : record.position.IsReduced
  values : ∀ socket value, record.values.get? socket = some value → value.IsReduced

theorem BlockRecord.check_reduces (origin : Origin) : Check.Reduces (BlockRecord.check origin) BlockRecord.IsReduced := by
  intro data record reduced accepted
  obtain ⟨members, rfl, passed⟩ := Check.fields_eq_accepted_iff.mp accepted
  simp only [Checked.seq_eq_accepted_iff, Checked.map_eq_accepted_iff] at passed
  obtain ⟨_, _, ⟨_, _, ⟨_, _, ⟨_, values, ⟨_, position, ⟨_, _, ⟨_, _, rfl⟩, _, rfl⟩, third, rfl⟩, fourth, rfl⟩,
    _, rfl⟩, _, rfl⟩, _, rfl⟩ := passed
  have zero := Binary64.signedZero_isReduced false
  exact ⟨(Position.check_reduces origin).defaulted ⟨zero, zero⟩ reduced third,
    Check.value_reduces.table.defaulted (by simp) reduced fourth⟩

namespace Sketch
variable {sketch : Sketch}

def IsReduced (sketch : Sketch) : Prop := ∀ record ∈ sketch.blocks, record.IsReduced

theorem check_reduces (origin : Origin) : Check.Reduces (check origin) IsReduced := by
  intro data sketch reduced accepted
  obtain ⟨members, rfl, whole⟩ := Check.fields_eq_accepted_iff.mp accepted
  obtain ⟨blocks, listed, distinct⟩ := Checked.andThen_eq_accepted_iff.mp whole
  have sized : Check.Reduces (fun blocks => (Check.list (BlockRecord.check origin) blocks).andThen checkSize)
      fun records => ∀ record ∈ records, record.IsReduced := by
    intro data records reduced accepted
    obtain ⟨_, passed, size⟩ := Checked.andThen_eq_accepted_iff.mp accepted
    unfold checkSize at size
    split at size
    · cases size
    · cases size
      exact (BlockRecord.check_reduces origin).list data records reduced passed
  have sound := sized.defaulted (by simp) reduced listed
  unfold checkDistinct at distinct
  split at distinct
  · cases distinct
    exact sound
  · cases distinct

end Sketch

theorem Draft.check_reduces (origin : Origin) : Check.Reduces (Draft.check origin) fun draft => draft.graph.IsReduced := by
  intro data draft reduced accepted
  obtain ⟨members, rfl, passed⟩ := Check.fields_eq_accepted_iff.mp accepted
  simp only [checkMembers, Checked.seq_eq_accepted_iff, Checked.map_eq_accepted_iff] at passed
  obtain ⟨_, graph, ⟨_, _, ⟨_, _, ⟨_, _, rfl⟩, _, rfl⟩, _, rfl⟩, last, rfl⟩ := passed
  have empty : Sketch.IsReduced ⟨[]⟩ := by simp [Sketch.IsReduced]
  exact (Sketch.check_reduces origin).defaulted empty reduced last

theorem Revision.check_reduces (origin : Origin) :
    Check.Reduces (Revision.check origin) fun revision => ∀ graph, revision.graph = some graph → graph.IsReduced := by
  intro data revision reduced accepted
  obtain ⟨members, rfl, passed⟩ := Check.fields_eq_accepted_iff.mp accepted
  simp only [Checked.seq_eq_accepted_iff, Checked.map_eq_accepted_iff] at passed
  obtain ⟨_, _, ⟨_, graph, ⟨_, _, ⟨_, _, rfl⟩, _, rfl⟩, third, rfl⟩, _, rfl⟩ := passed
  exact (Sketch.check_reduces origin).optional reduced third

-- Conversely a graph of doubles is written with doubles.
theorem Sketch.IsReduced.dump {sketch : Sketch} (reduced : sketch.IsReduced) : (sketch.dump Json.float).IsReduced := by
  have value : ∀ value : Value, value.IsReduced → (Json.ofValue Json.float value).IsReduced := by
    intro value own
    cases value with
    | null => exact .null
    | bool value => exact .bool
    | int value => exact .int
    | float x => exact .float own
    | text value => exact .text
  have option : ∀ text : Option String, (Json.ofOption .text text).IsReduced := by
    intro text
    cases text with
    | none => exact .null
    | some value => exact .text
  have record : ∀ record : BlockRecord, record.IsReduced → (record.dump Json.float).IsReduced := by
    intro record own
    have values : (Json.object (record.values.map (Json.ofValue Json.float)).rows).IsReduced := by
      refine .object ?_
      intro member listed
      obtain ⟨row, present, rfl⟩ := List.mem_map.mp listed
      exact value row.2 (own.values row.1 row.2 (Table.mem_rows_iff.mp present))
    have connections : (Json.list (record.connections.map Connection.dump)).IsReduced := by
      simp [Json.IsReduced.list_iff, Connection.dump, Json.IsReduced.object_iff, Json.IsReduced.text]
    simp [BlockRecord.dump, Position.dump, Json.IsReduced.object_iff, Json.IsReduced.float_iff, Json.IsReduced.text,
      own.position.x, own.position.y, values, connections, option]
  simp only [Sketch.dump, Json.IsReduced.object_iff, Json.IsReduced.list_iff, List.forall_mem_cons, List.forall_mem_map]
  exact ⟨fun own listed => record own (reduced own listed), by simp⟩

-- The whole numbers among the values, as they come in the text of the graph.

def Value.whole? : Value → Option Int
  | .int n => some n
  | _ => none

def BlockRecord.wholes (record : BlockRecord) : List Int := record.values.rows.filterMap fun row => row.2.whole?

def Sketch.wholes (sketch : Sketch) : List Int := sketch.blocks.flatMap BlockRecord.wholes

theorem Json.wholes_finiteOrNull (x : Binary64) : (Json.finiteOrNull x).wholes = [] := by
  unfold Json.finiteOrNull
  split <;> rfl

theorem Json.wholes_ofOption (text : Option String) : (Json.ofOption .text text).wholes = [] := by
  cases text <;> rfl

theorem Value.wholes_dump (value : Value) : (Json.ofValue Json.finiteOrNull value).wholes = value.whole?.toList := by
  cases value with
  | float x => exact Json.wholes_finiteOrNull x
  | _ => rfl

theorem BlockRecord.wholes_dump (record : BlockRecord) : (record.dump Json.finiteOrNull).wholes = record.wholes := by
  have connection : ∀ connection : Connection, connection.dump.wholes = [] := fun _ => rfl
  have position : (record.position.dump Json.finiteOrNull).wholes = [] := by
    simp [Position.dump, Json.wholes, Json.memberWholes, Json.wholes_finiteOrNull]
  simp [dump, wholes, Json.wholes, Json.memberWholes, Json.itemWholes_eq, Json.memberWholes_eq, List.flatMap_map, Table.map,
    Value.wholes_dump, connection, position, Json.wholes_ofOption, List.filterMap_eq_flatMap_toList]

theorem Sketch.wholes_dump (sketch : Sketch) : (sketch.dump Json.finiteOrNull).wholes = sketch.wholes := by
  simp [dump, wholes, Json.wholes, Json.memberWholes, Json.itemWholes_eq, List.flatMap_map, BlockRecord.wholes_dump]

-- The text of a graph is nested five deep.

theorem Json.Legible.finiteOrNull {x : Binary64} (reduced : x.IsReduced) (depth : Nat) :
    Json.Legible depth (Json.finiteOrNull x) := by
  unfold Json.finiteOrNull
  split
  · rename_i finite
    exact .float finite reduced
  · exact .null

theorem Json.Legible.ofOption (text : Option String) (depth : Nat) : Json.Legible depth (Json.ofOption .text text) := by
  cases text with
  | none => exact .null
  | some value => exact .text

theorem Value.IsReduced.legible {value : Value} (reduced : value.IsReduced) (depth : Nat) :
    Json.Legible depth (Json.ofValue Json.finiteOrNull value) := by
  cases value with
  | null => exact .null
  | bool value => exact .bool
  | int value => exact .int
  | float x => exact .finiteOrNull reduced depth
  | text value => exact .text

theorem Position.IsReduced.legible {position : Position} (reduced : position.IsReduced) (depth : Nat) :
    Json.Legible (depth + 1) (position.dump Json.finiteOrNull) := by
  refine .object (by simp [Rows.keys]) ?_
  simp [Json.Legible.finiteOrNull reduced.x, Json.Legible.finiteOrNull reduced.y]

theorem Connection.legible (connection : Connection) (depth : Nat) : Json.Legible (depth + 1) connection.dump := by
  refine .object (by simp [Rows.keys]) ?_
  simp [Json.Legible.text]

theorem BlockRecord.IsReduced.legible {record : BlockRecord} (reduced : record.IsReduced) :
    Json.Legible 3 (record.dump Json.finiteOrNull) := by
  have values : Json.Legible 2 (.object (record.values.map (Json.ofValue Json.finiteOrNull)).rows) := by
    refine .object (record.values.map _).distinct ?_
    intro member listed
    obtain ⟨row, present, rfl⟩ := List.mem_map.mp listed
    exact (reduced.values row.1 row.2 (Table.mem_rows_iff.mp present)).legible 1
  have connections : Json.Legible 2 (.list (record.connections.map Connection.dump)) := by
    refine .list ?_
    intro item listed
    obtain ⟨connection, _, rfl⟩ := List.mem_map.mp listed
    exact connection.legible 0
  refine .object (by simp [Rows.keys]) ?_
  simp [Json.Legible.text, reduced.position.legible 1, values, connections, Json.Legible.ofOption]

theorem Sketch.IsReduced.legible {sketch : Sketch} (reduced : sketch.IsReduced) :
    Json.Legible 5 (sketch.dump Json.finiteOrNull) := by
  have blocks : Json.Legible 4 (.list (sketch.blocks.map (BlockRecord.dump Json.finiteOrNull))) := by
    refine .list ?_
    intro item listed
    obtain ⟨record, present, rfl⟩ := List.mem_map.mp listed
    exact (reduced record present).legible
  refine .object (by simp [Rows.keys]) ?_
  simp [blocks]

namespace Sketch
variable {sketch : Sketch}

-- No whole number among the values has more digits than are converted.
def IsShort (sketch : Sketch) : Prop :=
  ∀ record ∈ sketch.blocks, ∀ socket n, record.values.get? socket = some (.int n) → n.natAbs < 10 ^ Number.greatestLength

def IsReadable (sketch : Sketch) : Prop := sketch.IsPlaced ∧ sketch.IsShort

theorem mem_wholes_iff {n : Int} :
    n ∈ sketch.wholes ↔ ∃ record ∈ sketch.blocks, ∃ socket, record.values.get? socket = some (.int n) := by
  have whole : ∀ value : Value, value.whole? = some n ↔ value = .int n := by
    intro value
    cases value <;> simp [Value.whole?]
  simp only [wholes, BlockRecord.wholes, List.mem_flatMap, List.mem_filterMap, whole]
  constructor
  · rintro ⟨record, listed, row, present, same⟩
    exact ⟨record, listed, row.1, same ▸ Table.mem_rows_iff.mp present⟩
  · rintro ⟨record, listed, socket, found⟩
    exact ⟨record, listed, (socket, .int n), Table.mem_rows_iff.mpr found, rfl⟩

theorem isShort_iff : sketch.IsShort ↔ sketch.wholes.find? (!Number.fits ·) = none := by
  simp only [List.find?_eq_none, Bool.not_eq_true', Bool.not_eq_false, Number.fits_iff, mem_wholes_iff]
  constructor
  · rintro short n ⟨record, listed, socket, found⟩
    exact short record listed socket n found
  · intro short record listed socket n found
    exact short n ⟨record, listed, socket, found⟩

-- Why a graph cannot be read once it is written: its first number that is too long, or else all coordinates that are
-- not finite.
def failure? (sketch : Sketch) : Option StoreError :=
  match sketch.wholes.find? (!Number.fits ·) with
  | some n => some (.undecodable (.oversized (.read (Decimal.digits n.natAbs).length)))
  | none =>
    match sketch.faults .finite with
    | [] => none
    | faults => some (.unreadable faults)

theorem failure?_eq_none_iff : sketch.failure? = none ↔ sketch.IsReadable := by
  rw [IsReadable, isShort_iff, ← faults_finite_eq_nil_iff, failure?]
  cases sketch.wholes.find? (!Number.fits ·) with
  | some n => simp
  | none => cases sketch.faults .finite <;> simp

theorem IsReduced.back (reduced : sketch.IsReduced) : (sketch.back .finite).IsReduced := by
  intro record listed
  obtain ⟨old, present, rfl⟩ := List.mem_map.mp listed
  refine ⟨(reduced old present).position, ?_⟩
  intro socket value found
  rw [BlockRecord.back, Table.get?_map] at found
  obtain ⟨before, stored, rfl⟩ := Option.map_eq_some_iff.mp found
  have own := (reduced old present).values socket before stored
  cases before with
  | float x =>
      change (if x.isFinite then Value.float x else .null).IsReduced
      split
      · exact own
      · trivial
  | _ => trivial

end Sketch

-- A graph is read as it was written, with nothing where a value is not finite, unless it cannot be read.
theorem Store.readGraph_writtenGraph {sketch : Sketch} (valid : sketch.Valid) (reduced : sketch.IsReduced) :
    readGraph (writtenGraph sketch) =
      match sketch.failure? with
      | some error => .error error
      | none => .ok (sketch.back .finite) := by
  have read : Json.read room (writtenGraph sketch) = _ := Json.read_write reduced.legible (by decide)
  have checked : Sketch.check .record (sketch.dump Json.finiteOrNull) = _ := valid.check_dump .finite .record
  rw [Sketch.wholes_dump] at read
  rw [readGraph, read, Sketch.failure?]
  cases sketch.wholes.find? (!Number.fits ·) with
  | some n => rfl
  | none =>
      dsimp only
      rw [checked]
      cases sketch.faults .finite <;> rfl

end BlockCanvas
