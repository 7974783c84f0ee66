import BlockCanvas.Proofs.Table
import BlockCanvas.Request
namespace BlockCanvas

def Fault.inside (step : Step) (fault : Fault) : Fault := { fault with path := step :: fault.path }

namespace Checked
variable {α β : Type} {check : Checked α} {change : α → β} {faults others : List Fault} {value : α}

-- The value, unless there are faults.
def barring (faults : List Fault) (value : α) : Checked α :=
  match faults with
  | [] => .accepted value
  | _ => .refused faults

@[simp] theorem barring_nil (value : α) : barring [] value = .accepted value := rfl

theorem barring_eq_accepted_iff {other : α} : barring faults value = .accepted other ↔ faults = [] ∧ value = other := by
  cases faults <;> simp [barring]

theorem map_barring (change : α → β) (faults : List Fault) (value : α) :
    change <$> barring faults value = barring faults (change value) := by
  cases faults <;> rfl

theorem seq_barring (change : α → β) (faults others : List Fault) (value : α) :
    barring faults change <*> barring others value = barring (faults ++ others) (change value) := by
  cases faults <;> cases others <;> simp [barring, Seq.seq, both]

theorem accepted_seq_barring (change : α → β) (faults : List Fault) (value : α) :
    accepted change <*> barring faults value = barring faults (change value) :=
  seq_barring change [] faults value

theorem barring_seq_accepted (change : α → β) (faults : List Fault) (value : α) :
    barring faults change <*> accepted value = barring faults (change value) := by
  simpa using seq_barring change faults [] value

theorem under_barring (step : Step) (faults : List Fault) (value : α) :
    (barring faults value).under step = barring (faults.map (Fault.inside step)) value := by
  cases faults <;> rfl

theorem andThen_barring {next : α → Checked β} {result : β} (passes : next value = .accepted result) :
    (barring faults value).andThen next = barring faults result := by
  cases faults with
  | nil => exact passes
  | cons fault rest => rfl

-- What was accepted as a whole was accepted in its parts.

theorem map_eq_accepted_iff {result : β} :
    change <$> check = .accepted result ↔ ∃ value, check = .accepted value ∧ change value = result := by
  cases check <;> simp [Functor.map, both]

theorem seq_eq_accepted_iff {changes : Checked (α → β)} {result : β} :
    changes <*> check = .accepted result ↔
      ∃ change value, changes = .accepted change ∧ check = .accepted value ∧ change value = result := by
  cases changes <;> cases check <;> simp [Seq.seq, both]

theorem under_eq_accepted_iff {step : Step} : check.under step = .accepted value ↔ check = .accepted value := by
  cases check <;> simp [under]

theorem andThen_eq_accepted_iff {next : α → Checked β} {result : β} :
    check.andThen next = .accepted result ↔ ∃ value, check = .accepted value ∧ next value = .accepted result := by
  cases check <;> simp [andThen]

end Checked

namespace Check
variable {α : Type} {members : List (String × Json)} {field : String} {check : Json → Checked α} {value : α}

theorem fields_eq_accepted_iff {origin : Origin} {model : String} {data : Json}
    {check : List (String × Json) → Checked α} :
    fields origin model data check = .accepted value ↔ ∃ members, data = .object members ∧ check members = .accepted value := by
  cases data <;> simp [fields, Checked.fail]

theorem required_eq_accepted_iff :
    required members field check = .accepted value ↔
      ∃ data, Rows.find? field members = some data ∧ check data = .accepted value := by
  unfold required
  cases Rows.find? field members <;> simp [Checked.under_eq_accepted_iff]

theorem defaulted_eq_accepted {default : α} (accepted : defaulted members field default check = .accepted value) :
    value = default ∨ ∃ data, Rows.find? field members = some data ∧ check data = .accepted value := by
  unfold defaulted at accepted
  cases found : Rows.find? field members with
  | none =>
      simp only [found, Checked.accepted.injEq] at accepted
      exact Or.inl accepted.symm
  | some data =>
      simp only [found, Checked.under_eq_accepted_iff] at accepted
      exact Or.inr ⟨data, rfl, accepted⟩

theorem optional_eq_accepted {value : Option α} (accepted : optional members field check = .accepted value) :
    ∀ given, value = some given → ∃ data, Rows.find? field members = some data ∧ check data = .accepted given := by
  rintro given rfl
  rcases defaulted_eq_accepted accepted with nothing | ⟨data, found, accepted⟩
  · cases nothing
  · unfold nullable at accepted
    split at accepted
    · cases accepted
    · obtain ⟨_, accepted, equal⟩ := Checked.map_eq_accepted_iff.mp accepted
      cases equal
      exact ⟨_, found, accepted⟩

theorem name_eq_accepted {data : Json} {value : String} (accepted : name data = .accepted value) : value ≠ "" := by
  obtain ⟨text, _, fits⟩ := Checked.andThen_eq_accepted_iff.mp accepted
  split at fits
  · cases fits
  · cases fits
    rintro rfl
    contradiction

theorem required_name {value : String} (accepted : required members field name = .accepted value) : value ≠ "" := by
  obtain ⟨data, _, accepted⟩ := required_eq_accepted_iff.mp accepted
  exact name_eq_accepted accepted

theorem textTo_eq_accepted {most : Nat} {data : Json} {value : String} (accepted : textTo most data = .accepted value) :
    value.length ≤ most := by
  obtain ⟨text, _, fits⟩ := Checked.andThen_eq_accepted_iff.mp accepted
  split at fits
  · cases fits
  · cases fits
    omega

theorem nameTo_eq_accepted {most : Nat} {data : Json} {value : String} (accepted : nameTo most data = .accepted value) :
    value ≠ "" ∧ value.length ≤ most := by
  obtain ⟨text, named, fits⟩ := Checked.andThen_eq_accepted_iff.mp accepted
  have short := textTo_eq_accepted fits
  obtain ⟨other, same, fits⟩ := Checked.andThen_eq_accepted_iff.mp fits
  cases same
  split at fits
  · cases fits
  · cases fits
    exact ⟨name_eq_accepted named, short⟩

theorem items_eq_accepted {data : List Json} {index : Nat} {values : List α}
    (accepted : items check index data = .accepted values) : ∀ value ∈ values, ∃ item ∈ data, check item = .accepted value := by
  induction data generalizing index values with
  | nil =>
      cases accepted
      simp
  | cons item rest ih =>
      obtain ⟨_, others, first, later, rfl⟩ := Checked.seq_eq_accepted_iff.mp accepted
      obtain ⟨head, passed, rfl⟩ := Checked.map_eq_accepted_iff.mp first
      intro value member
      rcases List.mem_cons.mp member with rfl | other
      · exact ⟨item, List.mem_cons_self, Checked.under_eq_accepted_iff.mp passed⟩
      · obtain ⟨found, listed, accepted⟩ := ih later value other
        exact ⟨found, List.mem_cons_of_mem item listed, accepted⟩

theorem list_eq_accepted {data : Json} {values : List α} (accepted : list check data = .accepted values) :
    ∃ items, data = .list items ∧ ∀ value ∈ values, ∃ item ∈ items, check item = .accepted value := by
  cases data with
  | list items => exact ⟨items, rfl, items_eq_accepted accepted⟩
  | _ => cases accepted

theorem members_eq_accepted {data : List (String × Json)} {rows : List (String × α)}
    (accepted : Check.members check data = .accepted rows) :
    ∀ row ∈ rows, ∃ member ∈ data, check member.2 = .accepted row.2 := by
  induction data generalizing rows with
  | nil =>
      cases accepted
      simp
  | cons member rest ih =>
      obtain ⟨_, others, first, later, rfl⟩ := Checked.seq_eq_accepted_iff.mp accepted
      obtain ⟨_, paired, rfl⟩ := Checked.map_eq_accepted_iff.mp first
      obtain ⟨value, passed, rfl⟩ := Checked.map_eq_accepted_iff.mp paired
      intro row listed
      rcases List.mem_cons.mp listed with rfl | other
      · exact ⟨member, List.mem_cons_self, Checked.under_eq_accepted_iff.mp passed⟩
      · obtain ⟨found, listed, accepted⟩ := ih later row other
        exact ⟨found, List.mem_cons_of_mem member listed, accepted⟩

-- Reading what was written.

theorem name_text {text : String} (named : text ≠ "") : name (.text text) = .accepted text := by
  simp [name, textFrom, Check.text, named]

theorem textTo_text {text : String} {most : Nat} (short : text.length ≤ most) :
    textTo most (.text text) = .accepted text := by
  simp [textTo, Check.text, Nat.not_lt.mpr short]

theorem nameTo_text {text : String} {most : Nat} (named : text ≠ "") (short : text.length ≤ most) :
    nameTo most (.text text) = .accepted text := by
  rw [nameTo, name_text named, Checked.andThen_accepted, textTo_text short]

theorem nullable_text (text : Option String) : nullable Check.text (Json.ofOption .text text) = .accepted text := by
  cases text <;> rfl

theorem items_map {write : β → Json} {faults : β → List Fault} {back : β → α} {values : List β}
    (reads : ∀ value ∈ values, check (write value) = .barring (faults value) (back value)) (index : Nat) :
    items check index (values.map write) =
      .barring ((values.zipIdx index).flatMap fun row => (faults row.1).map (Fault.inside (.item row.2)))
        (values.map back) := by
  induction values generalizing index with
  | nil => rfl
  | cons value rest ih =>
      have first := reads value List.mem_cons_self
      have later := ih (fun other member => reads other (List.mem_cons_of_mem value member)) (index + 1)
      simp only [List.map_cons, items, first, later, Checked.under_barring, Checked.map_barring, Checked.seq_barring,
        List.zipIdx_cons, List.flatMap_cons]

theorem list_map {write : β → Json} {back : β → α} {values : List β}
    (reads : ∀ value ∈ values, check (write value) = .accepted (back value)) :
    list check (.list (values.map write)) = .accepted (values.map back) := by
  have sound : ∀ value ∈ values, check (write value) = .barring [] (back value) := reads
  rw [list, items_map sound 0]
  simp [Checked.barring_eq_accepted_iff, List.flatMap_eq_nil_iff]

theorem members_map {write : β → Json} {back : β → α} {rows : List (String × β)}
    (reads : ∀ value, check (write value) = .accepted (back value)) :
    Check.members check (rows.map fun row => (row.1, write row.2)) = .accepted (rows.map fun row => (row.1, back row.2)) := by
  induction rows with
  | nil => rfl
  | cons row rest ih => simp only [List.map_cons, Check.members, reads, ih, Checked.under_accepted, Checked.map_accepted,
      Checked.seq_accepted]

theorem table_map {write : β → Json} {back : β → α} (reads : ∀ value, check (write value) = .accepted (back value))
    (table : Table β) : Check.table check (.object (table.map write).rows) = .accepted (table.map back) := by
  have same : Table.ofRows (table.map back).rows = table.map back := Table.ofRows_rows _
  change Table.ofRows <$> Check.members check (table.rows.map fun row => (row.1, write row.2)) = _
  rw [members_map reads, Checked.map_accepted]
  exact congrArg Checked.accepted same

end Check

-- A way to write numbers, with what comes of a coordinate and of a block value when they are read back.
structure Writing where
  number : Binary64 → Json
  faults : Binary64 → List Fault
  back : Value → Value
  number_read : ∀ x, Check.number (number x) = .barring (faults x) x
  value_read : ∀ value, Check.value (Json.ofValue number value) = .accepted (back value)

namespace Writing

-- Every number is written as it is.
def exact : Writing where
  number := Json.float
  faults _ := []
  back := id
  number_read _ := rfl
  value_read value := by cases value <;> rfl

def finiteValue : Value → Value
  | .float x => if x.isFinite then .float x else .null
  | other => other

-- What is not finite is written as nothing. Nothing is a value, but no coordinate.
def finite : Writing where
  number := Json.finiteOrNull
  faults x := if x.isFinite then [] else [⟨[], .notNumber⟩]
  back := finiteValue
  number_read x := by
    unfold Json.finiteOrNull
    split <;> rfl
  value_read value := by
    cases value with
    | float x =>
        simp only [Json.ofValue, Json.finiteOrNull, finiteValue]
        split <;> rfl
    | _ => rfl

end Writing

namespace Position

def faults (writing : Writing) (position : Position) : List Fault :=
  (writing.faults position.x).map (Fault.inside (.member "x")) ++
    (writing.faults position.y).map (Fault.inside (.member "y"))

theorem check_dump (writing : Writing) (origin : Origin) (position : Position) :
    check origin (position.dump writing.number) = .barring (position.faults writing) position := by
  simp [check, dump, Check.fields, Check.defaulted, Rows.find?, writing.number_read, Checked.under_barring,
    Checked.map_barring, Checked.seq_barring, faults]

end Position

namespace Connection

structure Valid (connection : Connection) : Prop where
  source : connection.source ≠ ""
  target : connection.target ≠ ""
  socket : connection.socket ≠ ""

theorem Valid.check_dump {connection : Connection} (valid : connection.Valid) (origin : Origin) :
    check origin connection.dump = .accepted connection := by
  simp [check, dump, Check.fields, Check.required, Rows.find?, Check.name_text, valid.source, valid.target, valid.socket]

theorem valid_of_check {origin : Origin} {data : Json} {connection : Connection}
    (accepted : check origin data = .accepted connection) : connection.Valid := by
  obtain ⟨members, _, accepted⟩ := Check.fields_eq_accepted_iff.mp accepted
  simp only [Checked.seq_eq_accepted_iff, Checked.map_eq_accepted_iff] at accepted
  obtain ⟨_, socket, ⟨_, target, ⟨source, first, rfl⟩, second, rfl⟩, third, rfl⟩ := accepted
  exact ⟨Check.required_name first, Check.required_name second, Check.required_name third⟩

end Connection

namespace BlockRecord

-- The lengths that a record has to have; all else that was accepted is right by its type.
structure Valid (record : BlockRecord) : Prop where
  id : record.id ≠ ""
  definition : record.definition ≠ ""
  connections : ∀ connection ∈ record.connections, connection.Valid

def back (writing : Writing) (record : BlockRecord) : BlockRecord :=
  { record with values := record.values.map writing.back }

def faults (writing : Writing) (record : BlockRecord) : List Fault :=
  (record.position.faults writing).map (Fault.inside (.member "position"))

theorem Valid.check_dump {record : BlockRecord} (valid : record.Valid) (writing : Writing) (origin : Origin) :
    check origin (record.dump writing.number) = .barring (record.faults writing) (record.back writing) := by
  have connections : Check.list (Connection.check origin) (.list (record.connections.map Connection.dump)) =
      .accepted record.connections := by
    have whole := Check.list_map fun connection listed => (valid.connections connection listed).check_dump origin
    rwa [List.map_id'] at whole
  have values := Check.table_map writing.value_read record.values
  have next := Check.nullable_text record.next
  have previous := Check.nullable_text record.previous
  simp [check, dump, Check.fields, Check.required, Check.defaulted, Check.optional, Rows.find?, Check.name_text,
    valid.id, valid.definition, Position.check_dump, connections, values, next, previous, faults, back,
    Checked.under_barring, Checked.accepted_seq_barring, Checked.barring_seq_accepted]

theorem valid_of_check {origin : Origin} {data : Json} {record : BlockRecord}
    (accepted : check origin data = .accepted record) : record.Valid := by
  obtain ⟨members, _, accepted⟩ := Check.fields_eq_accepted_iff.mp accepted
  simp only [Checked.seq_eq_accepted_iff, Checked.map_eq_accepted_iff] at accepted
  obtain ⟨_, _, ⟨_, _, ⟨_, connections, ⟨_, _, ⟨_, _, ⟨_, definition, ⟨id, first, rfl⟩, second, rfl⟩, _, rfl⟩, _, rfl⟩,
    listed, rfl⟩, _, rfl⟩, _, rfl⟩ := accepted
  refine ⟨Check.required_name first, Check.required_name second, ?_⟩
  intro connection member
  rcases Check.defaulted_eq_accepted listed with nothing | ⟨data, _, accepted⟩
  · rw [nothing] at member
    cases member
  · obtain ⟨_, _, each⟩ := Check.list_eq_accepted accepted
    obtain ⟨item, _, accepted⟩ := each connection member
    exact Connection.valid_of_check accepted

end BlockRecord

namespace Sketch

structure Valid (sketch : Sketch) : Prop where
  blocks : ∀ record ∈ sketch.blocks, record.Valid
  size : sketch.blocks.length ≤ greatestSize
  distinct : sketch.ids.Nodup

def back (writing : Writing) (sketch : Sketch) : Sketch := ⟨sketch.blocks.map (BlockRecord.back writing)⟩

-- Every fault names the block, by its place, and the coordinate that cannot be read.
def faults (writing : Writing) (sketch : Sketch) : List Fault :=
  ((sketch.blocks.zipIdx 0).flatMap fun row => (row.1.faults writing).map (Fault.inside (.item row.2))).map
    (Fault.inside (.member "blocks"))

theorem Valid.check_dump {sketch : Sketch} (valid : sketch.Valid) (writing : Writing) (origin : Origin) :
    check origin (sketch.dump writing.number) = .barring (sketch.faults writing) (sketch.back writing) := by
  have items := Check.items_map (fun record listed => (valid.blocks record listed).check_dump writing origin) 0
  have size : checkSize (sketch.blocks.map (BlockRecord.back writing)) = .accepted (sketch.blocks.map (BlockRecord.back writing)) := by
    have bound := valid.size
    simp only [checkSize, List.length_map]
    rw [if_neg (by omega)]
  have distinct : checkDistinct (sketch.blocks.map (BlockRecord.back writing)) = .accepted (sketch.back writing) := by
    have same : (sketch.blocks.map (BlockRecord.back writing)).map BlockRecord.id = sketch.ids := by
      simp [ids, BlockRecord.back]
    rw [checkDistinct, same, if_pos valid.distinct]
    rfl
  simp [check, dump, Check.fields, Check.defaulted, Rows.find?, Check.list, items, Checked.andThen_barring size,
    Checked.andThen_barring distinct, Checked.under_barring, faults]

theorem valid_of_check {origin : Origin} {data : Json} {sketch : Sketch} (accepted : check origin data = .accepted sketch) :
    sketch.Valid := by
  obtain ⟨members, _, whole⟩ := Check.fields_eq_accepted_iff.mp accepted
  obtain ⟨blocks, listed, distinct⟩ := Checked.andThen_eq_accepted_iff.mp whole
  unfold checkDistinct at distinct
  split at distinct
  · rename_i apart
    cases distinct
    rcases Check.defaulted_eq_accepted listed with rfl | ⟨data, _, passed⟩
    · exact ⟨by simp, by simp, apart⟩
    · obtain ⟨records, sound, size⟩ := Checked.andThen_eq_accepted_iff.mp passed
      unfold checkSize at size
      split at size
      · cases size
      · rename_i small
        cases size
        refine ⟨?_, Nat.not_lt.mp small, apart⟩
        intro record member
        obtain ⟨_, _, each⟩ := Check.list_eq_accepted sound
        obtain ⟨item, _, own⟩ := each record member
        exact BlockRecord.valid_of_check own
  · cases distinct

theorem Valid.back {sketch : Sketch} (valid : sketch.Valid) (writing : Writing) : (sketch.back writing).Valid := by
  refine ⟨?_, ?_, ?_⟩
  · intro record listed
    obtain ⟨old, member, rfl⟩ := List.mem_map.mp listed
    exact ⟨(valid.blocks old member).id, (valid.blocks old member).definition, (valid.blocks old member).connections⟩
  · simpa [Sketch.back] using valid.size
  · simpa [Sketch.back, ids, BlockRecord.back, Function.comp_def] using valid.distinct

theorem faults_exact (sketch : Sketch) : sketch.faults .exact = [] := by
  simp [faults, BlockRecord.faults, Position.faults, Writing.exact, List.flatMap_eq_nil_iff]

theorem back_eq_self {writing : Writing} {sketch : Sketch}
    (same : ∀ record ∈ sketch.blocks, ∀ socket value, record.values.get? socket = some value →
      writing.back value = value) : sketch.back writing = sketch := by
  have records : ∀ record ∈ sketch.blocks, record.back writing = record := by
    intro record listed
    rw [BlockRecord.back, Table.map_eq_self (same record listed)]
  rw [Sketch.back, List.map_congr_left records, List.map_id']

theorem back_exact (sketch : Sketch) : sketch.back .exact = sketch :=
  back_eq_self fun _ _ _ _ _ => rfl

-- Every block stands at a finite place.
def IsPlaced (sketch : Sketch) : Prop :=
  ∀ record ∈ sketch.blocks, record.position.x.isFinite = true ∧ record.position.y.isFinite = true

def IsFinite (sketch : Sketch) : Prop :=
  sketch.IsPlaced ∧ ∀ record ∈ sketch.blocks, ∀ socket x, record.values.get? socket = some (.float x) → x.isFinite = true

theorem faults_finite_eq_nil_iff {sketch : Sketch} : sketch.faults .finite = [] ↔ sketch.IsPlaced := by
  have coordinate : ∀ x : Binary64, Writing.finite.faults x = [] ↔ x.isFinite = true := by
    intro x
    simp [Writing.finite]
  simp only [faults, BlockRecord.faults, Position.faults, List.map_eq_nil_iff, List.flatMap_eq_nil_iff,
    List.append_eq_nil_iff, coordinate, IsPlaced]
  constructor
  · intro clear record listed
    obtain ⟨index, row⟩ := List.mem_iff_getElem?.mp listed
    exact clear (record, index) (List.mk_mem_zipIdx_iff_getElem?.mpr row)
  · intro placed row listed
    exact placed row.1 (List.fst_mem_of_mem_zipIdx listed)

theorem IsFinite.back {sketch : Sketch} (finite : sketch.IsFinite) : sketch.back .finite = sketch := by
  apply back_eq_self
  intro record listed socket value found
  cases value with
  | float x => simp [Writing.finite, Writing.finiteValue, finite.2 record listed socket x found]
  | _ => rfl

-- What is written twice is written the same.
theorem dump_back (sketch : Sketch) : (sketch.back .finite).dump Json.finiteOrNull = sketch.dump Json.finiteOrNull := by
  have value : ∀ value, Json.ofValue Json.finiteOrNull (Writing.finiteValue value) = Json.ofValue Json.finiteOrNull value := by
    intro value
    cases value with
    | float x =>
        by_cases finite : x.isFinite = true
        · simp [Writing.finiteValue, finite]
        · simp [Writing.finiteValue, Json.ofValue, Json.finiteOrNull, finite]
    | _ => rfl
  simp [dump, Sketch.back, BlockRecord.dump, BlockRecord.back, Writing.finite, Table.map, Function.comp_def, value]

end Sketch

namespace Draft

structure Valid (draft : Draft) : Prop where
  named : draft.name ≠ ""
  short : draft.name.length ≤ greatestNameLength
  description : draft.description.length ≤ greatestDescriptionLength
  graph : draft.graph.Valid

theorem Valid.check_dump {draft : Draft} (valid : draft.Valid) (writing : Writing) (origin : Origin) :
    check origin (draft.dump writing.number) =
      .barring ((draft.graph.faults writing).map (Fault.inside (.member "graph")))
        { draft with graph := draft.graph.back writing } := by
  simp [check, checkMembers, dump, dumpMembers, Check.fields, Check.required, Check.defaulted, Rows.find?,
    Check.nameTo_text valid.named valid.short, Check.textTo_text valid.description, Check.integer,
    valid.graph.check_dump, Checked.under_barring, Checked.accepted_seq_barring]

theorem valid_of_check {origin : Origin} {data : Json} {draft : Draft} (accepted : check origin data = .accepted draft) :
    draft.Valid := by
  obtain ⟨members, _, accepted⟩ := Check.fields_eq_accepted_iff.mp accepted
  simp only [checkMembers, Checked.seq_eq_accepted_iff, Checked.map_eq_accepted_iff] at accepted
  obtain ⟨_, graph, ⟨_, _, ⟨_, description, ⟨name, first, rfl⟩, second, rfl⟩, _, rfl⟩, last, rfl⟩ := accepted
  obtain ⟨_, _, first⟩ := Check.required_eq_accepted_iff.mp first
  obtain ⟨named, short⟩ := Check.nameTo_eq_accepted first
  refine ⟨named, short, ?_, ?_⟩
  · rcases Check.defaulted_eq_accepted second with rfl | ⟨data, _, accepted⟩
    · exact Nat.zero_le _
    · exact Check.textTo_eq_accepted accepted
  · rcases Check.defaulted_eq_accepted last with rfl | ⟨data, _, accepted⟩
    · exact ⟨by simp, by simp, by simp [Sketch.ids]⟩
    · exact Sketch.valid_of_check accepted

end Draft

namespace Revision

structure Valid (revision : Revision) : Prop where
  name : ∀ name, revision.name = some name → name ≠ "" ∧ name.length ≤ greatestNameLength
  description : ∀ text, revision.description = some text → text.length ≤ greatestDescriptionLength
  graph : ∀ graph, revision.graph = some graph → graph.Valid

theorem valid_of_check {origin : Origin} {data : Json} {revision : Revision}
    (accepted : check origin data = .accepted revision) : revision.Valid := by
  obtain ⟨members, _, accepted⟩ := Check.fields_eq_accepted_iff.mp accepted
  simp only [Checked.seq_eq_accepted_iff, Checked.map_eq_accepted_iff] at accepted
  obtain ⟨_, _, ⟨_, graph, ⟨_, description, ⟨name, first, rfl⟩, second, rfl⟩, third, rfl⟩, _, rfl⟩ := accepted
  refine ⟨?_, ?_, ?_⟩
  · intro name given
    obtain ⟨data, _, accepted⟩ := Check.optional_eq_accepted first name given
    exact Check.nameTo_eq_accepted accepted
  · intro text given
    obtain ⟨data, _, accepted⟩ := Check.optional_eq_accepted second text given
    exact Check.textTo_eq_accepted accepted
  · intro graph given
    obtain ⟨data, _, accepted⟩ := Check.optional_eq_accepted third graph given
    exact Sketch.valid_of_check accepted

end Revision

-- One block, which is to write a whole number.
def countSketch (number : Int) : Sketch :=
  ⟨[⟨"w", "io.write", Position.zero, Table.ofRows [("value", .int number)], [], none, none⟩]⟩

theorem countSketch_valid (number : Int) : (countSketch number).Valid := by
  refine ⟨?_, by simp [countSketch, Sketch.greatestSize], by simp [countSketch, Sketch.ids]⟩
  intro record listed
  cases List.mem_singleton.mp listed
  exact ⟨by simp, by simp, by simp⟩

end BlockCanvas
