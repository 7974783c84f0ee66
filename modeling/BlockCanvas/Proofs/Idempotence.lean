import BlockCanvas.Definition
import BlockCanvas.Proofs.ReadBack
namespace BlockCanvas
variable {α : Type}

-- A check and the way its results are written. What was accepted is accepted as it is written, with
-- the same result, and the results that some data leads to are the sound ones.
structure Idempotent (check : Json → Checked α) (write : α → Json) (Sound : α → Prop) : Prop where
  again : ∀ data value, check data = .accepted value → check (write value) = .accepted value
  reached : ∀ value, (∃ data, check data = .accepted value) ↔ Sound value

namespace Idempotent
variable {check : Json → Checked α} {write : α → Json} {Sound : α → Prop} {members : List (String × Json)}
  {field : String} {value default : α}

theorem of (sound : ∀ data value, check data = .accepted value → Sound value)
    (back : ∀ value, Sound value → check (write value) = .accepted value) : Idempotent check write Sound := by
  refine ⟨fun data value accepted => back value (sound data value accepted), fun value => ⟨?_, ?_⟩⟩
  · rintro ⟨data, accepted⟩
    exact sound data value accepted
  · intro fits
    exact ⟨write value, back value fits⟩

theorem sound (own : Idempotent check write Sound) {data : Json} (accepted : check data = .accepted value) : Sound value :=
  (own.reached value).mp ⟨data, accepted⟩

theorem back (own : Idempotent check write Sound) (value : α) (fits : Sound value) :
    check (write value) = .accepted value := by
  obtain ⟨data, accepted⟩ := (own.reached value).mpr fits
  exact own.again data value accepted

-- The parts of a model: required, or with a default that is sound itself.

theorem required (own : Idempotent check write Sound) (accepted : Check.required members field check = .accepted value) :
    Sound value := by
  obtain ⟨data, _, accepted⟩ := Check.required_eq_accepted_iff.mp accepted
  exact own.sound accepted

theorem defaulted (own : Idempotent check write Sound) (usual : Sound default)
    (accepted : Check.defaulted members field default check = .accepted value) : Sound value := by
  rcases Check.defaulted_eq_accepted accepted with rfl | ⟨data, _, accepted⟩
  · exact usual
  · exact own.sound accepted

-- The kinds of values that fields hold.

theorem text : Idempotent Check.text .text fun _ => True :=
  of (fun _ _ _ => trivial) fun _ _ => rfl

theorem name : Idempotent Check.name .text (· ≠ "") :=
  of (fun _ _ => Check.name_eq_accepted) fun _ => Check.name_text

theorem textTo (most : Nat) : Idempotent (Check.textTo most) .text (·.length ≤ most) :=
  of (fun _ _ => Check.textTo_eq_accepted) fun _ => Check.textTo_text

theorem nameTo (most : Nat) : Idempotent (Check.nameTo most) .text fun name => name ≠ "" ∧ name.length ≤ most :=
  of (fun _ _ => Check.nameTo_eq_accepted) fun _ fits => Check.nameTo_text fits.1 fits.2

theorem flag : Idempotent Check.flag .bool fun _ => True :=
  of (fun _ _ _ => trivial) fun _ _ => rfl

theorem integer : Idempotent Check.integer .int fun _ => True :=
  of (fun _ _ _ => trivial) fun _ _ => rfl

theorem integerWithin (least most : Int) :
    Idempotent (Check.integerWithin least most) .int fun n => least ≤ n ∧ n ≤ most := by
  refine of ?_ ?_
  · intro data n accepted
    obtain ⟨read, _, fits⟩ := Checked.andThen_eq_accepted_iff.mp accepted
    split at fits
    · cases fits
    · split at fits
      · cases fits
      · cases fits
        omega
  · intro n fits
    have low : ¬ n < least := by omega
    have high : ¬ most < n := by omega
    simp [Check.integerWithin, Check.integer, low, high]

theorem choice {options : List (String × α)} {name : α → String}
    (listed : ∀ value, Rows.find? (name value) options = some value) :
    Idempotent (Check.choice options) (fun value => .text (name value)) fun _ => True := by
  refine of (fun _ _ _ => trivial) ?_
  intro value _
  simp [Check.choice, listed]

theorem list (own : Idempotent check write Sound) :
    Idempotent (Check.list check) (fun values => .list (values.map write)) fun values => ∀ value ∈ values, Sound value := by
  refine of ?_ ?_
  · intro data values accepted value listed
    obtain ⟨_, _, each⟩ := Check.list_eq_accepted accepted
    obtain ⟨item, _, accepted⟩ := each value listed
    exact own.sound accepted
  · intro values fit
    have read := Check.list_map fun value listed => own.back value (fit value listed)
    rwa [List.map_id'] at read

-- A tuple is a list that is named otherwise when it is refused.
theorem tuple (own : Idempotent check write Sound) :
    Idempotent (Check.tuple check) (fun values => .list (values.map write)) fun values => ∀ value ∈ values, Sound value := by
  have same : ∀ data values, Check.tuple check data = .accepted values ↔ Check.list check data = .accepted values := by
    intro data values
    cases data <;> simp [Check.tuple, Check.list, Checked.fail]
  refine of ?_ ?_
  · intro data values accepted
    exact own.list.sound ((same data values).mp accepted)
  · intro values fit
    exact (same _ values).mpr (own.list.back values fit)

theorem nullable (own : Idempotent check write Sound) (filled : ∀ value, write value ≠ .null) :
    Idempotent (Check.nullable check) (Json.ofOption write) fun value => ∀ given, value = some given → Sound given := by
  refine of ?_ ?_
  · rintro data value accepted given rfl
    cases data with
    | null => cases accepted
    | _ =>
        obtain ⟨_, accepted, same⟩ := Checked.map_eq_accepted_iff.mp accepted
        cases same
        exact own.sound accepted
  · intro value fits
    cases value with
    | none => rfl
    | some given =>
        have read := own.back given (fits given rfl)
        have present := filled given
        unfold Check.nullable Json.ofOption
        split
        · contradiction
        · rw [read, Checked.map_accepted]

end Idempotent

namespace Socket

structure Valid (socket : Socket) : Prop where
  id : socket.id ≠ ""

theorem idempotent (origin : Origin) : Idempotent (check origin) dump Valid := by
  refine .of ?_ ?_
  · intro data socket accepted
    obtain ⟨members, _, accepted⟩ := Check.fields_eq_accepted_iff.mp accepted
    simp only [Checked.seq_eq_accepted_iff, Checked.map_eq_accepted_iff] at accepted
    obtain ⟨_, _, ⟨_, _, ⟨_, _, ⟨_, _, ⟨id, first, rfl⟩, _, rfl⟩, _, rfl⟩, _, rfl⟩, _, rfl⟩ := accepted
    exact ⟨Idempotent.name.required first⟩
  · intro socket valid
    have types : Idempotent (Check.choice DataType.options) typeData fun _ => True := .choice DataType.find?_name
    have id := Idempotent.name.back socket.id valid.id
    have type := types.back socket.type trivial
    have required := Idempotent.flag.back socket.required trivial
    have accepts := (types.tuple.nullable fun _ => nofun).back socket.accepts fun _ _ _ _ => trivial
    simp [check, dump, Check.fields, Check.required, Check.defaulted, Check.optional, Rows.find?, id, Check.text, type,
      required, accepts]

end Socket

namespace Definition

structure Valid (definition : Definition) : Prop where
  id : definition.id ≠ ""
  label : definition.label ≠ ""
  inputs : ∀ input ∈ definition.inputs, input.Valid
  output : ∀ output, definition.output = some output → output.Valid
  level : leastLevel ≤ definition.level ∧ definition.level ≤ greatestLevel

theorem idempotent (origin : Origin) : Idempotent (check origin) dump Valid := by
  have sockets := (Socket.idempotent origin).tuple
  have outputs := (Socket.idempotent origin).nullable fun _ => nofun
  have levels := Idempotent.integerWithin leastLevel greatestLevel
  refine .of ?_ ?_
  · intro data definition accepted
    obtain ⟨members, _, accepted⟩ := Check.fields_eq_accepted_iff.mp accepted
    simp only [Checked.seq_eq_accepted_iff, Checked.map_eq_accepted_iff] at accepted
    obtain ⟨_, _, ⟨_, _, ⟨_, _, ⟨_, _, ⟨_, _, ⟨_, _, ⟨_, _, ⟨_, _, ⟨_, _, ⟨_, _, ⟨_, _, ⟨_, id, rfl⟩, _, rfl⟩, _, rfl⟩,
      label, rfl⟩, inputs, rfl⟩, output, rfl⟩, _, rfl⟩, _, rfl⟩, level, rfl⟩, _, rfl⟩, _, rfl⟩, _, rfl⟩ := accepted
    exact ⟨Idempotent.name.required id, Idempotent.name.required label, sockets.defaulted (by simp) inputs,
      outputs.defaulted (by simp) output, levels.defaulted (by decide) level⟩
  · intro definition valid
    have id := Idempotent.name.back definition.id valid.id
    have category := (Idempotent.choice Category.find?_name).back definition.category trivial
    have kind := (Idempotent.choice BlockKind.find?_name).back definition.kind trivial
    have label := Idempotent.name.back definition.label valid.label
    have inputs := sockets.back definition.inputs valid.inputs
    have output := outputs.back definition.output valid.output
    have next := Idempotent.flag.back definition.hasNext trivial
    have previous := Idempotent.flag.back definition.hasPrevious trivial
    have level := levels.back definition.level valid.level
    have examples := Idempotent.text.tuple.back definition.examples fun _ _ => trivial
    simp [check, dump, Check.fields, Check.required, Check.defaulted, Check.optional, Rows.find?, id, category, kind, label,
      inputs, output, next, previous, level, Check.text, Json.texts, examples]

end Definition

theorem Position.idempotent (origin : Origin) : Idempotent (check origin) (dump .float) fun _ => True :=
  .of (fun _ _ _ => trivial) fun position _ => check_dump .exact origin position

theorem Connection.idempotent (origin : Origin) : Idempotent (check origin) dump Valid :=
  .of (fun _ _ => valid_of_check) fun _ valid => valid.check_dump origin

theorem BlockRecord.idempotent (origin : Origin) : Idempotent (check origin) (dump .float) Valid := by
  refine .of (fun _ _ => valid_of_check) ?_
  intro record valid
  have read := valid.check_dump .exact origin
  have clear : record.faults .exact = [] := rfl
  have values : record.values.map Writing.exact.back = record.values := Table.map_eq_self fun _ _ _ => rfl
  rwa [clear, back, values] at read

theorem Sketch.idempotent (origin : Origin) : Idempotent (check origin) (dump .float) Valid := by
  refine .of (fun _ _ => valid_of_check) ?_
  intro sketch valid
  have read := valid.check_dump .exact origin
  rwa [faults_exact, back_exact] at read

theorem Draft.idempotent (origin : Origin) : Idempotent (check origin) (dump .float) Valid := by
  refine .of (fun _ _ => valid_of_check) ?_
  intro draft valid
  have read := valid.check_dump .exact origin
  rwa [Sketch.faults_exact, Sketch.back_exact] at read

theorem Revision.idempotent (origin : Origin) : Idempotent (check origin) (dump .float) Valid := by
  refine .of (fun _ _ => valid_of_check) ?_
  intro revision valid
  have name := ((Idempotent.nameTo greatestNameLength).nullable fun _ => nofun).back revision.name valid.name
  have description := ((Idempotent.textTo greatestDescriptionLength).nullable fun _ => nofun).back revision.description
    valid.description
  have graph := ((Sketch.idempotent origin).nullable fun _ => nofun).back revision.graph valid.graph
  have version := (Idempotent.integer.nullable fun _ => nofun).back revision.schemaVersion fun _ _ => trivial
  simp [check, dump, Check.fields, Check.optional, Check.defaulted, Rows.find?, name, description, graph, version]

theorem Compiled.idempotent (origin : Origin) : Idempotent (check origin) dump fun _ => True := by
  refine .of (fun _ _ _ => trivial) ?_
  intro compiled _
  have program := (Idempotent.text.nullable fun _ => nofun).back compiled.program fun _ _ => trivial
  have diagnostics := Idempotent.text.list.back compiled.diagnostics fun _ _ => trivial
  have order := Idempotent.text.list.back compiled.order fun _ _ => trivial
  simp [check, dump, Check.fields, Check.optional, Check.required, Check.defaulted, Rows.find?, program, Check.text,
    Json.texts, diagnostics, order]

theorem checks_idempotent (origin : Origin) :
    Idempotent (Socket.check origin) Socket.dump Socket.Valid ∧
      Idempotent (Definition.check origin) Definition.dump Definition.Valid ∧
      Idempotent (Position.check origin) (Position.dump .float) (fun _ => True) ∧
      Idempotent (Connection.check origin) Connection.dump Connection.Valid ∧
      Idempotent (BlockRecord.check origin) (BlockRecord.dump .float) BlockRecord.Valid ∧
      Idempotent (Sketch.check origin) (Sketch.dump .float) Sketch.Valid ∧
      Idempotent (Draft.check origin) (Draft.dump .float) Draft.Valid ∧
      Idempotent (Revision.check origin) (Revision.dump .float) Revision.Valid ∧
      Idempotent (Compiled.check origin) Compiled.dump (fun _ => True) :=
  ⟨Socket.idempotent origin, Definition.idempotent origin, Position.idempotent origin, Connection.idempotent origin,
    BlockRecord.idempotent origin, Sketch.idempotent origin, Draft.idempotent origin, Revision.idempotent origin,
    Compiled.idempotent origin⟩

-- Flags, levels and versions in other spellings than the ones they are written in.
def looseDefinition : Json :=
  .object
    [("label", .text "enquanto"), ("id", .text "loop"), ("category", .text "control"), ("kind", .text "control"),
      ("pedagogy_level", .text " +03.0 "), ("has_next", .text "YES"), ("has_previous", .int 1), ("colour", .null),
      ("inputs", .list [.object [("id", .text "condition"), ("data_type", .text "boolean"),
        ("required", .float Binary64.zero), ("accepts", .list [])]])]

def firmDefinition : Definition :=
  { id := "loop", category := .control, kind := .control, label := "enquanto",
    inputs := [{ id := "condition", type := .boolean, required := false, accepts := some [] }],
    hasNext := true, hasPrevious := true, level := 3 }

def loosePlace : Json := .object [("y", .text " 0.1e1 "), ("x", .bool true)]

def looseDraft : Json :=
  .object
    [("name", .text "sum"), ("schema_version", .text "1_000"),
      ("graph", .object [("blocks", .list [.object [("uuid", .text "a"), ("definition_id", .text "io.write"),
        ("position", loosePlace), ("values", .object [("value", .int 3), ("note", .null)])]])])]

def firmDraft : Draft :=
  ⟨"sum", "", 1000, ⟨[⟨"a", "io.write", ⟨Binary64.one, Binary64.one⟩,
    Table.ofRows [("value", .int 3), ("note", .null)], [], none, none⟩]⟩⟩

theorem checks_idempotent_loose :
    (Definition.check .record looseDefinition = .accepted firmDefinition ∧
      Definition.check .record firmDefinition.dump = .accepted firmDefinition) ∧
    (Draft.check .request looseDraft = .accepted firmDraft ∧
      Draft.check .request (firmDraft.dump .float) = .accepted firmDraft) := by
  have definition : Definition.check .record looseDefinition = .accepted firmDefinition := by decide +kernel
  have draft : Draft.check .request looseDraft = .accepted firmDraft := by decide +kernel
  obtain ⟨_, definitions, _⟩ := checks_idempotent .record
  obtain ⟨_, _, _, _, _, _, drafts, _⟩ := checks_idempotent .request
  exact ⟨⟨definition, definitions.again _ _ definition⟩, draft, drafts.again _ _ draft⟩

end BlockCanvas
