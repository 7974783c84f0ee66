import BlockCanvas.Check.Fault
import BlockCanvas.Json
import BlockCanvas.Number.Reading
namespace BlockCanvas

-- Either a checked value, or every fault found, in the order of the fields.
inductive Checked (α : Type) where
  | accepted (value : α)
  | refused (faults : List Fault)
deriving DecidableEq

namespace Checked
variable {α β : Type}

-- Two independent checks: the faults of both are kept.
def both (check : Checked (α → β)) (other : Checked α) : Checked β :=
  match check, other with
  | .accepted change, .accepted value => .accepted (change value)
  | .accepted _, .refused faults => .refused faults
  | .refused faults, .accepted _ => .refused faults
  | .refused faults, .refused others => .refused (faults ++ others)

instance : Applicative Checked where
  pure := .accepted
  seq check other := both check (other ())

def fail (cause : Cause) : Checked α := .refused [⟨[], cause⟩]

-- Faults found inside a part are reported from the whole.
def under (step : Step) : Checked α → Checked α
  | .accepted value => .accepted value
  | .refused faults => .refused (faults.map fun fault => { fault with path := step :: fault.path })

-- A further check that looks only at what has passed.
def andThen (check : Checked α) (next : α → Checked β) : Checked β :=
  match check with
  | .accepted value => next value
  | .refused faults => .refused faults

@[simp] theorem pure_eq (value : α) : (pure value : Checked α) = .accepted value := rfl

@[simp] theorem map_accepted (change : α → β) (value : α) :
    change <$> (Checked.accepted value) = .accepted (change value) := rfl

@[simp] theorem seq_accepted (change : α → β) (value : α) :
    (Checked.accepted change) <*> (Checked.accepted value) = .accepted (change value) := rfl

@[simp] theorem under_accepted (step : Step) (value : α) :
    (Checked.accepted value).under step = .accepted value := rfl

@[simp] theorem andThen_accepted (value : α) (next : α → Checked β) :
    (Checked.accepted value).andThen next = next value := rfl

end Checked

-- Follows a path as far as it goes.
def Json.along (data : Json) : List Step → Json
  | [] => data
  | step :: rest =>
    match step, data with
    | .member name, .object members =>
      match Rows.find? name members with
      | some part => part.along rest
      | none => data
    | .item index, .list items =>
      match items[index]? with
      | some part => part.along rest
      | none => data
    | _, _ => data

-- The part of the data that a fault is about: of a missing member, the object that lacks it.
def Fault.about (data : Json) (fault : Fault) : Json := data.along fault.path

-- Where data comes from decides how a missing object is named.
inductive Origin where
  | record
  | request
deriving DecidableEq

def Origin.notObject (origin : Origin) (model : String) : Cause :=
  match origin with
  | .record => .notRecord model
  | .request => .notObject

namespace Check
variable {α : Type}

-- The members of an object, handed to the check of a model.
def fields (origin : Origin) (model : String) (data : Json)
    (check : List (String × Json) → Checked α) : Checked α :=
  match data with
  | .object members => check members
  | _ => .fail (origin.notObject model)

def required (members : List (String × Json)) (name : String) (check : Json → Checked α) : Checked α :=
  match Rows.find? name members with
  | none => .refused [⟨[.member name], .missing⟩]
  | some data => (check data).under (.member name)

def defaulted (members : List (String × Json)) (name : String) (default : α)
    (check : Json → Checked α) : Checked α :=
  match Rows.find? name members with
  | none => .accepted default
  | some data => (check data).under (.member name)

def nullable (check : Json → Checked α) : Json → Checked (Option α)
  | .null => .accepted none
  | data => some <$> check data

def optional (members : List (String × Json)) (name : String) (check : Json → Checked α) :
    Checked (Option α) :=
  defaulted members name none (nullable check)

def text : Json → Checked String
  | .text value => .accepted value
  | _ => .fail .notText

-- Lengths count code points.
def textFrom (least : Nat) (data : Json) : Checked String :=
  (text data).andThen fun value =>
    if value.length < least then .fail (.tooShort least) else .accepted value

def textTo (most : Nat) (data : Json) : Checked String :=
  (text data).andThen fun value =>
    if most < value.length then .fail (.tooLong most) else .accepted value

def name (data : Json) : Checked String := textFrom 1 data

def nameTo (most : Nat) (data : Json) : Checked String :=
  (name data).andThen fun value => textTo most (.text value)

-- A double stands for an integer when it is whole and fits a signed word of 64 bits.
def wordBound : Int := Int.pow 2 63

def integerOfFloat (x : Binary64) : Checked Int :=
  if x.isFinite then
    match x.integer? with
    | some n => if -wordBound < n ∧ n < wordBound then .accepted n else .fail .beyondWord
    | none => .fail .fractional
  else .fail .notFinite

def integer : Json → Checked Int
  | .int n => .accepted n
  | .bool value => .accepted (if value then 1 else 0)
  | .float x => integerOfFloat x
  | .text value =>
      match Number.integerField value with
      | .value n => .accepted n
      | .malformed => .fail .notIntegerText
      | .oversized => .fail .beyondWord
  | _ => .fail .notInteger

def integerWithin (least most : Int) (data : Json) : Checked Int :=
  (integer data).andThen fun n =>
    if n < least then .fail (.below least)
    else if most < n then .fail (.above most)
    else .accepted n

def number : Json → Checked Binary64
  | .float x => .accepted x
  | .int n =>
      let x := Binary64.ofInt n
      if x.isFinite then .accepted x else .fail .notNumber
  | .bool value => .accepted (if value then Binary64.one else Binary64.zero)
  | .text value =>
      match Number.floatField? value with
      | some x => .accepted x
      | none => .fail .notNumberText
  | _ => .fail .notNumber

def flagWords : List (String × Bool) :=
  [("0", false), ("1", true), ("f", false), ("t", true), ("n", false), ("y", true), ("no", false),
    ("yes", true), ("off", false), ("on", true), ("false", false), ("true", true)]

-- Zero and one answer; any other integer of 64 bits is read and not understood.
def flagOfInteger (n : Int) : Checked Bool :=
  if n = 0 then .accepted false
  else if n = 1 then .accepted true
  else if -wordBound ≤ n ∧ n < wordBound then .fail .notFlagText
  else .fail .notFlag

def flag : Json → Checked Bool
  | .bool value => .accepted value
  | .int n => flagOfInteger n
  | .float x =>
      match integerOfFloat x with
      | .accepted n => flagOfInteger n
      | .refused _ => .fail .notFlag
  | .text value =>
      match Rows.find? (value.map Char.toLower) flagWords with
      | some answer => .accepted answer
      | none => .fail .notFlagText
  | _ => .fail .notFlag

def choice (options : List (String × α)) : Json → Checked α
  | .text value =>
      match Rows.find? value options with
      | some answer => .accepted answer
      | none => .fail (.notChoice (Rows.keys options))
  | _ => .fail (.notChoice (Rows.keys options))

-- Every item is checked; faults name the place of their item.
def items (check : Json → Checked α) : Nat → List Json → Checked (List α)
  | _, [] => .accepted []
  | index, data :: rest =>
      List.cons <$> (check data).under (.item index) <*> items check (index + 1) rest

def list (check : Json → Checked α) : Json → Checked (List α)
  | .list data => items check 0 data
  | _ => .fail .notList

def tuple (check : Json → Checked α) : Json → Checked (List α)
  | .list data => items check 0 data
  | _ => .fail .notTuple

def members (check : Json → Checked α) : List (String × Json) → Checked (List (String × α))
  | [] => .accepted []
  | (key, data) :: rest =>
      List.cons <$> (Prod.mk key <$> (check data).under (.member key)) <*> members check rest

def table (check : Json → Checked α) : Json → Checked (Table α)
  | .object data => Table.ofRows <$> members check data
  | _ => .fail .notTable

-- A block value is kept as it is; anything else fails as each of the four kinds it could be.
def value : Json → Checked Value
  | .null => .accepted .null
  | .bool value => .accepted (.bool value)
  | .int value => .accepted (.int value)
  | .float value => .accepted (.float value)
  | .text value => .accepted (.text value)
  | _ => .refused
      [⟨[.kind "str"], .notText⟩, ⟨[.kind "int"], .notInteger⟩,
        ⟨[.kind "float"], .notNumber⟩, ⟨[.kind "bool"], .notFlag⟩]

end Check
end BlockCanvas
