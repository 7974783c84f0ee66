import BlockCanvas.Proofs.JsonAtom
import BlockCanvas.Proofs.Table
namespace BlockCanvas.Json

mutual

-- The whole numbers of the data, as they come in its text.
def wholes : Json → List Int
  | .int value => [value]
  | .list items => itemWholes items
  | .object members => memberWholes members
  | _ => []

def itemWholes : List Json → List Int
  | [] => []
  | item :: rest => wholes item ++ itemWholes rest

def memberWholes : List (String × Json) → List Int
  | [] => []
  | (_, value) :: rest => wholes value ++ memberWholes rest

end

theorem itemWholes_eq (items : List Json) : itemWholes items = items.flatMap wholes := by
  induction items with
  | nil => rfl
  | cons item rest ih => rw [itemWholes, ih, List.flatMap_cons]

theorem memberWholes_eq (members : List (String × Json)) :
    memberWholes members = members.flatMap fun member => member.2.wholes := by
  induction members with
  | nil => rfl
  | cons member rest ih => rw [memberWholes, ih, List.flatMap_cons]

-- What is nested no deeper than this, with finite doubles only, and with no name given twice in an object.
inductive Legible : Nat → Json → Prop where
  | null : Legible depth .null
  | bool : Legible depth (.bool value)
  | int : Legible depth (.int value)
  | float : value.isFinite = true → value.IsReduced → Legible depth (.float value)
  | text : Legible depth (.text value)
  | list : (∀ item ∈ items, Legible depth item) → Legible (depth + 1) (.list items)
  | object : (Rows.keys members).Nodup → (∀ member ∈ members, Legible depth member.2) →
      Legible (depth + 1) (.object members)

-- The first whole number that is too long ends the reading.
def settled (wholes : List Int) (next : Reading) : Except ReadError Reading :=
  match wholes.find? (!Number.fits ·) with
  | none => .ok next
  | some n => .error (.oversized (.read (Decimal.digits n.natAbs).length))

-- Reading the text, with an end to it, comes to the outcome, and enough steps are left for what follows.
def Takes (room : Nat) (state : Reading) (text : List Char) (outcome : Except ReadError Reading) : Prop :=
  ∀ rest steps, Ended rest → (text ++ rest).length ≤ steps →
    match outcome with
    | .ok next => ∃ left, rest.length ≤ left ∧ state.run room steps (text ++ rest) = next.run room left rest
    | .error error => state.run room steps (text ++ rest) = .error error

section Taking
variable {room : Nat} {state next : Reading} {text more : List Char} {outcome : Except ReadError Reading}
  {c : Char} {token : Token} {first second : List Int} {last : Reading}

theorem Takes.of_token (plain : isGap c = false)
    (taken : ∀ rest, Ended rest → takeToken (c :: text ++ rest) = some (token, rest)) :
    Takes room state (c :: text) (state.advance room token) := by
  intro rest steps ended enough
  rw [List.cons_append, List.length_cons, List.length_append] at enough
  obtain ⟨left, rfl⟩ : ∃ left, steps = left + 1 := ⟨steps - 1, by omega⟩
  have token := taken rest ended
  rw [List.cons_append] at token ⊢
  simp only [Reading.run, plain, token]
  cases state.advance room _ with
  | error error => rfl
  | ok next => exact ⟨left, by omega, rfl⟩

-- A token that does not care for what follows.
theorem Takes.after (plain : isGap c = false) (taken : ∀ rest, takeToken (c :: text ++ rest) = some (token, rest))
    (moved : state.advance room token = .ok next) (later : Takes room next more outcome) :
    Takes room state (c :: text ++ more) outcome := by
  intro rest steps ended enough
  rw [List.append_assoc, List.cons_append, List.length_cons, List.length_append, List.length_append] at enough
  obtain ⟨left, rfl⟩ : ∃ left, steps = left + 1 := ⟨steps - 1, by omega⟩
  have token := taken (more ++ rest)
  have same : state.run room (left + 1) (c :: text ++ more ++ rest) = next.run room left (more ++ rest) := by
    rw [List.append_assoc]
    rw [List.cons_append] at token ⊢
    simp only [Reading.run, plain, token, moved]
    rfl
  rw [same]
  exact later rest left ended (by rw [List.length_append]; omega)

theorem Takes.mark (marks : mark? c = some token) (moved : state.advance room token = .ok next)
    (later : Takes room next more outcome) : Takes room state (c :: more) outcome := by
  have plain : isGap c = false := by
    have listed := mark_cases (Option.isSome_of_eq_some marks)
    simp only [List.mem_cons, List.not_mem_nil, or_false] at listed
    rcases listed with rfl | rfl | rfl | rfl | rfl | rfl <;> rfl
  have taken : ∀ rest, takeToken (c :: [] ++ rest) = some (token, rest) := by
    intro rest
    rw [List.singleton_append, takeToken, marks]
  exact Takes.after plain taken moved later

theorem Takes.nil : Takes room state [] (.ok state) := fun _ steps _ enough => ⟨steps, enough, rfl⟩

theorem Takes.append (here : Takes room state text (settled first next)) (ends : Ended more) (some : more ≠ [])
    (later : Takes room next more (settled second last)) :
    Takes room state (text ++ more) (settled (first ++ second) last) := by
  intro rest steps ended enough
  have stops : Ended (more ++ rest) := by
    cases more with
    | nil => contradiction
    | cons c more => exact ends
  rw [List.append_assoc] at enough ⊢
  have start := here (more ++ rest) steps stops enough
  unfold settled at start later ⊢
  rw [List.find?_append]
  cases found : first.find? (!Number.fits ·) with
  | some n =>
      rw [found] at start
      exact start
  | none =>
      rw [found] at start
      obtain ⟨left, remains, same⟩ := start
      rw [same]
      exact later rest left ended remains

end Taking

theorem takeToken_inside {c : Char} {text left : List Char} {token : Token} (other : c ≠ ']')
    (taken : takeToken (c :: text) = some (token, left)) : token ≠ .listEnd := by
  rintro rfl
  rw [takeToken] at taken
  cases mark : mark? c with
  | some token =>
      simp only [mark, Option.some.injEq, Prod.mk.injEq] at taken
      rw [taken.1] at mark
      unfold mark? at mark
      split at mark <;> simp_all
  | none =>
      rw [mark] at taken
      simp at taken

section Parts
variable {room : Nat} {frames : List Frame} {outcome : Except ReadError Reading}

-- The first item of a list is read as any other.
theorem Takes.first_item {c : Char} {text : List Char} (plain : isGap c = false) (other : c ≠ ']')
    (taking : Takes room (.atValue (.list [] :: frames)) (c :: text) outcome) :
    Takes room (.atFirstItem frames) (c :: text) outcome := by
  intro rest steps ended enough
  have same : (Reading.atFirstItem frames).run room steps (c :: text ++ rest) =
      (Reading.atValue (.list [] :: frames)).run room steps (c :: text ++ rest) := by
    cases steps with
    | zero => rfl
    | succ steps =>
        rw [List.cons_append]
        simp only [Reading.run, plain, Bool.false_eq_true, if_false]
        cases taken : takeToken (c :: (text ++ rest)) with
        | none => rfl
        | some pair =>
            obtain ⟨token, left⟩ := pair
            have inside := takeToken_inside other taken
            have advance : (Reading.atFirstItem frames).advance room token =
                (Reading.atValue (.list [] :: frames)).advance room token := by
              cases token <;> first | rfl | contradiction
            simp only [advance]
  rw [same]
  exact taking rest steps ended enough

theorem moreItemChars_ended (items : List Json) : Ended (moreItemChars items) ∧ moreItemChars items ≠ [] := by
  cases items <;> simp [moreItemChars, Ended, mark?]

theorem moreMemberChars_ended (members : List (String × Json)) :
    Ended (moreMemberChars members) ∧ moreMemberChars members ≠ [] := by
  obtain _ | ⟨⟨name, value⟩, rest⟩ := members <;> simp [moreMemberChars, Ended, mark?]

-- Data that is read back wherever it stands inside the frames.
def TakesInside (room : Nat) (frames : List Frame) (data : Json) : Prop :=
  ∀ frame, Takes room (.atValue (frame :: frames)) data.chars (settled data.wholes (.atEnd (frame :: frames) data))

theorem takes_moreItems {items : List Json} (each : ∀ item ∈ items, TakesInside room frames item) (before : List Json)
    (value : Json) :
    Takes room (.atEnd (.list before :: frames) value) (moreItemChars items)
      (settled (itemWholes items) (.atEnd frames (.list ((value :: before).reverse ++ items)))) := by
  induction items generalizing before value with
  | nil =>
      rw [List.append_nil]
      exact Takes.mark rfl rfl .nil
  | cons item rest ih =>
      obtain ⟨here, later⟩ := List.forall_mem_cons.mp each
      obtain ⟨ended, some⟩ := moreItemChars_ended rest
      have moved : (Reading.atEnd (.list before :: frames) value).advance room .comma =
          .ok (.atValue (.list (value :: before) :: frames)) := rfl
      have tail := ih later (value :: before) item
      rw [List.reverse_cons, List.append_assoc, List.singleton_append] at tail
      exact Takes.mark rfl moved ((here (.list (value :: before))).append ended some tail)

theorem takes_member {state : Reading} {members : List (String × Json)} {name : String} {text : List Char}
    (named : state.advance room (.atom (.text name)) = .ok (.atColon frames members name))
    (taking : Takes room (.atValue (.member members name :: frames)) text outcome) :
    Takes room state (textChars name ++ ':' :: text) outcome := by
  have colon : (Reading.atColon frames members name).advance room .colon = .ok (.atValue (.member members name :: frames)) :=
    rfl
  exact Takes.after rfl (takeToken_text name) named (Takes.mark rfl colon taking)

theorem takes_moreMembers {members : List (String × Json)} (each : ∀ member ∈ members, TakesInside room frames member.2)
    (before : List (String × Json)) (name : String) (value : Json) :
    Takes room (.atEnd (.member before name :: frames) value) (moreMemberChars members)
      (settled (memberWholes members) (.atEnd frames (ofMembers (((name, value) :: before).reverse ++ members)))) := by
  induction members generalizing before name value with
  | nil =>
      rw [List.append_nil]
      exact Takes.mark rfl rfl .nil
  | cons member rest ih =>
      obtain ⟨next, data⟩ := member
      obtain ⟨here, later⟩ := List.forall_mem_cons.mp each
      obtain ⟨ended, some⟩ := moreMemberChars_ended rest
      have tail := ih later ((name, value) :: before) next data
      rw [List.reverse_cons, List.append_assoc, List.singleton_append] at tail
      have whole := (here (.member ((name, value) :: before) next)).append ended some tail
      have moved : (Reading.atEnd (.member before name :: frames) value).advance room .comma =
          .ok (.atName frames ((name, value) :: before)) := rfl
      exact Takes.mark rfl moved (takes_member rfl whole)

theorem takes_items {items : List Json} (each : ∀ item ∈ items, TakesInside room frames item)
    (started : ∀ item ∈ items, ∃ c text, item.chars = c :: text ∧ isGap c = false ∧ c ≠ ']') :
    Takes room (.atFirstItem frames) (itemChars items) (settled (itemWholes items) (.atEnd frames (.list items))) := by
  cases items with
  | nil => exact Takes.mark rfl rfl .nil
  | cons item rest =>
      obtain ⟨here, later⟩ := List.forall_mem_cons.mp each
      obtain ⟨ended, some⟩ := moreItemChars_ended rest
      obtain ⟨c, text, start, plain, other⟩ := started item List.mem_cons_self
      have first : Takes room (.atFirstItem frames) item.chars (settled item.wholes (.atEnd (.list [] :: frames) item)) := by
        have taking := here (.list [])
        rw [start] at taking ⊢
        exact taking.first_item plain other
      exact first.append ended some (takes_moreItems later [] item)

theorem takes_members {members : List (String × Json)} (each : ∀ member ∈ members, TakesInside room frames member.2) :
    Takes room (.atFirstName frames) (memberChars members)
      (settled (memberWholes members) (.atEnd frames (ofMembers members))) := by
  cases members with
  | nil => exact Takes.mark rfl rfl .nil
  | cons member rest =>
      obtain ⟨name, value⟩ := member
      obtain ⟨here, later⟩ := List.forall_mem_cons.mp each
      obtain ⟨ended, some⟩ := moreMemberChars_ended rest
      exact takes_member rfl ((here (.member [] name)).append ended some (takes_moreMembers later [] name value))

end Parts

theorem chars_start {depth : Nat} {data : Json} (legible : Legible depth data) :
    ∃ c text, data.chars = c :: text ∧ isGap c = false ∧ c ≠ ']' := by
  cases legible with
  | null => exact ⟨'n', _, rfl, rfl, by decide⟩
  | @bool _ value => cases value <;> exact ⟨_, _, rfl, rfl, by decide⟩
  | int => exact (spelled_int _).start
  | float finite reduced => exact (spelled_float finite reduced).start
  | text => exact ⟨'"', _, rfl, rfl, by decide⟩
  | list => exact ⟨'[', _, rfl, rfl, by decide⟩
  | object => exact ⟨'\x7b', _, rfl, rfl, by decide⟩

theorem ofMembers_eq {members : List (String × Json)} (distinct : (Rows.keys members).Nodup) :
    ofMembers members = .object members := by
  rw [ofMembers, Table.rows_ofRows distinct]

-- Numbers need an end to them; the other atoms are told by their first characters.
theorem Legible.takes_atom {depth room : Nat} {data : Json} (frames : List Frame) (legible : Legible depth data)
    (taken : ∀ rest, Ended rest → takeToken (data.chars ++ rest) = some (.atom data, rest)) :
    Takes room (.atValue frames) data.chars ((Reading.atValue frames).advance room (.atom data)) := by
  obtain ⟨c, text, start, plain, _⟩ := chars_start legible
  rw [start] at taken ⊢
  exact Takes.of_token plain taken

theorem Legible.takes {depth room : Nat} {data : Json} (legible : Legible depth data) (frames : List Frame)
    (fits : frames.length + depth ≤ room) :
    Takes room (.atValue frames) data.chars (settled data.wholes (.atEnd frames data)) := by
  induction legible generalizing frames with
  | @null depth => exact (@Legible.null depth).takes_atom frames fun _ _ => rfl
  | @bool depth value =>
      refine (@Legible.bool depth value).takes_atom frames fun rest _ => ?_
      cases value <;> rfl
  | @int depth n =>
      have long : settled [n] (.atEnd frames (.int n)) = (Reading.atValue frames).advance room (.atom (.int n)) := by
        cases short : Number.fits n <;> simp [settled, Reading.advance, Reading.takeValue, short]
      rw [wholes, long]
      exact (@Legible.int depth n).takes_atom frames fun _ => (spelled_int n).takeToken
  | @float x depth finite reduced =>
      exact (@Legible.float x depth finite reduced).takes_atom frames fun _ => (spelled_float finite reduced).takeToken
  | @text depth value => exact (@Legible.text depth value).takes_atom frames fun rest _ => takeToken_text value rest
  | @list items depth inner ih =>
      have each : ∀ item ∈ items, TakesInside room frames item := by
        intro item listed frame
        exact ih item listed (frame :: frames) (by rw [List.length_cons]; omega)
      have moved : (Reading.atValue frames).advance room .listStart = .ok (.atFirstItem frames) := if_pos (by omega)
      exact Takes.mark rfl moved (takes_items each fun item listed => chars_start (inner item listed))
  | @object members depth distinct inner ih =>
      have each : ∀ member ∈ members, TakesInside room frames member.2 := by
        intro member listed frame
        exact ih member listed (frame :: frames) (by rw [List.length_cons]; omega)
      have moved : (Reading.atValue frames).advance room .objectStart = .ok (.atFirstName frames) := if_pos (by omega)
      have taking := takes_members each
      rw [ofMembers_eq distinct] at taking
      exact Takes.mark rfl moved taking

-- What is written is read as it was, unless a whole number is too long; the first one is then reported.
theorem read_write {depth room : Nat} {data : Json} (legible : Legible depth data) (fits : depth ≤ room) :
    read room data.write =
      match data.wholes.find? (!Number.fits ·) with
      | none => .ok data
      | some n => .error (.oversized (.read (Decimal.digits n.natAbs).length)) := by
  have ended : Ended [] := by simp [Ended]
  have enough : (data.chars ++ []).length ≤ data.write.length := by simp [write]
  have whole := legible.takes [] (by simpa using fits) [] data.write.length ended enough
  have text : data.write.toList = data.chars ++ [] := by simp [write]
  rw [read, text]
  unfold settled at whole
  cases found : data.wholes.find? (!Number.fits ·) with
  | some n =>
      rw [found] at whole
      exact whole
  | none =>
      rw [found] at whole
      obtain ⟨left, _, same⟩ := whole
      rw [same]
      cases left <;> rfl

-- Every number with a fraction is a double in its one form.
inductive IsReduced : Json → Prop where
  | null : IsReduced .null
  | bool : IsReduced (.bool value)
  | int : IsReduced (.int value)
  | float : value.IsReduced → IsReduced (.float value)
  | text : IsReduced (.text value)
  | list : (∀ item ∈ items, IsReduced item) → IsReduced (.list items)
  | object : (∀ member ∈ members, IsReduced member.2) → IsReduced (.object members)

namespace IsReduced

theorem float_iff {x : Binary64} : (Json.float x).IsReduced ↔ x.IsReduced :=
  ⟨fun reduced => by cases reduced with | float own => exact own, .float⟩

theorem list_iff {items : List Json} : (Json.list items).IsReduced ↔ ∀ item ∈ items, item.IsReduced :=
  ⟨fun reduced => by cases reduced with | list each => exact each, .list⟩

theorem object_iff {members : List (String × Json)} :
    (Json.object members).IsReduced ↔ ∀ member ∈ members, member.2.IsReduced :=
  ⟨fun reduced => by cases reduced with | object each => exact each, .object⟩

end IsReduced

-- Whatever is read holds doubles in their one form: this is so of every token, and of what is open after each step.

def Token.IsReduced : Token → Prop
  | .atom value => value.IsReduced
  | _ => True

def Frame.IsReduced : Frame → Prop
  | .list items => ∀ item ∈ items, item.IsReduced
  | .member members _ => ∀ member ∈ members, member.2.IsReduced

def Reading.IsReduced : Reading → Prop
  | .atValue frames => ∀ frame ∈ frames, frame.IsReduced
  | .atFirstItem frames => ∀ frame ∈ frames, frame.IsReduced
  | .atFirstName frames => ∀ frame ∈ frames, frame.IsReduced
  | .atName frames members => (∀ frame ∈ frames, frame.IsReduced) ∧ ∀ member ∈ members, member.2.IsReduced
  | .atColon frames members _ => (∀ frame ∈ frames, frame.IsReduced) ∧ ∀ member ∈ members, member.2.IsReduced
  | .atEnd frames value => (∀ frame ∈ frames, frame.IsReduced) ∧ value.IsReduced

theorem readNumber_isReduced {negative : Bool} {text left : List Char} {value : Json}
    (taken : readNumber negative text = some (value, left)) : value.IsReduced := by
  unfold readNumber at taken
  obtain ⟨⟨whole, rest⟩, _, taken⟩ := Option.bind_eq_some_iff.mp taken
  dsimp only at taken
  split at taken
  · cases taken
    exact .float (Binary64.ofDecimal_isReduced _ _ _)
  · split_ifs at taken
    · cases taken
      exact .int
    · cases taken
      exact .float (Binary64.ofDecimal_isReduced _ _ _)

theorem readWord_isReduced {text left : List Char} {value : Json} (taken : readWord text = some (value, left)) :
    value.IsReduced := by
  obtain ⟨word, listed, found⟩ := List.exists_of_findSome?_eq_some taken
  split_ifs at found
  cases found
  simp only [words, List.mem_cons, List.not_mem_nil, or_false] at listed
  rcases listed with rfl | rfl | rfl | rfl | rfl | rfl
  · exact .null
  · exact .bool
  · exact .bool
  · exact .float trivial
  · exact .float trivial
  · exact .float trivial

theorem readAtom_isReduced {text left : List Char} {value : Json} (taken : readAtom text = some (value, left)) :
    value.IsReduced := by
  unfold readAtom at taken
  split at taken
  · next found =>
      cases taken
      exact readWord_isReduced found
  · split at taken
    · obtain ⟨read, _, same⟩ := Option.map_eq_some_iff.mp taken
      cases same
      exact .text
    · exact readNumber_isReduced taken
    · exact readNumber_isReduced taken

theorem takeToken_isReduced {text left : List Char} {token : Token} (taken : takeToken text = some (token, left)) :
    token.IsReduced := by
  unfold takeToken at taken
  split at taken
  · cases taken
  · split at taken
    · next marked =>
        cases taken
        unfold mark? at marked
        split at marked <;> cases marked <;> trivial
    · obtain ⟨read, atom, same⟩ := Option.map_eq_some_iff.mp taken
      cases same
      exact readAtom_isReduced atom

theorem ofMembers_isReduced {members : List (String × Json)} (each : ∀ member ∈ members, member.2.IsReduced) :
    (ofMembers members).IsReduced := by
  refine .object ?_
  intro member listed
  exact each _ (Table.mem_of_get?_ofRows (Table.mem_rows_iff.mp listed))

namespace Reading
variable {room : Nat} {frames : List Frame} {state next : Reading} {token : Token}

theorem takeValue_isReduced (reduced : ∀ frame ∈ frames, frame.IsReduced) (own : token.IsReduced)
    (taken : takeValue room frames token = .ok next) : next.IsReduced := by
  unfold takeValue at taken
  split at taken
  · split_ifs at taken
    cases taken
    exact ⟨reduced, own⟩
  · cases taken
    exact ⟨reduced, own⟩
  · unfold enter at taken
    split_ifs at taken
    cases taken
    exact reduced
  · unfold enter at taken
    split_ifs at taken
    cases taken
    exact reduced
  · cases taken

theorem takeName_isReduced {members : List (String × Json)} (reduced : ∀ frame ∈ frames, frame.IsReduced)
    (each : ∀ member ∈ members, member.2.IsReduced) (taken : takeName frames members token = .ok next) :
    next.IsReduced := by
  unfold takeName at taken
  split at taken
  · cases taken
    exact ⟨reduced, each⟩
  · cases taken

theorem advance_isReduced (reduced : state.IsReduced) (own : token.IsReduced)
    (moved : state.advance room token = .ok next) : next.IsReduced := by
  unfold advance at moved
  split at moved
  · exact takeValue_isReduced reduced own moved
  · cases moved
    exact ⟨reduced, .list (List.forall_mem_nil _)⟩
  · have fresh : (Frame.list []).IsReduced := List.forall_mem_nil _
    exact takeValue_isReduced (List.forall_mem_cons.mpr ⟨fresh, reduced⟩) own moved
  · cases moved
    exact ⟨reduced, .object (List.forall_mem_nil _)⟩
  · exact takeName_isReduced reduced (List.forall_mem_nil _) moved
  · exact takeName_isReduced reduced.1 reduced.2 moved
  · cases moved
    exact List.forall_mem_cons.mpr ⟨reduced.2, reduced.1⟩
  · cases moved
    obtain ⟨items, outer⟩ := List.forall_mem_cons.mp reduced.1
    exact List.forall_mem_cons.mpr ⟨List.forall_mem_cons.mpr ⟨reduced.2, items⟩, outer⟩
  · cases moved
    obtain ⟨items, outer⟩ := List.forall_mem_cons.mp reduced.1
    refine ⟨outer, .list ?_⟩
    intro item listed
    rcases List.mem_cons.mp (List.mem_reverse.mp listed) with rfl | inner
    · exact reduced.2
    · exact items item inner
  · cases moved
    obtain ⟨members, outer⟩ := List.forall_mem_cons.mp reduced.1
    exact ⟨outer, List.forall_mem_cons.mpr ⟨reduced.2, members⟩⟩
  · cases moved
    obtain ⟨members, outer⟩ := List.forall_mem_cons.mp reduced.1
    refine ⟨outer, ofMembers_isReduced ?_⟩
    intro member listed
    rcases List.mem_cons.mp (List.mem_reverse.mp listed) with rfl | inner
    · exact reduced.2
    · exact members member inner
  · cases moved

theorem finish_isReduced {data : Json} (reduced : state.IsReduced) (finished : state.finish = .ok data) :
    data.IsReduced := by
  unfold finish at finished
  split at finished
  · cases finished
    exact reduced.2
  · cases finished

theorem run_isReduced {steps : Nat} {text : List Char} {data : Json} (reduced : state.IsReduced)
    (finished : run room steps state text = .ok data) : data.IsReduced := by
  induction steps generalizing state text with
  | zero =>
      cases text with
      | nil => exact finish_isReduced reduced finished
      | cons c rest => cases finished
  | succ steps ih =>
      cases text with
      | nil => exact finish_isReduced reduced finished
      | cons c rest =>
          rw [run] at finished
          split_ifs at finished
          · exact ih reduced finished
          · split at finished
            · cases finished
            · next taken =>
                split at finished
                · cases finished
                · next moved => exact ih (advance_isReduced reduced (takeToken_isReduced taken) moved) finished

end Reading

theorem read_isReduced {room : Nat} {text : String} {data : Json} (done : read room text = .ok data) : data.IsReduced := by
  have start : (Reading.atValue []).IsReduced := List.forall_mem_nil _
  exact Reading.run_isReduced start done

end BlockCanvas.Json
