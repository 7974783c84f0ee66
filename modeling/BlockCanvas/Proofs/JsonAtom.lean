import BlockCanvas.Json.Reader
import BlockCanvas.Json.Writer
import BlockCanvas.Proofs.NearestDouble
namespace BlockCanvas.Json

theorem readText_badUnit {e f g h : Char} (bad : hexUnit? e f g h = none) (rest : List Char) :
    readText ('\\' :: 'u' :: e :: f :: g :: h :: rest) = none := by
  rw [readText.eq_def]
  split
  next same => cases same
  next same => cases same
  next same =>
    cases same
    simp [bad]
  next same =>
    cases same
    simp [bad]
  next other same =>
    cases same
    exact absurd rfl (other _ _ _ _ _ rfl)
  next other same =>
    cases same
    exact absurd rfl (other _ _ rfl)

-- A control that is given by its number is read by itself, whatever comes next.
theorem readText_unit {a b c d : Char} {unit : Nat} (number : hexUnit? a b c d = some unit) (small : unit < 0x20)
    (rest : List Char) :
    readText ('\\' :: 'u' :: a :: b :: c :: d :: rest) =
      (readText rest).bind fun read => some (Char.ofNat unit :: read.1, read.2) := by
  have alone : Text.isHighUnit unit = false ∧ Text.isLowUnit unit = false := by
    simp only [Text.isHighUnit, Text.isLowUnit, Bool.and_eq_false_iff, decide_eq_false_iff_not]
    omega
  have char : Text.unitChar unit = Char.ofNat unit := by simp [Text.unitChar, alone]
  rw [readText.eq_def]
  split
  next same => cases same
  next same => cases same
  next e f g h later same =>
    cases same
    cases next : hexUnit? e f g h with
    | none => simp [number, readText_badUnit next]
    | some low => simp [number, alone.1, char]
  next same =>
    cases same
    simp [number, char]
  next other same =>
    cases same
    exact absurd rfl (other _ _ _ _ _ rfl)
  next other same =>
    cases same
    exact absurd rfl (other _ _ rfl)

theorem readText_letter {letter c : Char} (escape : simpleEscape? letter = some c) (rest : List Char) :
    readText ('\\' :: letter :: rest) = (readText rest).bind fun read => some (c :: read.1, read.2) := by
  have other : letter ≠ 'u' := by
    rintro rfl
    cases escape
  simp [readText, other, escape]

theorem hexUnit?_hexDigits : ∀ n < 0x20,
    Text.hexDigits 4 n = ['0', '0', Text.hexDigit (n / 16), Text.hexDigit (n % 16)] ∧
      hexUnit? '0' '0' (Text.hexDigit (n / 16)) (Text.hexDigit (n % 16)) = some n := by
  decide

theorem readText_escapedChar (c : Char) (rest : List Char) :
    readText (escapedChar c ++ rest) = (readText rest).bind fun read => some (c :: read.1, read.2) := by
  unfold escapedChar
  split_ifs with quote slash back form line carriage tab control
  · exact readText_letter (by rw [quote]; rfl) rest
  · exact readText_letter (by rw [slash]; rfl) rest
  · exact readText_letter (by rw [back]; rfl) rest
  · exact readText_letter (by rw [form]; rfl) rest
  · exact readText_letter (by rw [line]; rfl) rest
  · exact readText_letter (by rw [carriage]; rfl) rest
  · exact readText_letter (by rw [tab]; rfl) rest
  · obtain ⟨digits, number⟩ := hexUnit?_hexDigits c.toNat control
    have read := readText_unit number control rest
    rw [digits]
    rwa [Char.ofNat_toNat] at read
  · simp [readText, slash, control]

theorem readText_flatMap (text rest : List Char) : readText (text.flatMap escapedChar ++ '"' :: rest) = some (text, rest) := by
  induction text with
  | nil => simp [readText]
  | cons c text ih => rw [List.flatMap_cons, List.append_assoc, readText_escapedChar, ih, Option.bind_some]

-- Numbers.

theorem readWhole_digits {digits : Digits} (started : digits.Started) {rest : List Char}
    (ends : ∀ c ∈ rest.head?, c.isDigit = false) : readWhole (digits.chars ++ rest) = some (digits.chars, rest) := by
  have run := digits.takeWhile_append ends
  have left := digits.dropWhile_append ends
  rcases started with zero | other
  · rw [zero]
    rfl
  · obtain ⟨first, others, start, _⟩ := digits.first
    rw [start] at other run left ⊢
    have first : first ≠ '0' := by simpa using other
    simp only [List.cons_append] at run left ⊢
    simp [readWhole, first, run, left]

-- Nothing follows, or a mark.
def Ended (rest : List Char) : Prop := ∀ c ∈ rest.head?, (mark? c).isSome = true

theorem mark_cases {c : Char} (mark : (mark? c).isSome = true) : c ∈ ['[', ']', '\x7b', '\x7d', ':', ','] := by
  unfold mark? at mark
  split at mark <;> simp_all

theorem Ended.outside {rest : List Char} (ended : Ended rest) :
    ∀ c ∈ rest.head?, c.isDigit = false ∧ c ≠ '.' ∧ c ≠ 'e' ∧ c ≠ 'E' := by
  intro c first
  have listed := mark_cases (ended c first)
  simp only [List.mem_cons, List.not_mem_nil, or_false] at listed
  rcases listed with rfl | rfl | rfl | rfl | rfl | rfl <;> decide

theorem readFraction_pointText (fraction : Option Digits) {rest : List Char}
    (ends : ∀ c ∈ rest.head?, c.isDigit = false ∧ c ≠ '.') :
    readFraction (Numeral.pointText fraction ++ rest) = ((fraction.map Digits.chars).getD [], rest) := by
  cases fraction with
  | none =>
      cases rest with
      | nil => rfl
      | cons c rest => simp [Numeral.pointText, readFraction, (ends c rfl).2]
  | some digits =>
      have outside : ∀ c ∈ rest.head?, c.isDigit = false := fun c first => (ends c first).1
      simp [Numeral.pointText, readFraction, digits.takeWhile_append outside, digits.dropWhile_append outside, digits.filled]

theorem takeSign_signText (sign : Option Bool) (digits : Digits) (rest : List Char) :
    Number.takeSign (Numeral.signText sign ++ (digits.chars ++ rest)) = (sign.getD false, digits.chars ++ rest) := by
  obtain _ | negative := sign
  · obtain ⟨first, others, start, digit⟩ := digits.first
    have minus : first ≠ '-' := Digits.ne_of_isDigit digit rfl
    have plus : first ≠ '+' := Digits.ne_of_isDigit digit rfl
    simp [Numeral.signText, start, Number.takeSign, minus, plus]
  · cases negative <;> rfl

theorem readPower_powerText (power : Option (Option Bool × Digits)) {rest : List Char} (ended : Ended rest) :
    readPower (Numeral.powerText power ++ rest) = power.map fun pair => (Numeral.exponent (some pair), rest) := by
  obtain _ | ⟨sign, digits⟩ := power
  · cases rest with
    | nil => rfl
    | cons c rest =>
        obtain ⟨_, _, small, large⟩ := ended.outside c rfl
        simp [Numeral.powerText, readPower, small, large]
  · have outside : ∀ c ∈ rest.head?, c.isDigit = false := fun c first => (ended.outside c first).1
    simp [Numeral.powerText, readPower, takeSign_signText, digits.takeWhile_append outside,
      digits.dropWhile_append outside, digits.filled, Numeral.exponent, Digits.number]

-- The number that a numeral is read as.
def ofNumeral (numeral : Numeral) : Json :=
  if numeral.fraction.isSome ∨ numeral.power.isSome then
    .float (.ofDecimal numeral.negative numeral.decimal.coefficient numeral.decimal.exponent)
  else .int (Binary64.signed numeral.negative numeral.whole.number)

theorem readNumber_body {numeral : Numeral} (started : numeral.whole.Started) {rest : List Char} (ended : Ended rest) :
    readNumber numeral.negative (numeral.body ++ rest) = some (ofNumeral numeral, rest) := by
  obtain ⟨negative, whole, fraction, power⟩ := numeral
  have outside : ∀ c ∈ (Numeral.powerText power ++ rest).head?, c.isDigit = false ∧ c ≠ '.' := by
    cases power with
    | none => exact fun c first => ⟨(ended.outside c first).1, (ended.outside c first).2.1⟩
    | some pair =>
        intro c first
        cases first
        decide
  have ends : ∀ c ∈ (Numeral.pointText fraction ++ (Numeral.powerText power ++ rest)).head?, c.isDigit = false := by
    cases fraction with
    | none => exact fun c first => (outside c first).1
    | some digits =>
        intro c first
        cases first
        rfl
  have whole := readWhole_digits started ends
  simp only [Numeral.body, List.append_assoc, readNumber, whole, Option.bind_eq_bind, Option.bind_some,
    readFraction_pointText fraction outside, readPower_powerText power ended]
  cases power with
  | some pair =>
      cases fraction <;> simp [ofNumeral, Numeral.decimal, Digits.number]
  | none =>
      cases fraction with
      | none => simp [ofNumeral, Numeral.powerText, Digits.number]
      | some digits => simp [ofNumeral, Numeral.powerText, Numeral.decimal, Numeral.exponent, digits.filled]

-- Atoms.

theorem readWord_eq_none {c : Char} {text : List Char} (other : c ∉ ['n', 't', 'f', 'N', 'I', '-']) :
    readWord (c :: text) = none := by
  simp only [List.mem_cons, List.not_mem_nil, or_false, not_or] at other
  obtain ⟨null, yes, no, undefined, infinite, minus⟩ := other
  simp [readWord, words, Ne.symm null, Ne.symm yes, Ne.symm no, Ne.symm undefined, Ne.symm infinite, Ne.symm minus]

theorem readWord_minus {c : Char} {text : List Char} (other : c ≠ 'I') : readWord ('-' :: c :: text) = none := by
  simp [readWord, words, Ne.symm other]

theorem takeToken_atom {c : Char} {text rest : List Char} {data : Json} (plain : mark? c = none)
    (read : readAtom (c :: text) = some (data, rest)) : takeToken (c :: text) = some (.atom data, rest) := by
  rw [takeToken, plain]
  simp only [read, Option.map_some]

theorem takeToken_text (text : String) (rest : List Char) :
    takeToken (textChars text ++ rest) = some (.atom (.text text), rest) := by
  have read := readText_flatMap text.toList rest
  rw [textChars, List.cons_append, List.append_assoc, List.singleton_append]
  refine takeToken_atom rfl ?_
  rw [readAtom, readWord_eq_none (by decide)]
  simp [read]

theorem mark?_digit {c : Char} (digit : c.isDigit = true) : mark? c = none := by
  cases mark : mark? c with
  | none => rfl
  | some token =>
      have listed := mark_cases (Option.isSome_of_eq_some mark)
      simp only [List.mem_cons, List.not_mem_nil, or_false] at listed
      rcases listed with rfl | rfl | rfl | rfl | rfl | rfl <;> cases digit

theorem readAtom_digit {c : Char} (digit : c.isDigit = true) (text : List Char) :
    readAtom (c :: text) = readNumber false (c :: text) := by
  have word : c ∉ ['n', 't', 'f', 'N', 'I', '-'] := by
    intro listed
    simp only [List.mem_cons, List.not_mem_nil, or_false] at listed
    rcases listed with rfl | rfl | rfl | rfl | rfl | rfl <;> cases digit
  have quote : c ≠ '"' := Digits.ne_of_isDigit digit rfl
  have minus : c ≠ '-' := Digits.ne_of_isDigit digit rfl
  unfold readAtom
  rw [readWord_eq_none word]
  dsimp only
  split
  next same => exact absurd (List.cons.inj same).1 quote
  next same => exact absurd (List.cons.inj same).1 minus
  next => rfl

theorem readAtom_minus {c : Char} (digit : c.isDigit = true) (text : List Char) :
    readAtom ('-' :: c :: text) = readNumber true (c :: text) := by
  rw [readAtom, readWord_minus (Digits.ne_of_isDigit digit rfl)]

theorem takeToken_numeral {numeral : Numeral} (started : numeral.whole.Started) {rest : List Char} (ended : Ended rest) :
    takeToken (numeral.text ++ rest) = some (.atom (ofNumeral numeral), rest) := by
  have number := readNumber_body started ended
  obtain ⟨first, others, start, digit⟩ := numeral.whole.first
  obtain ⟨tail, body⟩ : ∃ tail, numeral.body ++ rest = first :: tail := by
    rw [Numeral.body, start]
    exact ⟨_, rfl⟩
  rw [Numeral.text, List.append_assoc]
  rw [body] at number ⊢
  cases sign : numeral.negative with
  | true =>
      rw [sign] at number
      exact takeToken_atom rfl ((readAtom_minus digit tail).trans number)
  | false =>
      rw [sign] at number
      exact takeToken_atom (mark?_digit digit) ((readAtom_digit digit tail).trans number)

-- A number whose text is a numeral that says it.
def Spelled (data : Json) : Prop :=
  ∃ numeral : Numeral, numeral.text = data.chars ∧ numeral.whole.Started ∧ ofNumeral numeral = data

theorem spelled_int (n : Int) : Spelled (.int n) := by
  refine ⟨⟨n < 0, Digits.ofNat n.natAbs, none, none⟩, ?_, Digits.started_ofNat _, ?_⟩
  · simp [Numeral.text, Numeral.body, Numeral.pointText, Numeral.powerText, chars, Digits.ofNat]
  · simp [ofNumeral, Decimal.signed_natAbs]

theorem spelled_float {x : Binary64} (finite : x.isFinite = true) (reduced : x.IsReduced) : Spelled (.float x) := by
  cases x with
  | infinite negative => cases finite
  | undefined => cases finite
  | finite negative significand exponent =>
      rcases Nat.eq_zero_or_pos significand with rfl | positive
      · obtain ⟨_, _, _, filled⟩ := reduced
        obtain rfl := filled.resolve_left (by norm_num)
        refine ⟨⟨negative, Digits.ofNat 0, some (Digits.ofNat 0), none⟩, rfl, Digits.started_ofNat 0, ?_⟩
        cases negative <;> rfl
      · obtain ⟨numeral, spells, broken⟩ :=
          (Binary64.shortest negative significand exponent).shownFrom_numeral (-5) Decimal.barePower_writes
        have sign : numeral.negative = negative := spells.negative.trans (Binary64.shortest_negative _ _ _)
        refine ⟨numeral, ?_, spells.started, ?_⟩
        · rw [spells.text, chars, floatChars, if_neg positive.ne']
          rfl
        · rw [ofNumeral, if_pos broken, sign, Binary64.ofDecimal_spelled reduced positive spells]

theorem Spelled.takeToken {data : Json} (spelled : Spelled data) {rest : List Char} (ended : Ended rest) :
    takeToken (data.chars ++ rest) = some (.atom data, rest) := by
  obtain ⟨numeral, text, started, same⟩ := spelled
  rw [← text, takeToken_numeral started ended, same]

theorem Spelled.start {data : Json} (spelled : Spelled data) :
    ∃ c text, data.chars = c :: text ∧ isGap c = false ∧ c ≠ ']' := by
  obtain ⟨numeral, text, _⟩ := spelled
  obtain ⟨first, others, start, digit⟩ := numeral.whole.first
  have gap : isGap first = false := by
    simp only [isGap, Bool.or_eq_false_iff, decide_eq_false_iff_not]
    exact ⟨⟨⟨Digits.ne_of_isDigit digit rfl, Digits.ne_of_isDigit digit rfl⟩, Digits.ne_of_isDigit digit rfl⟩,
      Digits.ne_of_isDigit digit rfl⟩
  obtain ⟨tail, body⟩ : ∃ tail, numeral.body = first :: tail := by
    rw [Numeral.body, start]
    exact ⟨_, rfl⟩
  rw [← text, Numeral.text, body]
  cases numeral.negative with
  | true => exact ⟨'-', first :: tail, rfl, rfl, by decide⟩
  | false => exact ⟨first, tail, rfl, gap, Digits.ne_of_isDigit digit rfl⟩

end BlockCanvas.Json
