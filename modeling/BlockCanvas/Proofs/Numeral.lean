import BlockCanvas.Number.Decimal
import BlockCanvas.Number.Reading
import BlockCanvas.Proofs.Spelling
import Mathlib
namespace BlockCanvas

-- Digits in a row, at least one.
structure Digits where
  chars : List Char
  filled : chars ≠ []
  decimal : ∀ c ∈ chars, c.isDigit = true

namespace Digits

def number (digits : Digits) : Nat := Number.ofDigits digits.chars

def ofChars? (chars : List Char) : Option Digits :=
  if valid : chars ≠ [] ∧ ∀ c ∈ chars, c.isDigit = true then some ⟨chars, valid.1, valid.2⟩ else none

def ofNat (n : Nat) : Digits :=
  ⟨Decimal.digits n, Nat.toDigits_ne_nil, fun _ => Nat.isDigit_of_mem_toDigits (by decide) (by decide)⟩

@[simp] theorem ofChars?_chars (digits : Digits) : ofChars? digits.chars = some digits := by
  rw [ofChars?, dif_pos ⟨digits.filled, digits.decimal⟩]

@[simp] theorem number_ofNat (n : Nat) : (ofNat n).number = n :=
  Nat.ofDigitChars_ten_toDigits

theorem length_pos (digits : Digits) : 0 < digits.chars.length :=
  List.length_pos_of_ne_nil digits.filled

theorem ofDigits_append (front back : List Char) :
    Number.ofDigits (front ++ back) = Number.ofDigits front * 10 ^ back.length + Number.ofDigits back := by
  change Nat.ofDigitChars 10 (front ++ back) 0 = Nat.ofDigitChars 10 front 0 * 10 ^ back.length + Nat.ofDigitChars 10 back 0
  rw [Nat.ofDigitChars_append, Nat.ofDigitChars_eq_ofDigitChars_zero, Nat.mul_comm]

theorem ofDigits_zeros (count : Nat) (text : List Char) :
    Number.ofDigits (List.replicate count '0' ++ text) = Number.ofDigits text := by
  have zeros : Number.ofDigits (List.replicate count '0') = 0 := Nat.ofDigitChars_replicate_zero
  rw [ofDigits_append, zeros, Nat.zero_mul, Nat.zero_add]

-- Zeros in front change how the digits look and not what they say.
def padded (digits : Digits) (count : Nat) : Digits where
  chars := List.replicate count '0' ++ digits.chars
  filled := by simp [digits.filled]
  decimal := by
    intro c listed
    rcases List.mem_append.mp listed with zero | own
    · rw [List.eq_of_mem_replicate zero]
      rfl
    · exact digits.decimal c own

@[simp] theorem number_padded (digits : Digits) (count : Nat) : (digits.padded count).number = digits.number :=
  ofDigits_zeros count digits.chars

-- The first so many digits and the others, neither of them empty.
theorem divide (digits : Digits) (front : Nat) (some : 0 < front) (fewer : front < digits.chars.length) :
    ∃ first rest : Digits, first.chars = digits.chars.take front ∧ rest.chars = digits.chars.drop front ∧
      Number.ofDigits (first.chars ++ rest.chars) = digits.number := by
  have taken : digits.chars.take front ≠ [] := by
    apply List.ne_nil_of_length_pos
    rw [List.length_take]
    omega
  have left : digits.chars.drop front ≠ [] := by
    apply List.ne_nil_of_length_pos
    rw [List.length_drop]
    omega
  refine ⟨⟨_, taken, fun c listed => digits.decimal c (List.mem_of_mem_take listed)⟩,
    ⟨_, left, fun c listed => digits.decimal c (List.mem_of_mem_drop listed)⟩, rfl, rfl, ?_⟩
  rw [List.take_append_drop, number]

theorem first (digits : Digits) : ∃ first others, digits.chars = first :: others ∧ first.isDigit = true := by
  obtain ⟨first, others, start⟩ := List.exists_cons_of_ne_nil digits.filled
  exact ⟨first, others, start, digits.decimal first (by simp [start])⟩

theorem ne_of_isDigit {c other : Char} (digit : c.isDigit = true) (outside : other.isDigit = false) : c ≠ other := by
  rintro rfl
  rw [digit] at outside
  cases outside

-- No zero stands in front of other digits.
def Started (digits : Digits) : Prop := digits.chars = ['0'] ∨ digits.chars.head? ≠ some '0'

theorem head_toDigits {n : Nat} (positive : 0 < n) : (Nat.toDigits 10 n).head? ≠ some '0' := by
  induction n using Nat.strong_induction_on with
  | _ n ih =>
    by_cases small : n < 10
    · rw [Nat.toDigits_of_lt_base small]
      interval_cases n <;> decide
    · have front := ih (n / 10) (by omega) (by omega)
      obtain ⟨first, rest, start⟩ := List.exists_cons_of_ne_nil (Nat.toDigits_ne_nil : Nat.toDigits 10 (n / 10) ≠ [])
      rw [Nat.toDigits_of_base_le (by decide) (Nat.not_lt.mp small), start]
      rwa [start] at front

theorem started_ofNat (n : Nat) : (ofNat n).Started := by
  rcases Nat.eq_zero_or_pos n with rfl | positive
  · exact .inl rfl
  · exact .inr (head_toDigits positive)

-- The first digits of a number have no zero in front either.
theorem Started.take {digits first : Digits} (started : digits.Started) {front : Nat} (some : 0 < front)
    (taken : first.chars = digits.chars.take front) : first.Started := by
  obtain ⟨count, rfl⟩ := Nat.exists_eq_add_of_lt some
  obtain ⟨head, rest, start⟩ := List.exists_cons_of_ne_nil digits.filled
  rw [Started, taken, start, Nat.zero_add, List.take_succ_cons]
  rcases started with zero | other
  · rw [zero] at start
    cases start
    exact .inl (by rw [List.take_nil])
  · rw [start] at other
    exact .inr other

theorem takeWhile_append (digits : Digits) {rest : List Char} (ends : ∀ c ∈ rest.head?, c.isDigit = false) :
    (digits.chars ++ rest).takeWhile Char.isDigit = digits.chars :=
  Text.takeWhile_run digits.decimal ends

theorem dropWhile_append (digits : Digits) {rest : List Char} (ends : ∀ c ∈ rest.head?, c.isDigit = false) :
    (digits.chars ++ rest).dropWhile Char.isDigit = rest := by
  rw [List.dropWhile_append_of_pos digits.decimal]
  cases rest with
  | nil => rfl
  | cons c rest => rw [List.dropWhile_cons_of_neg (by simp [ends c rfl])]

end Digits

-- A number as it is written: a sign, digits, digits behind a point, a power of ten with a sign or without.
structure Numeral where
  negative : Bool
  whole : Digits
  fraction : Option Digits
  power : Option (Option Bool × Digits)

namespace Numeral

def pointText : Option Digits → List Char
  | none => []
  | some digits => '.' :: digits.chars

def signText : Option Bool → List Char
  | none => []
  | some true => ['-']
  | some false => ['+']

def powerText : Option (Option Bool × Digits) → List Char
  | none => []
  | some (sign, digits) => 'e' :: (signText sign ++ digits.chars)

-- The text behind the sign.
def body (numeral : Numeral) : List Char :=
  numeral.whole.chars ++ (pointText numeral.fraction ++ powerText numeral.power)

def text (numeral : Numeral) : List Char := Decimal.signText numeral.negative ++ numeral.body

def readPoint? : List Char → Option (Option Digits × List Char)
  | '.' :: rest =>
      (Digits.ofChars? (rest.takeWhile Char.isDigit)).map fun digits => (some digits, rest.dropWhile Char.isDigit)
  | rest => some (none, rest)

def readPower? : List Char → Option (Option (Option Bool × Digits))
  | [] => some none
  | 'e' :: '-' :: rest => (Digits.ofChars? rest).map fun digits => some (some true, digits)
  | 'e' :: '+' :: rest => (Digits.ofChars? rest).map fun digits => some (some false, digits)
  | 'e' :: rest => (Digits.ofChars? rest).map fun digits => some (none, digits)
  | _ => none

-- The numeral that a text spells, if it spells one.
def read? (text : List Char) : Option Numeral := do
  let (negative, rest) := Number.takeMinus text
  let whole ← Digits.ofChars? (rest.takeWhile Char.isDigit)
  let (fraction, rest) ← readPoint? (rest.dropWhile Char.isDigit)
  let power ← readPower? rest
  return ⟨negative, whole, fraction, power⟩

theorem takeMinus_signText (negative : Bool) (digits : Digits) (rest : List Char) :
    Number.takeMinus (Decimal.signText negative ++ (digits.chars ++ rest)) = (negative, digits.chars ++ rest) := by
  cases negative with
  | true => rfl
  | false =>
      obtain ⟨first, others, start, digit⟩ := digits.first
      have minus : first ≠ '-' := Digits.ne_of_isDigit digit rfl
      simp [Decimal.signText, start, Number.takeMinus, minus]

theorem powerText_ends (power : Option (Option Bool × Digits)) : ∀ c ∈ (powerText power).head?, c.isDigit = false := by
  cases power with
  | none => simp [powerText]
  | some pair => exact Text.head_outside rfl

theorem pointText_ends (fraction : Option Digits) (power : Option (Option Bool × Digits)) :
    ∀ c ∈ (pointText fraction ++ powerText power).head?, c.isDigit = false := by
  cases fraction with
  | none => exact powerText_ends power
  | some digits => exact Text.head_outside rfl

theorem readPower?_powerText (power : Option (Option Bool × Digits)) : readPower? (powerText power) = some power := by
  obtain _ | ⟨_ | negative, digits⟩ := power
  · rfl
  · obtain ⟨first, others, start, digit⟩ := digits.first
    have minus : first ≠ '-' := Digits.ne_of_isDigit digit rfl
    have plus : first ≠ '+' := Digits.ne_of_isDigit digit rfl
    have whole := digits.ofChars?_chars
    rw [start] at whole
    simp [powerText, signText, start, readPower?, minus, plus, whole]
  · cases negative <;> simp [powerText, signText, readPower?]

theorem readPoint?_pointText (fraction : Option Digits) (power : Option (Option Bool × Digits)) :
    readPoint? (pointText fraction ++ powerText power) = some (fraction, powerText power) := by
  cases fraction with
  | none =>
      cases power with
      | none => rfl
      | some pair => rfl
  | some digits =>
      simp [pointText, readPoint?, digits.takeWhile_append (powerText_ends power), digits.dropWhile_append (powerText_ends power)]

-- A text spells one numeral only.
theorem read?_text (numeral : Numeral) : read? numeral.text = some numeral := by
  obtain ⟨negative, whole, fraction, power⟩ := numeral
  have ends := pointText_ends fraction power
  simp [read?, text, body, takeMinus_signText, whole.takeWhile_append ends, whole.dropWhile_append ends, readPoint?_pointText,
    readPower?_powerText]

-- What a numeral says.

def sign (negative : Bool) : ℚ := if negative then -1 else 1

def fractionValue : Option Digits → ℚ
  | none => 0
  | some digits => digits.number / 10 ^ digits.chars.length

def exponent : Option (Option Bool × Digits) → ℤ
  | none => 0
  | some (sign, digits) => Binary64.signed (sign.getD false) digits.number

def value (numeral : Numeral) : ℚ :=
  sign numeral.negative * (numeral.whole.number + fractionValue numeral.fraction) * 10 ^ exponent numeral.power

-- All digits as one number, with the power that moves the point to its place.
def decimal (numeral : Numeral) : Decimal :=
  match numeral.fraction with
  | none => ⟨numeral.negative, numeral.whole.number, exponent numeral.power⟩
  | some digits =>
      ⟨numeral.negative, Number.ofDigits (numeral.whole.chars ++ digits.chars),
        exponent numeral.power - (digits.chars.length : ℤ)⟩

theorem decimal_negative (numeral : Numeral) : numeral.decimal.negative = numeral.negative := by
  unfold decimal
  cases numeral.fraction <;> rfl

theorem decimal_whole (negative : Bool) (whole : Digits) (power : Option (Option Bool × Digits)) :
    decimal ⟨negative, whole, none, power⟩ = ⟨negative, whole.number, exponent power⟩ := rfl

theorem decimal_pointed (negative : Bool) (whole fraction : Digits) (power : Option (Option Bool × Digits)) :
    decimal ⟨negative, whole, some fraction, power⟩ =
      ⟨negative, Number.ofDigits (whole.chars ++ fraction.chars), exponent power - (fraction.chars.length : ℤ)⟩ := rfl

end Numeral

def Decimal.value (d : Decimal) : ℚ := Numeral.sign d.negative * d.coefficient * 10 ^ d.exponent

theorem Numeral.value_decimal (numeral : Numeral) : numeral.decimal.value = numeral.value := by
  obtain ⟨negative, whole, fraction, power⟩ := numeral
  cases fraction with
  | none => simp [decimal_whole, Decimal.value, value, fractionValue]
  | some digits =>
      have ten : (10 : ℚ) ^ digits.chars.length ≠ 0 := by positivity
      simp only [decimal_pointed, Decimal.value, value, fractionValue, Digits.ofDigits_append, Digits.number]
      rw [zpow_sub₀ (by norm_num), zpow_natCast]
      push_cast
      field_simp

-- The numeral stands in the text for the decimal, of which it keeps digits and places if there is a fraction.
structure Numeral.Spells (numeral : Numeral) (text : List Char) (d : Decimal) : Prop where
  text : numeral.text = text
  negative : numeral.negative = d.negative
  value : numeral.value = d.value
  started : numeral.whole.Started
  exact : d.exponent < 0 → numeral.decimal = d

theorem Numeral.Spells.of_decimal {numeral : Numeral} {text : List Char} {d : Decimal} (spelled : numeral.text = text)
    (started : numeral.whole.Started) (same : numeral.decimal = d) : numeral.Spells text d := by
  exact ⟨spelled, by rw [← decimal_negative, same], by rw [← value_decimal, same], started, fun _ => same⟩

theorem Numeral.Spells.magnitude {numeral : Numeral} {text : List Char} {d : Decimal} (spells : numeral.Spells text d) :
    (numeral.decimal.coefficient : ℚ) * 10 ^ numeral.decimal.exponent = d.coefficient * 10 ^ d.exponent := by
  have same : numeral.decimal.value = d.value := by rw [value_decimal, spells.value]
  rw [Decimal.value, Decimal.value, decimal_negative, spells.negative, mul_assoc, mul_assoc] at same
  refine mul_left_cancel₀ ?_ same
  unfold sign
  split <;> norm_num

namespace Decimal

theorem pointed_digits {digits : Digits} (started : digits.Started) {places : Nat} (some : 0 < places) :
    ∃ whole fraction : Digits, whole.chars ++ '.' :: fraction.chars = pointed digits.chars places ∧ whole.Started ∧
      fraction.chars.length = places ∧ Number.ofDigits (whole.chars ++ fraction.chars) = digits.number := by
  let padded := digits.padded (places + 1 - digits.chars.length)
  have size : padded.chars.length = places + 1 - digits.chars.length + digits.chars.length := by
    simp only [padded, Digits.padded, List.length_append, List.length_replicate]
  obtain ⟨whole, fraction, front, back, number⟩ := padded.divide (padded.chars.length - places) (by omega) (by omega)
  refine ⟨whole, fraction, ?_, ?_, ?_, ?_⟩
  · rw [front, back]
    rfl
  · -- Either a zero was put in front, and it is the whole part, or nothing was.
    by_cases short : digits.chars.length ≤ places
    · have one : padded.chars.length - places = 1 := by omega
      have zeros : padded.chars = '0' :: (List.replicate (places - digits.chars.length) '0' ++ digits.chars) := by
        rw [← List.cons_append, ← List.replicate_succ, ← Nat.sub_add_comm short]
        rfl
      rw [one, zeros] at front
      exact .inl front
    · have none : places + 1 - digits.chars.length = 0 := by omega
      have same : padded.chars = digits.chars := by
        simp only [padded, Digits.padded, none, List.replicate_zero, List.nil_append]
      rw [same] at front
      exact started.take (by omega) front
  · rw [back, List.length_drop]
    omega
  · rw [number, Digits.number_padded]

-- Written out, a decimal has no power.
theorem plain_numeral (d : Decimal) :
    ∃ numeral : Numeral, numeral.Spells d.plain d ∧ numeral.power = none ∧ (d.exponent < 0 → numeral.fraction.isSome) := by
  obtain ⟨negative, coefficient, exponent⟩ := d
  by_cases whole : 0 ≤ exponent
  · obtain ⟨zeros, rfl⟩ := Int.eq_ofNat_of_zero_le whole
    refine ⟨⟨negative, Digits.ofNat (coefficient * 10 ^ zeros), none, none⟩, ⟨?_, rfl, ?_, Digits.started_ofNat _,
      fun below => absurd whole below.not_ge⟩, rfl, fun below => absurd whole below.not_ge⟩
    · simp [Numeral.text, Numeral.body, Numeral.pointText, Numeral.powerText, plain, Digits.ofNat]
    · simp [Numeral.value, Numeral.fractionValue, Numeral.exponent, value]
      ring
  · have places : 0 < (-exponent).toNat := by omega
    obtain ⟨front, back, text, started, length, number⟩ := pointed_digits (Digits.started_ofNat coefficient) places
    have same : Numeral.decimal ⟨negative, front, some back, none⟩ = ⟨negative, coefficient, exponent⟩ := by
      have shift : Numeral.exponent none - ((-exponent).toNat : ℤ) = exponent := by
        simp only [Numeral.exponent]
        omega
      rw [Numeral.decimal_pointed, number, length, Digits.number_ofNat, shift]
    refine ⟨⟨negative, front, some back, none⟩, .of_decimal ?_ started same, rfl, fun _ => rfl⟩
    simp only [Numeral.text, Numeral.body, Numeral.pointText, Numeral.powerText, List.append_nil, text, plain, if_neg whole]
    rfl

theorem signed_natAbs (n : ℤ) : Binary64.signed (n < 0) n.natAbs = n := by
  by_cases below : n < 0
  · rw [decide_eq_true below, Binary64.signed, if_pos rfl]
    omega
  · rw [decide_eq_false below, Binary64.signed, if_neg Bool.false_ne_true]
    omega

-- A way to write powers of ten that can be read back.
def WritesPowers (powerText : ℤ → List Char) : Prop :=
  ∀ power, ∃ sign digits, Numeral.signText sign ++ digits.chars = powerText power ∧
    Numeral.exponent (some (sign, digits)) = power

theorem paddedPower_writes : WritesPowers paddedPower := by
  intro power
  refine ⟨some (decide (power < 0)), (Digits.ofNat power.natAbs).padded (2 - (digits power.natAbs).length), ?_, ?_⟩
  · by_cases below : power < 0 <;> simp [below, paddedPower, Numeral.signText, Digits.padded, Digits.ofNat]
  · rw [Numeral.exponent, Digits.number_padded, Digits.number_ofNat, Option.getD_some, signed_natAbs]

theorem barePower_writes : WritesPowers barePower := by
  intro power
  refine ⟨if power < 0 then some true else none, Digits.ofNat power.natAbs, ?_, ?_⟩
  · by_cases below : power < 0 <;> simp [below, barePower, signText, Numeral.signText, Digits.ofNat]
  · have sign : (if power < 0 then some true else none).getD false = decide (power < 0) := by
      by_cases below : power < 0 <;> simp [below]
    rw [Numeral.exponent, Digits.number_ofNat, sign, signed_natAbs]

-- The point stands behind the first digit, and the power makes up for it.
theorem scientific_numeral {powerText : ℤ → List Char} (writes : WritesPowers powerText) (d : Decimal) :
    ∃ numeral : Numeral, numeral.Spells (d.scientific powerText) d ∧ numeral.power.isSome := by
  obtain ⟨negative, coefficient, exponent⟩ := d
  let text := Digits.ofNat coefficient
  let power : ℤ := exponent + (text.chars.length : ℤ) - 1
  obtain ⟨sign, magnitude, written, size⟩ := writes power
  have filled := text.length_pos
  by_cases single : text.chars.length = 1
  · refine ⟨⟨negative, text, none, some (sign, magnitude)⟩, .of_decimal ?_ (Digits.started_ofNat _) ?_, rfl⟩
    · have front : (digits coefficient).take 1 = text.chars := List.take_of_length_le single.le
      have back : (digits coefficient).drop 1 = [] := List.drop_of_length_le single.le
      simp only [scientific, front, back, Numeral.text, Numeral.body, Numeral.pointText, Numeral.powerText, written,
        List.append_assoc, List.nil_append]
      rfl
    · have same : power = exponent := by omega
      rw [Numeral.decimal_whole, size, same, Digits.number_ofNat]
  · obtain ⟨first, rest, front, back, number⟩ := text.divide 1 Nat.one_pos (by omega)
    have started : first.Started := (Digits.started_ofNat coefficient).take Nat.one_pos front
    refine ⟨⟨negative, first, some rest, some (sign, magnitude)⟩, .of_decimal ?_ started ?_, rfl⟩
    · obtain ⟨head, others, start⟩ := List.exists_cons_of_ne_nil rest.filled
      have front : (digits coefficient).take 1 = first.chars := front.symm
      have back : (digits coefficient).drop 1 = head :: others := back.symm.trans start
      simp only [scientific, front, back, Numeral.text, Numeral.body, Numeral.pointText, Numeral.powerText, written,
        List.append_assoc, start]
      rfl
    · have shift : power - (rest.chars.length : ℤ) = exponent := by
        rw [back, List.length_drop]
        omega
      rw [Numeral.decimal_pointed, size, number, shift, Digits.number_ofNat]

theorem shownFrom_numeral (least : ℤ) {powerText : ℤ → List Char} (writes : WritesPowers powerText) (d : Decimal) :
    ∃ numeral : Numeral, numeral.Spells (d.shownFrom least powerText) d ∧
      (numeral.fraction.isSome ∨ numeral.power.isSome) := by
  unfold shownFrom
  dsimp only
  split
  · split
    · rename_i whole
      obtain ⟨zeros, exponent⟩ := Int.eq_ofNat_of_zero_le whole
      refine ⟨⟨d.negative, Digits.ofNat (d.coefficient * 10 ^ zeros), some (Digits.ofNat 0), none⟩, ⟨?_, rfl, ?_,
        Digits.started_ofNat _, fun below => absurd whole below.not_ge⟩, .inl rfl⟩
      · simp [Numeral.text, Numeral.body, Numeral.pointText, Numeral.powerText, plain, exponent, Digits.ofNat]
        rfl
      · simp [Numeral.value, Numeral.fractionValue, Numeral.exponent, value, exponent]
        ring
    · rename_i broken
      obtain ⟨numeral, spells, _, fraction⟩ := d.plain_numeral
      exact ⟨numeral, spells, .inl (fraction (by omega))⟩
  · obtain ⟨numeral, spells, power⟩ := d.scientific_numeral writes
    exact ⟨numeral, spells, .inr power⟩

end Decimal
end BlockCanvas
