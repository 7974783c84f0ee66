import BlockCanvas.Proofs.Limits
import BlockCanvas.Proofs.Numeral
import BlockCanvas.Proofs.ShortestDigits
namespace BlockCanvas

-- What a text says when it is read as a number.
def Denotes (text : String) (number : ℚ) : Prop := (Numeral.read? text.toList).map Numeral.value = some number

-- Digits behind an optional minus, perhaps a point and more digits, and the number that they say.
structure Plainly (text : String) (number : ℚ) : Prop where
  spelled : ∃ numeral : Numeral, numeral.power = none ∧ numeral.text = text.toList
  denotes : Denotes text number

theorem denotes_of_text {numeral : Numeral} {text : String} (spelled : numeral.text = text.toList) :
    Denotes text numeral.value := by
  rw [Denotes, ← spelled, Numeral.read?_text, Option.map_some]

theorem plainly_plain (d : Decimal) : Plainly (String.ofList d.plain) d.value := by
  obtain ⟨numeral, spells, bare, _⟩ := d.plain_numeral
  have spelled : numeral.text = (String.ofList d.plain).toList := spells.text.trans String.toList_ofList.symm
  exact ⟨⟨numeral, bare, spelled⟩, spells.value ▸ denotes_of_text spelled⟩

namespace Binary64

-- The exact value of a finite double.
def value? : Binary64 → Option ℚ
  | .finite negative significand exponent => some (Numeral.sign negative * significand * 2 ^ exponent)
  | _ => none

theorem cast_signed (negative : Bool) (magnitude : Nat) :
    ((signed negative magnitude : ℤ) : ℚ) = Numeral.sign negative * magnitude := by
  cases negative <;> simp [signed, Numeral.sign]

theorem natAbs_signed (negative : Bool) (magnitude : Nat) : (signed negative magnitude).natAbs = magnitude := by
  cases negative <;> simp [signed]

theorem mod_eq_zero_of_signed {negative : Bool} {significand places : Nat} {n : ℤ}
    (equal : Numeral.sign negative * (significand / 2 ^ places) = n) : significand % 2 ^ places = 0 := by
  have scaled : ((signed negative significand : ℤ) : ℚ) = ((n * 2 ^ places : ℤ) : ℚ) := by
    rw [cast_signed]
    push_cast
    rw [← equal]
    field_simp
  have lifted := congrArg Int.natAbs (Int.cast_injective scaled)
  rw [natAbs_signed, Int.natAbs_mul, Int.natAbs_pow] at lifted
  exact lifted ▸ Nat.mul_mod_left _ _

theorem integer?_eq_some_iff {x : Binary64} {n : ℤ} : x.integer? = some n ↔ x.value? = some (n : ℚ) := by
  cases x with
  | infinite negative => simp [integer?, value?]
  | undefined => simp [integer?, value?]
  | finite negative significand exponent =>
      rw [value?, Option.some.injEq, integer?]
      split
      · rename_i whole
        obtain ⟨zeros, rfl⟩ := Int.eq_ofNat_of_zero_le whole
        rw [Option.some.injEq, ← Int.cast_inj (α := ℚ), cast_signed]
        simp [mul_assoc]
      · rename_i below
        obtain ⟨places, rfl⟩ : ∃ places : Nat, exponent = -(places : ℤ) := ⟨(-exponent).toNat, by omega⟩
        rw [neg_neg, Int.toNat_natCast, Nat.pow_eq, zpow_neg, zpow_natCast, mul_assoc, ← div_eq_mul_inv]
        dsimp only
        split
        · rename_i exact
          have quotient := Nat.cast_div (K := ℚ) (Nat.dvd_of_mod_eq_zero exact) (by positivity)
          rw [Option.some.injEq, ← Int.cast_inj (α := ℚ), cast_signed, quotient]
          push_cast
          rfl
        · rename_i broken
          constructor
          · intro found
            cases found
          · intro equal
            exact absurd (mod_eq_zero_of_signed equal) broken

end Binary64

theorem toList_toString (n : ℤ) : (toString n).toList = Decimal.plain ⟨n < 0, n.natAbs, 0⟩ := by
  cases n with
  | ofNat n =>
      have chars : (toString (Int.ofNat n)).toList = Nat.toDigits 10 n := Nat.toList_repr
      rw [chars]
      simp [Decimal.plain, Decimal.signText, Decimal.digits]
  | negSucc n =>
      have chars : (toString (Int.negSucc n)).toList = '-' :: Nat.toDigits 10 (n + 1) := by
        change ("-" ++ Nat.repr (n + 1)).toList = _
        rw [String.toList_append, Nat.toList_repr]
        rfl
      rw [chars]
      simp [Decimal.plain, Decimal.signText, Decimal.digits]

theorem plainly_toString (n : ℤ) : Plainly (toString n) n := by
  have text : toString n = String.ofList (Decimal.plain ⟨n < 0, n.natAbs, 0⟩) := by
    rw [← toList_toString, String.ofList_toList]
  have value : Decimal.value ⟨n < 0, n.natAbs, 0⟩ = n := by
    rw [Decimal.value, ← Binary64.cast_signed, Decimal.signed_natAbs, zpow_zero, mul_one]
  rw [text, ← value]
  exact plainly_plain _

-- The text of a number that is told by its exact value and by a numeral: whole numbers exactly, others by
-- the digits of the numeral, with the point moved to where its power puts it.
def rewritten (exact : ℚ) (numeral : Numeral) : String :=
  if exact.den = 1 then toString exact.num else String.ofList numeral.decimal.plain

theorem plainly_rewritten (exact : ℚ) (numeral : Numeral) :
    Plainly (rewritten exact numeral) (if exact.den = 1 then exact else numeral.value) := by
  unfold rewritten
  split
  · rename_i whole
    have plain := plainly_toString exact.num
    rwa [(Rat.den_eq_one_iff exact).mp whole] at plain
  · rw [← Numeral.value_decimal]
    exact plainly_plain _

-- The value is written in a program, as digits that say the number.
def Value.Writes (value : Value) (number : ℚ) : Prop :=
  ∃ text, value.writtenNumber = .ok text ∧ Plainly text number

theorem Value.writtenNumber_int (n : ℤ) :
    (Value.int n).writtenNumber = if Number.fits n then .ok (toString n) else .error .written := rfl

namespace Binary64
variable {x : Binary64} {exact : ℚ}

-- A double that is not zero is shown by its shortest digits.
theorem shown_numeral (negative : Bool) (significand : Nat) (exponent : ℤ) :
    ∃ numeral : Numeral, numeral.text = (finite negative significand exponent).shown.toList ∧
      (significand ≠ 0 → numeral.value = (shortest negative significand exponent).value ∧
        ((shortest negative significand exponent).exponent < 0 → numeral.decimal = shortest negative significand exponent)) := by
  by_cases zero : significand = 0
  · refine ⟨⟨negative, Digits.ofNat 0, some (Digits.ofNat 0), none⟩, ?_, fun positive => absurd zero positive⟩
    rw [shown, if_pos zero, String.toList_ofList]
    rfl
  · obtain ⟨numeral, spells, _⟩ := (shortest negative significand exponent).shownFrom_numeral (-4) Decimal.paddedPower_writes
    refine ⟨numeral, ?_, fun _ => ⟨spells.value, spells.exact⟩⟩
    rw [shown, if_neg zero, String.toList_ofList, spells.text]
    rfl

theorem written_of_whole {n : ℤ} (known : x.value? = some exact) (whole : exact = n) : x.written = toString n := by
  unfold written
  rw [integer?_eq_some_iff.mpr (known.trans (congrArg some whole))]

theorem integer?_eq_none (known : x.value? = some exact) (broken : ∀ n : ℤ, exact ≠ n) : x.integer? = none := by
  cases found : x.integer? with
  | none => rfl
  | some n =>
      have same := (integer?_eq_some_iff.mp found).symm.trans known
      exact absurd (Option.some.inj same).symm (broken n)

theorem written_of_broken {negative : Bool} {significand : Nat} {exponent : ℤ}
    (missing : (finite negative significand exponent).integer? = none) :
    (finite negative significand exponent).written = String.ofList (shortest negative significand exponent).plain := by
  unfold written
  rw [missing]

theorem broken_of_integer? {negative : Bool} {significand : Nat} {exponent : ℤ}
    (missing : (finite negative significand exponent).integer? = none) :
    exponent < 0 ∧ significand ≠ 0 ∧ significand % 2 ^ (-exponent).toNat ≠ 0 := by
  rw [integer?] at missing
  split at missing
  · cases missing
  · rename_i below
    dsimp only at missing
    split at missing
    · cases missing
    · rename_i broken
      refine ⟨Int.not_le.mp below, ?_, broken⟩
      rintro rfl
      exact broken (Nat.zero_mod _)

theorem writtenNumber_float (x : Binary64) : (Value.float x).writtenNumber = .ok x.written := rfl

-- What the text of a finite double in a program says, by its exact value and by the text that shows it.
structure WritesPlainly (x : Binary64) (exact : ℚ) : Prop where
  whole : ∀ n : ℤ, exact = n → (Value.float x).Writes n
  broken : (∀ n : ℤ, exact ≠ n) → ∃ number, Denotes x.shown number ∧ (Value.float x).Writes number
  moved : x.IsDouble → ∃ numeral : Numeral, numeral.text = x.shown.toList ∧
    (Value.float x).writtenNumber = .ok (rewritten exact numeral)

theorem writesPlainly (known : x.value? = some exact) : WritesPlainly x exact := by
  cases x with
  | infinite negative => cases known
  | undefined => cases known
  | finite negative significand exponent =>
      obtain ⟨numeral, text, digits⟩ := shown_numeral negative significand exponent
      refine ⟨?_, ?_, ?_⟩
      · intro n whole
        refine ⟨_, writtenNumber_float _, ?_⟩
        rw [written_of_whole known whole]
        exact plainly_toString n
      · intro broken
        have missing := integer?_eq_none known broken
        obtain ⟨_, positive, _⟩ := broken_of_integer? missing
        refine ⟨numeral.value, denotes_of_text text, _, writtenNumber_float _, ?_⟩
        rw [written_of_broken missing, (digits positive).1]
        exact plainly_plain _
      · intro small
        refine ⟨numeral, text, ?_⟩
        by_cases whole : exact.den = 1
        · rw [rewritten, if_pos whole, writtenNumber_float]
          exact congrArg _ (written_of_whole known ((Rat.den_eq_one_iff exact).mp whole).symm)
        · have broken : ∀ n : ℤ, exact ≠ n := by
            rintro n rfl
            exact whole rfl
          have missing := integer?_eq_none known broken
          obtain ⟨below, positive, remainder⟩ := broken_of_integer? missing
          have same := (digits positive).2 (shortest_fractional negative small below remainder)
          rw [rewritten, if_neg whole, writtenNumber_float, written_of_broken missing, same]

end Binary64

-- Whole numbers are written plainly exactly up to the limit, and beyond it nothing is written; all finite doubles are
-- written plainly.
theorem numbers_written_plainly (n : ℤ) (x : Binary64) (exact : ℚ) (numeral : Numeral) (negative : Bool)
    (coefficient : Nat) (exponent : ℤ) :
    ((Value.int n).Writes n ↔ n.natAbs < 10 ^ Number.greatestLength) ∧
      (10 ^ Number.greatestLength ≤ n.natAbs → (Value.int n).writtenNumber = .error .written) ∧
      Plainly (rewritten exact numeral) (if exact.den = 1 then exact else numeral.value) ∧
      (x.value? = some exact → x.WritesPlainly exact) ∧
      (Binary64.ofDecimal negative coefficient exponent).IsDouble := by
  have beyond : 10 ^ Number.greatestLength ≤ n.natAbs → (Value.int n).writtenNumber = .error .written := by
    intro long
    rw [Value.writtenNumber_int, if_neg fun short => Nat.not_lt.mpr long (Number.fits_iff.mp short)]
  refine ⟨⟨?_, ?_⟩, beyond, plainly_rewritten exact numeral, Binary64.writesPlainly, Binary64.ofDecimal_isDouble _ _ _⟩
  · rintro ⟨text, written, _⟩
    by_contra long
    rw [beyond (Nat.not_lt.mp long)] at written
    cases written
  · intro short
    refine ⟨toString n, ?_, plainly_toString n⟩
    rw [Value.writtenNumber_int, if_pos (Number.fits_iff.mpr short)]

theorem power_not_written : (Value.int (10 ^ Number.greatestLength)).writtenNumber = .error .written := by
  rw [Value.writtenNumber_int, Number.fits_least]
  rfl

-- The double nearest to a ten-millionth.
def tenMillionth : Binary64 := .finite false 7555786372591432 (-76)

def tenMillionthNumeral : Numeral := ⟨false, Digits.ofNat 1, none, some (some true, Digits.ofNat 7)⟩

theorem numbers_written_plainly_small :
    (Value.int (-7)).Writes (-7) ∧
    tenMillionth.value? = some (7555786372591432 * 2 ^ (-76 : ℤ)) ∧ tenMillionth.IsDouble ∧
      tenMillionth.shown = "1e-07" ∧ (Value.float tenMillionth).writtenNumber = .ok "0.0000001" ∧
      ∃ number, Denotes "1e-07" number ∧ Plainly "0.0000001" number := by
  have known : tenMillionth.value? = some (7555786372591432 * 2 ^ (-76 : ℤ)) := by
    simp [tenMillionth, Binary64.value?, Numeral.sign]
  have small : tenMillionth.IsDouble := by
    change 7555786372591432 < 2 ^ 53
    norm_num
  have missing : tenMillionth.integer? = none := by decide +kernel
  have shown : tenMillionth.shown = "1e-07" := by decide +kernel
  have written : (Value.float tenMillionth).writtenNumber = .ok "0.0000001" := by decide +kernel
  have broken : ∀ n : ℤ, (7555786372591432 * 2 ^ (-76 : ℤ) : ℚ) ≠ n := by
    intro n whole
    have found := Binary64.integer?_eq_some_iff.mpr (known.trans (congrArg some whole))
    rw [missing] at found
    cases found
  obtain ⟨whole, _, _, floats, _⟩ :=
    numbers_written_plainly (-7) tenMillionth (7555786372591432 * 2 ^ (-76 : ℤ)) tenMillionthNumeral false 1 (-7)
  obtain ⟨number, read, text, same, plain⟩ := (floats known).broken broken
  rw [written] at same
  cases same
  have seven : (-7 : ℤ).natAbs < 10 ^ Number.greatestLength := Number.fits_iff.mp (by decide +kernel)
  exact ⟨by simpa using whole.mpr seven, known, small, shown, written, number, shown ▸ read, plain⟩

end BlockCanvas
