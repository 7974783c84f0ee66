import BlockCanvas.Proofs.Numeral
import BlockCanvas.Proofs.ShortestDigits
namespace BlockCanvas.Binary64
variable {numerator denominator significand : Nat} {exponent power : ℤ}

-- A point of the interval of a number, in quarters of its last place.
def Interval.Contains (bounds : Interval) (point : ℚ) : Prop :=
  if bounds.closed then bounds.low ≤ point ∧ point ≤ bounds.high else bounds.low < point ∧ point < bounds.high

theorem contains_of_holds {bounds : Interval} {number : Nat}
    (held : bounds.holds (number * gridUnit exponent power) (gridMeasure exponent power) = true) :
    bounds.Contains (number * gridStep exponent power) := by
  unfold Interval.holds at held
  unfold Interval.Contains
  split at held
  · rename_i closed
    rw [if_pos closed]
    simp only [Bool.and_eq_true, decide_eq_true_eq, measure_le_unit_iff, unit_le_measure_iff] at held
    exact held
  · rename_i opened
    rw [if_neg opened]
    simp only [Bool.and_eq_true, decide_eq_true_eq, ← Nat.not_le, measure_le_unit_iff, unit_le_measure_iff, not_le] at held
    exact held

-- What it takes to be rounded to a double: half a place at most on both sides, less if the double is odd, and a
-- quarter at most below a power of two.
structure Surrounds (significand : Nat) (exponent : ℤ) (point : ℚ) : Prop where
  low : (2 * significand - 1) * 2 ^ exponent ≤ 2 * point
  high : 2 * point ≤ (2 * significand + 1) * 2 ^ exponent
  odd : significand % 2 = 1 →
    (2 * significand - 1) * 2 ^ exponent < 2 * point ∧ 2 * point < (2 * significand + 1) * 2 ^ exponent
  narrow : significand = 2 ^ 52 → leastExponent < exponent → (4 * significand - 1) * 2 ^ exponent ≤ 4 * point

theorem four_mul_zpow (exponent : ℤ) : (2 : ℚ) ^ exponent = 4 * 2 ^ (exponent - 2) := by
  rw [zpow_sub₀ (by norm_num)]
  ring

theorem surrounds_of_contains {point : ℚ}
    (inside : (interval significand exponent).Contains (point / 2 ^ (exponent - 2))) :
    Surrounds significand exponent point := by
  have quarter : (0 : ℚ) < 2 ^ (exponent - 2) := by positivity
  have high : ((interval significand exponent).high : ℚ) = 4 * significand + 2 := by simp [interval]
  have low : (4 * significand : ℚ) - 2 ≤ (interval significand exponent).low := by
    have least : (4 * significand : ℚ) ≤ (interval significand exponent).low + 2 := by
      exact_mod_cast interval_low significand exponent
    linarith
  have closed : (interval significand exponent).closed = decide (significand % 2 = 0) := by simp [interval]
  have weak : ((interval significand exponent).low : ℚ) * 2 ^ (exponent - 2) ≤ point ∧
      point ≤ (interval significand exponent).high * 2 ^ (exponent - 2) := by
    rw [← le_div_iff₀ quarter, ← div_le_iff₀ quarter]
    unfold Interval.Contains at inside
    split at inside
    · exact inside
    · exact ⟨inside.1.le, inside.2.le⟩
  have least := mul_le_mul_of_nonneg_right low quarter.le
  refine ⟨?_, ?_, ?_, ?_⟩
  · rw [four_mul_zpow]
    linarith [weak.1]
  · rw [four_mul_zpow]
    rw [high] at weak
    linarith [weak.2]
  · intro odd
    rw [Interval.Contains, closed, if_neg (by simp [odd]), lt_div_iff₀ quarter, div_lt_iff₀ quarter, high] at inside
    rw [four_mul_zpow]
    constructor <;> linarith [inside.1, inside.2]
  · intro power above
    have bottom : ((interval significand exponent).low : ℚ) = 4 * significand - 1 := by
      have narrow : significand = Nat.pow 2 (precision - 1) ∧ leastExponent < exponent := ⟨power, above⟩
      have some : 1 ≤ 4 * significand := by omega
      simp only [interval, if_pos narrow]
      push_cast [Nat.cast_sub some]
      ring
    rw [bottom] at weak
    rw [four_mul_zpow]
    linarith [weak.1]

theorem nearest_of_surrounds (below : 0 < denominator) (positive : 0 < significand)
    (low : ((2 * significand - 1 : ℚ)) * 2 ^ exponent ≤ 2 * (numerator / denominator))
    (high : 2 * (numerator / denominator : ℚ) ≤ (2 * significand + 1) * 2 ^ exponent)
    (odd : significand % 2 = 1 → ((2 * significand - 1 : ℚ)) * 2 ^ exponent < 2 * (numerator / denominator) ∧
      2 * (numerator / denominator : ℚ) < (2 * significand + 1) * 2 ^ exponent) :
    places numerator denominator exponent = significand := by
  have double : ((2 * numerator : Nat) : ℚ) / denominator = 2 * (numerator / denominator) := by
    push_cast
    ring
  have under : ((2 * significand - 1 : Nat) : ℚ) = 2 * significand - 1 := by
    push_cast [Nat.cast_sub (by omega : 1 ≤ 2 * significand)]
    ring
  have past : ((2 * significand + 1 : Nat) : ℚ) = 2 * significand + 1 := by push_cast; ring
  rw [← under, ← double] at low
  rw [← past, ← double] at high
  rw [← under, ← past, ← double] at odd
  have low := Nat.not_lt.mp (mt (div_lt_mul_zpow_iff below _ _).mpr (not_lt.mpr low))
  have high := Nat.not_lt.mp (mt (mul_zpow_lt_div_iff below _ _).mpr (not_lt.mpr high))
  rw [div_lt_mul_zpow_iff below, mul_zpow_lt_div_iff below] at odd
  have lower : (2 * significand - 1) * (denominator * 2 ^ exponent.toNat) + denominator * 2 ^ exponent.toNat =
      2 * significand * (denominator * 2 ^ exponent.toNat) := by
    rw [← Nat.succ_mul, Nat.succ_eq_add_one, Nat.sub_add_cancel (by omega)]
  rw [Nat.mul_assoc] at low high odd
  refine divideToEven_eq (shifted_pos below exponent) ⟨by omega, high, ?_⟩
  intro rest
  obtain ⟨left, right⟩ := odd rest
  exact ⟨by omega, right⟩

theorem Surrounds.lt {point : ℚ} (around : Surrounds significand exponent point) (small : significand < 2 ^ 53) :
    point < 2 ^ (53 + exponent) := by
  have unit : (0 : ℚ) < 2 ^ exponent := by positivity
  have large : (significand : ℚ) + 1 ≤ 2 ^ 53 := by exact_mod_cast small
  have half := mul_lt_mul_of_pos_right (by linarith : (2 * significand + 1 : ℚ) < 2 * 2 ^ 53) unit
  rw [zpow_add₀ (by norm_num)]
  norm_num at half ⊢
  linarith [around.high]

-- Only a power of two surrounds a point below it that has a place of its own.
theorem Surrounds.eq_power {point : ℚ} (around : Surrounds significand exponent point) (filled : 2 ^ 52 ≤ significand)
    (short : point < 2 ^ (52 + exponent)) : significand = 2 ^ 52 := by
  by_contra different
  have more : (2 ^ 52 + 1 : ℚ) ≤ significand := by exact_mod_cast Nat.lt_of_le_of_ne filled (Ne.symm different)
  have unit : (0 : ℚ) < 2 ^ exponent := by positivity
  have scaled := mul_le_mul_of_nonneg_right more unit.le
  rw [zpow_add₀ (by norm_num)] at short
  norm_num at short scaled
  linarith [around.low]

-- Just below a power of two the places are halves of the last place of the double, and the carry makes up for it.
theorem round_below_power (negative : Bool) (above : 0 < numerator) (below : 0 < denominator)
    (deep : leastExponent < exponent) (most : exponent ≤ greatestExponent)
    (narrow : (4 * 2 ^ 52 - 1 : ℚ) * 2 ^ exponent ≤ 4 * (numerator / denominator))
    (short : (numerator / denominator : ℚ) < 2 ^ (52 + exponent)) :
    round negative numerator denominator = .finite negative (2 ^ 52) exponent := by
  have unit : (0 : ℚ) < 2 ^ exponent := by positivity
  have halved : (2 : ℚ) ^ exponent = 2 * 2 ^ (exponent - 1) := by
    rw [zpow_sub₀ (by norm_num)]
    ring
  have place : max (floorLog2 numerator denominator - 52) leastExponent = exponent - 1 := by
    have up := floorLog2_lt above below short
    have down : 51 + exponent ≤ floorLog2 numerator denominator := by
      refine le_floorLog2 below ?_
      rw [zpow_add₀ (by norm_num)]
      norm_num at narrow ⊢
      linarith
    omega
  have full : places numerator denominator (exponent - 1) = 2 ^ 53 := by
    refine nearest_of_surrounds below (by norm_num) ?_ ?_ (fun odd => by norm_num at odd)
    · rw [halved] at narrow
      norm_num at narrow ⊢
      linarith
    · rw [zpow_add₀ (by norm_num), halved] at short
      norm_num at short ⊢
      linarith
  rw [round_eq negative above, place, full, carried, if_pos rfl, limited, sub_add_cancel, if_neg (not_lt.mpr most)]

-- A ratio is rounded to the double that it is surrounded by.
theorem round_of_surrounds (negative : Bool) (reduced : (finite negative significand exponent).IsReduced)
    (positive : 0 < significand) (above : 0 < numerator) (below : 0 < denominator)
    (around : Surrounds significand exponent (numerator / denominator)) :
    round negative numerator denominator = .finite negative significand exponent := by
  obtain ⟨small, least, most, filled⟩ := reduced
  by_cases ordinary : (2 : ℚ) ^ (52 + exponent) ≤ numerator / denominator ∨ exponent = leastExponent
  · have place : max (floorLog2 numerator denominator - 52) leastExponent = exponent := by
      have up := floorLog2_lt above below (around.lt small)
      rcases ordinary with full | same
      · have down := le_floorLog2 below full
        omega
      · omega
    rw [round_eq negative above, place, nearest_of_surrounds below positive around.low around.high around.odd, carried,
      if_neg small.ne, limited, if_neg (not_lt.mpr most)]
  · obtain ⟨short, other⟩ := not_or.mp ordinary
    have short := not_le.mp short
    have deep : leastExponent < exponent := lt_of_le_of_ne least (Ne.symm other)
    have power := around.eq_power (filled.resolve_right other) short
    have narrow := around.narrow power deep
    rw [power] at narrow ⊢
    exact round_below_power negative above below deep most (by exact_mod_cast narrow) short

-- Three binary digits are less than a decimal one.
theorem zpow_le_ten {count : ℤ} (least : 0 ≤ count) : (2 : ℚ) ^ (3 * count) ≤ 10 ^ count := by
  rw [zpow_mul]
  exact zpow_le_zpow_left₀ least (by norm_num) (by norm_num)

-- Numbers that are rounded to a finite double are far from where powers of ten are cut off.

theorem Surrounds.least_leading {coefficient : Nat} (around : Surrounds significand exponent (coefficient * 10 ^ power))
    (positive : 0 < significand) (least : leastExponent ≤ exponent) :
    -decimalRange ≤ ((Decimal.digits coefficient).length : ℤ) + power := by
  have past : (coefficient : ℚ) * 10 ^ power < 10 ^ (((Decimal.digits coefficient).length : ℤ) + power) := by
    rw [zpow_add₀ (by norm_num), zpow_natCast]
    exact mul_lt_mul_of_pos_right (by exact_mod_cast lt_pow_length coefficient) (by positivity)
  by_contra far
  have below : ((Decimal.digits coefficient).length : ℤ) + power ≤ -decimalRange := (not_le.mp far).le
  have tiny : (10 : ℚ) ^ (((Decimal.digits coefficient).length : ℤ) + power) ≤ 2 ^ (-1200 : ℤ) := by
    refine (zpow_le_zpow_right₀ (by norm_num) below).trans ?_
    rw [zpow_neg, zpow_neg]
    exact inv_anti₀ (by positivity) (zpow_le_ten (by decide : (0 : ℤ) ≤ 400))
  have apart : (2 : ℚ) * 2 ^ (-1200 : ℤ) ≤ 2 ^ exponent := by
    rw [← zpow_one_add₀ (by norm_num)]
    exact zpow_le_zpow_right₀ (by norm_num) (le_trans (by decide) least)
  have one : (1 : ℚ) ≤ significand := by exact_mod_cast positive
  have whole : (2 : ℚ) ^ exponent ≤ (2 * significand - 1) * 2 ^ exponent :=
    le_mul_of_one_le_left (by positivity) (by linarith)
  have low := around.low
  generalize (2 : ℚ) ^ (-1200 : ℤ) = bound at *
  linarith

theorem Surrounds.greatest_leading {coefficient : Nat} (around : Surrounds significand exponent (coefficient * 10 ^ power))
    (some : 0 < coefficient) (small : significand < 2 ^ 53) (most : exponent ≤ greatestExponent) :
    ((Decimal.digits coefficient).length : ℤ) + power ≤ decimalRange := by
  have digits : 0 < (Decimal.digits coefficient).length := Nat.length_toDigits_pos
  have under : (10 : ℚ) ^ (((Decimal.digits coefficient).length : ℤ) + power - 1) ≤ coefficient * 10 ^ power := by
    have shift : ((Decimal.digits coefficient).length : ℤ) + power - 1 =
        (((Decimal.digits coefficient).length - 1 : Nat) : ℤ) + power := by omega
    rw [shift, zpow_add₀ (by norm_num), zpow_natCast]
    exact mul_le_mul_of_nonneg_right (by exact_mod_cast pow_length_le some) (by positivity)
  by_contra far
  have above : decimalRange ≤ ((Decimal.digits coefficient).length : ℤ) + power - 1 := by
    have := not_le.mp far
    omega
  have huge : (2 : ℚ) ^ (1200 : ℤ) ≤ 10 ^ (((Decimal.digits coefficient).length : ℤ) + power - 1) :=
    (zpow_le_ten (by decide : (0 : ℤ) ≤ 400)).trans (zpow_le_zpow_right₀ (by norm_num) above)
  have apart : (2 : ℚ) ^ (53 + exponent) ≤ 2 ^ (1200 : ℤ) := by
    refine zpow_le_zpow_right₀ (by norm_num) ?_
    simp only [greatestExponent] at most
    omega
  have less := around.lt small
  generalize (2 : ℚ) ^ (1200 : ℤ) = bound at *
  linarith

theorem ofDecimal_of_surrounds {negative : Bool} {coefficient : Nat}
    (reduced : (finite negative significand exponent).IsReduced) (positive : 0 < significand) (some : 0 < coefficient)
    (around : Surrounds significand exponent (coefficient * 10 ^ power)) :
    ofDecimal negative coefficient power = .finite negative significand exponent := by
  have least := around.least_leading positive reduced.2.1
  have most := around.greatest_leading some reduced.1 reduced.2.2.1
  unfold ofDecimal
  dsimp only
  rw [← Decimal.digits, if_neg some.ne', if_neg (not_lt.mpr most), if_neg (not_lt.mpr least)]
  split
  · rename_i whole
    obtain ⟨zeros, rfl⟩ := Int.eq_ofNat_of_zero_le whole
    refine round_of_surrounds negative reduced positive (Nat.mul_pos some (Nat.pow_pos (by decide))) Nat.one_pos ?_
    simpa using around
  · rename_i broken
    obtain ⟨places, rfl⟩ : ∃ places : Nat, power = -(places : ℤ) := ⟨(-power).toNat, by omega⟩
    refine round_of_surrounds negative reduced positive some (Nat.pow_pos (by decide)) ?_
    rw [zpow_neg, zpow_natCast, ← div_eq_mul_inv] at around
    simpa using around

-- The shortest digits are read as the double that they were made for, however they are spelled.

theorem shortest_surrounds (negative : Bool) (reduced : (finite negative significand exponent).IsReduced)
    (positive : 0 < significand) :
    Surrounds significand exponent ((shortest negative significand exponent).coefficient *
      10 ^ (shortest negative significand exponent).exponent) := by
  obtain ⟨number, power, digits, held⟩ := shortest_held exponent negative positive reduced.1
  have same := trim_magnitude 17 ⟨negative, number, power⟩
  rw [← digits] at same
  rw [same]
  apply surrounds_of_contains
  have inside := contains_of_holds held
  rwa [gridStep, mul_div_assoc'] at inside

theorem ofDecimal_spelled {negative : Bool} {numeral : Numeral} {text : List Char}
    (reduced : (finite negative significand exponent).IsReduced) (positive : 0 < significand)
    (spells : numeral.Spells text (shortest negative significand exponent)) :
    ofDecimal negative numeral.decimal.coefficient numeral.decimal.exponent = .finite negative significand exponent := by
  have around := shortest_surrounds negative reduced positive
  rw [← spells.magnitude] at around
  refine ofDecimal_of_surrounds reduced positive ?_ around
  apply Nat.pos_of_ne_zero
  intro zero
  have one : (1 : ℚ) ≤ significand := by exact_mod_cast positive
  have unit : (0 : ℚ) < (2 * significand - 1) * 2 ^ exponent := mul_pos (by linarith) (by positivity)
  have low := around.low
  rw [zero, Nat.cast_zero, zero_mul, mul_zero] at low
  linarith

end BlockCanvas.Binary64
