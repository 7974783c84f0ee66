import BlockCanvas.Number.Binary64
import Mathlib
namespace BlockCanvas.Binary64
variable {numerator denominator : Nat}

theorem zpow_mul_pow_toNat {base : ℚ} (positive : 0 < base) (power : ℤ) :
    base ^ power * base ^ (-power).toNat = base ^ power.toNat := by
  rw [← zpow_natCast, ← zpow_natCast, ← zpow_add₀ positive.ne']
  congr 1
  omega

-- A ratio against a multiple of a power of two, in whole numbers.

theorem scaled_div (below : 0 < denominator) (power : ℤ) :
    ((numerator * 2 ^ (-power).toNat : Nat) : ℚ) = numerator / denominator * (denominator * 2 ^ (-power).toNat) := by
  have bottom : (denominator : ℚ) ≠ 0 := by exact_mod_cast below.ne'
  push_cast
  field_simp

theorem scaled_mul (bound : Nat) (power : ℤ) :
    ((bound * (denominator * 2 ^ power.toNat) : Nat) : ℚ) = bound * 2 ^ power * (denominator * 2 ^ (-power).toNat) := by
  push_cast
  rw [← zpow_mul_pow_toNat (by norm_num : (0 : ℚ) < 2) power]
  ring

theorem scale_pos (below : 0 < denominator) (power : ℤ) : (0 : ℚ) < denominator * 2 ^ (-power).toNat := by
  have bottom : (0 : ℚ) < denominator := by exact_mod_cast below
  positivity

theorem div_lt_mul_zpow_iff (below : 0 < denominator) (bound : Nat) (power : ℤ) :
    (numerator : ℚ) / denominator < bound * 2 ^ power ↔
      numerator * 2 ^ (-power).toNat < bound * (denominator * 2 ^ power.toNat) := by
  rw [← Nat.cast_lt (α := ℚ), scaled_div below, scaled_mul, mul_lt_mul_iff_of_pos_right (scale_pos below power)]

theorem mul_zpow_lt_div_iff (below : 0 < denominator) (bound : Nat) (power : ℤ) :
    bound * 2 ^ power < (numerator : ℚ) / denominator ↔
      bound * (denominator * 2 ^ power.toNat) < numerator * 2 ^ (-power).toNat := by
  rw [← Nat.cast_lt (α := ℚ), scaled_div below, scaled_mul, mul_lt_mul_iff_of_pos_right (scale_pos below power)]

theorem lt_pow_floorLog2 (below : 0 < denominator) :
    (numerator : ℚ) / denominator < 2 ^ (floorLog2 numerator denominator + 1) := by
  have bottom : (2 : ℚ) ^ denominator.log2 ≤ denominator := by exact_mod_cast Nat.log2_self_le below.ne'
  have top : (numerator : ℚ) < 2 ^ (numerator.log2 + 1) := by exact_mod_cast Nat.lt_log2_self
  unfold floorLog2
  dsimp only
  generalize shift : (numerator.log2 : ℤ) - (denominator.log2 : ℤ) = guess
  have rough : (numerator : ℚ) / denominator < 2 ^ (guess + 1) := by
    rw [← shift, sub_add_eq_add_sub, zpow_sub₀ (by norm_num), zpow_natCast, ← Nat.cast_succ, zpow_natCast]
    exact div_lt_div₀ top bottom (by positivity) (by positivity)
  have finer : numerator * 2 ^ (-guess).toNat < 1 * (denominator * 2 ^ guess.toNat) →
      (numerator : ℚ) / denominator < 2 ^ (guess - 1 + 1) := by
    intro less
    have ratio := (div_lt_mul_zpow_iff below 1 guess).mpr less
    rwa [Nat.cast_one, one_mul, ← sub_add_cancel guess 1] at ratio
  split
  · rename_i whole
    rw [Int.toNat_of_nonpos (by omega : -guess ≤ 0), Nat.pow_zero, Nat.mul_one, Nat.one_mul] at finer
    split
    · exact rough
    · rename_i missed
      exact finer (Nat.lt_of_not_le fun reached => missed (decide_eq_true reached))
  · rename_i broken
    rw [Int.toNat_of_nonpos (by omega : guess ≤ 0), Nat.pow_zero, Nat.mul_one, Nat.one_mul] at finer
    split
    · exact rough
    · rename_i missed
      exact finer (Nat.lt_of_not_le fun reached => missed (decide_eq_true reached))

theorem pow_floorLog2_le (above : 0 < numerator) (below : 0 < denominator) :
    (2 : ℚ) ^ floorLog2 numerator denominator ≤ numerator / denominator := by
  have bottom : (denominator : ℚ) < 2 ^ (denominator.log2 + 1) := by exact_mod_cast Nat.lt_log2_self
  have top : (2 : ℚ) ^ numerator.log2 ≤ numerator := by exact_mod_cast Nat.log2_self_le above.ne'
  have some : (0 : ℚ) < denominator := by exact_mod_cast below
  unfold floorLog2
  dsimp only
  generalize shift : (numerator.log2 : ℤ) - (denominator.log2 : ℤ) = guess
  have rough : (2 : ℚ) ^ (guess - 1) ≤ numerator / denominator := by
    have exponent : guess - 1 = (numerator.log2 : ℤ) - ((denominator.log2 + 1 : Nat) : ℤ) := by
      push_cast
      omega
    rw [exponent, zpow_sub₀ (by norm_num), zpow_natCast, zpow_natCast]
    exact div_le_div₀ (by positivity) top some bottom.le
  have finer : 1 * (denominator * 2 ^ guess.toNat) ≤ numerator * 2 ^ (-guess).toNat →
      (2 : ℚ) ^ guess ≤ numerator / denominator := by
    intro reached
    have ratio := not_lt.mp (mt (div_lt_mul_zpow_iff below 1 guess).mp (Nat.not_lt.mpr reached))
    rwa [Nat.cast_one, one_mul] at ratio
  split
  · rename_i whole
    rw [Int.toNat_of_nonpos (by omega : -guess ≤ 0), Nat.pow_zero, Nat.mul_one, Nat.one_mul] at finer
    split
    · rename_i reached
      exact finer (of_decide_eq_true reached)
    · exact rough
  · rename_i broken
    rw [Int.toNat_of_nonpos (by omega : guess ≤ 0), Nat.pow_zero, Nat.mul_one, Nat.one_mul] at finer
    split
    · rename_i reached
      exact finer (of_decide_eq_true reached)
    · exact rough

theorem floorLog2_lt {power : ℤ} (above : 0 < numerator) (below : 0 < denominator)
    (less : (numerator : ℚ) / denominator < 2 ^ power) : floorLog2 numerator denominator < power :=
  (zpow_lt_zpow_iff_right₀ (by norm_num)).mp ((pow_floorLog2_le above below).trans_lt less)

theorem le_floorLog2 {power : ℤ} (below : 0 < denominator) (most : (2 : ℚ) ^ power ≤ numerator / denominator) :
    power ≤ floorLog2 numerator denominator := by
  have less := (zpow_lt_zpow_iff_right₀ (by norm_num)).mp (most.trans_lt (lt_pow_floorLog2 below))
  omega

-- A quotient below a whole number is rounded to that number at most.
theorem divideToEven_le {bound : Nat} (below : 0 < denominator) (less : numerator < bound * denominator) :
    divideToEven numerator denominator ≤ bound := by
  have quotient : numerator / denominator < bound := (Nat.div_lt_iff_lt_mul below).mpr less
  unfold divideToEven
  dsimp only
  split_ifs <;> omega

theorem le_divideToEven {bound : Nat} (below : 0 < denominator) (most : bound * denominator ≤ numerator) :
    bound ≤ divideToEven numerator denominator := by
  have quotient : bound ≤ numerator / denominator := (Nat.le_div_iff_mul_le below).mpr most
  unfold divideToEven
  dsimp only
  split_ifs <;> omega

-- At most half a unit off, and less than half if the whole number is odd.
structure Nearest (numerator denominator whole : Nat) : Prop where
  low : 2 * whole * denominator ≤ 2 * numerator + denominator
  high : 2 * numerator ≤ (2 * whole + 1) * denominator
  odd : whole % 2 = 1 → 2 * whole * denominator < 2 * numerator + denominator ∧
    2 * numerator < (2 * whole + 1) * denominator

theorem divideToEven_eq {whole : Nat} (below : 0 < denominator) (near : Nearest numerator denominator whole) :
    divideToEven numerator denominator = whole := by
  obtain ⟨low, high, odd⟩ := near
  have split := Nat.div_add_mod numerator denominator
  have rest := Nat.mod_lt numerator below
  unfold divideToEven
  dsimp only
  generalize numerator / denominator = quotient at *
  generalize numerator % denominator = remainder at *
  subst split
  -- The quotient is the whole number or the one below it.
  have most : quotient ≤ whole := by
    have less : 2 * quotient * denominator < (2 * whole + 2) * denominator := by nlinarith
    have := Nat.lt_of_mul_lt_mul_right less
    omega
  have least : whole ≤ quotient + 1 := by
    have less : 2 * whole * denominator < (2 * quotient + 3) * denominator := by nlinarith
    have := Nat.lt_of_mul_lt_mul_right less
    omega
  rcases Nat.le_iff_lt_or_eq.mp most with less | rfl
  · obtain rfl : whole = quotient + 1 := by omega
    have half : denominator ≤ 2 * remainder := by nlinarith
    split_ifs with under past even
    · omega
    · rfl
    · have := (odd (by omega)).1
      nlinarith
    · rfl
  · have half : 2 * remainder ≤ denominator := by nlinarith
    split_ifs with under past even
    · rfl
    · omega
    · rfl
    · have := (odd (by omega)).2
      nlinarith

-- Rounding in two steps: the places that the exponent leaves, and a carry out of them.

def limited (negative : Bool) (significand : Nat) (exponent : ℤ) : Binary64 :=
  if greatestExponent < exponent then .infinite negative else .finite negative significand exponent

def carried (negative : Bool) (significand : Nat) (exponent : ℤ) : Binary64 :=
  if significand = 2 ^ 53 then limited negative (2 ^ 52) (exponent + 1) else limited negative significand exponent

def places (numerator denominator : Nat) (exponent : ℤ) : Nat :=
  divideToEven (numerator * 2 ^ (-exponent).toNat) (denominator * 2 ^ exponent.toNat)

theorem round_eq (negative : Bool) (above : 0 < numerator) (denominator : Nat) :
    round negative numerator denominator =
      carried negative (places numerator denominator (max (floorLog2 numerator denominator - 52) leastExponent))
        (max (floorLog2 numerator denominator - 52) leastExponent) := by
  unfold round
  rw [if_neg above.ne']
  dsimp only
  generalize max (floorLog2 numerator denominator - 52) leastExponent = exponent
  have shifted : (if 0 ≤ exponent then divideToEven numerator (denominator * Nat.pow 2 exponent.toNat)
      else divideToEven (numerator * Nat.pow 2 (-exponent).toNat) denominator) = places numerator denominator exponent := by
    unfold places
    split
    · rw [Int.toNat_of_nonpos (by omega : -exponent ≤ 0), Nat.pow_zero, Nat.mul_one, Nat.pow_eq]
    · rw [Int.toNat_of_nonpos (by omega : exponent ≤ 0), Nat.pow_zero, Nat.mul_one, Nat.pow_eq]
  rw [shifted]
  unfold carried limited
  by_cases full : places numerator denominator exponent = 2 ^ 53
  · have same : places numerator denominator exponent = Nat.pow 2 precision := full
    simp only [if_pos full, if_pos same]
    rfl
  · have other : ¬ places numerator denominator exponent = Nat.pow 2 precision := full
    simp only [if_neg full, if_neg other]

theorem shifted_pos (below : 0 < denominator) (exponent : ℤ) : 0 < denominator * 2 ^ exponent.toNat :=
  Nat.mul_pos below (Nat.pow_pos (by decide))

theorem places_le (below : 0 < denominator) {exponent : ℤ} (least : floorLog2 numerator denominator - 52 ≤ exponent) :
    places numerator denominator exponent ≤ 2 ^ 53 := by
  have ratio : (numerator : ℚ) / denominator < (2 ^ 53 : Nat) * 2 ^ exponent := by
    have power : (2 : ℚ) ^ (floorLog2 numerator denominator + 1) ≤ 2 ^ (53 + exponent) :=
      zpow_le_zpow_right₀ (by norm_num) (by omega)
    rw [zpow_add₀ (by norm_num) 53] at power
    exact_mod_cast (lt_pow_floorLog2 below).trans_le power
  exact divideToEven_le (shifted_pos below exponent) ((div_lt_mul_zpow_iff below _ exponent).mp ratio)

theorem le_places (above : 0 < numerator) (below : 0 < denominator) :
    2 ^ 52 ≤ places numerator denominator (floorLog2 numerator denominator - 52) := by
  have ratio : ((2 ^ 52 : Nat) : ℚ) * 2 ^ (floorLog2 numerator denominator - 52) ≤ numerator / denominator := by
    have power : ((2 ^ 52 : Nat) : ℚ) = 2 ^ (52 : ℤ) := by norm_num
    rw [power, ← zpow_add₀ (by norm_num), add_sub_cancel]
    exact pow_floorLog2_le above below
  have most := Nat.not_lt.mp (mt (div_lt_mul_zpow_iff below _ _).mpr (not_lt.mpr ratio))
  exact le_divideToEven (shifted_pos below _) most

-- The significand of a double has at most 53 binary digits.
def IsDouble : Binary64 → Prop
  | .finite _ significand _ => significand < 2 ^ 53
  | _ => True

-- The exponent of a double is in its range, and greater than the least only if all digits are in use.
def IsReduced : Binary64 → Prop
  | .finite _ significand exponent => significand < 2 ^ 53 ∧ leastExponent ≤ exponent ∧ exponent ≤ greatestExponent ∧
      (2 ^ 52 ≤ significand ∨ exponent = leastExponent)
  | _ => True

theorem IsReduced.isDouble {x : Binary64} (reduced : x.IsReduced) : x.IsDouble := by
  cases x with
  | finite negative significand exponent => exact reduced.1
  | _ => trivial

theorem limited_isReduced (negative : Bool) {significand : Nat} {exponent : ℤ} (small : significand < 2 ^ 53)
    (least : leastExponent ≤ exponent) (filled : 2 ^ 52 ≤ significand ∨ exponent = leastExponent) :
    (limited negative significand exponent).IsReduced := by
  unfold limited
  split
  · trivial
  · rename_i within
    exact ⟨small, least, not_lt.mp within, filled⟩

theorem signedZero_isReduced (negative : Bool) : (signedZero negative).IsReduced :=
  ⟨by norm_num, le_refl leastExponent, by decide, .inr rfl⟩

theorem round_isReduced (negative : Bool) (numerator : Nat) (below : 0 < denominator) :
    (round negative numerator denominator).IsReduced := by
  rcases Nat.eq_zero_or_pos numerator with rfl | above
  · exact signedZero_isReduced negative
  · have most := places_le below (le_max_left (floorLog2 numerator denominator - 52) leastExponent)
    have full := le_places above below
    have least := le_max_right (floorLog2 numerator denominator - 52) leastExponent
    have filled : 2 ^ 52 ≤ places numerator denominator (max (floorLog2 numerator denominator - 52) leastExponent) ∨
        max (floorLog2 numerator denominator - 52) leastExponent = leastExponent := by
      rcases max_choice (floorLog2 numerator denominator - 52) leastExponent with same | same
      · rw [same]
        exact .inl full
      · exact .inr same
    rw [round_eq negative above]
    generalize max (floorLog2 numerator denominator - 52) leastExponent = exponent at *
    unfold carried
    split
    · exact limited_isReduced negative (by norm_num) (by omega) (.inl le_rfl)
    · exact limited_isReduced negative (by omega) least filled

theorem ofDecimal_isReduced (negative : Bool) (coefficient : Nat) (exponent : ℤ) :
    (ofDecimal negative coefficient exponent).IsReduced := by
  unfold ofDecimal
  dsimp only
  split_ifs
  · exact signedZero_isReduced negative
  · trivial
  · exact signedZero_isReduced negative
  · exact round_isReduced negative _ Nat.one_pos
  · exact round_isReduced negative _ (Nat.pow_pos (by decide))

theorem ofDecimal_isDouble (negative : Bool) (coefficient : Nat) (exponent : ℤ) :
    (ofDecimal negative coefficient exponent).IsDouble :=
  (ofDecimal_isReduced negative coefficient exponent).isDouble

end BlockCanvas.Binary64
