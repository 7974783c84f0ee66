import BlockCanvas.Number.Shortest
import BlockCanvas.Proofs.Rounding
namespace BlockCanvas.Binary64

variable {significand count number : Nat} {exponent power : ℤ}

theorem pow_length_le {n : Nat} (positive : 0 < n) : 10 ^ ((Decimal.digits n).length - 1) ≤ n := by
  by_contra less
  rcases Nat.eq_zero_or_pos ((Decimal.digits n).length - 1) with none | some
  · rw [none] at less
    omega
  · have short := (Nat.length_toDigits_le_iff (by decide) some).mpr (Nat.lt_of_not_le less)
    rw [← Decimal.digits] at short
    omega

theorem lt_pow_length (n : Nat) : n < 10 ^ (Decimal.digits n).length :=
  (Nat.length_toDigits_le_iff (by decide) Nat.length_toDigits_pos).mp le_rfl

theorem length_digits_pow (count : Nat) : (Decimal.digits (10 ^ count)).length = count + 1 := by
  have below := pow_length_le (Nat.pow_pos (by decide : 0 < 10) : 0 < 10 ^ count)
  have above := lt_pow_length (10 ^ count)
  have filled : 0 < (Decimal.digits (10 ^ count)).length := Nat.length_toDigits_pos
  rw [Nat.pow_le_pow_iff_right (by decide)] at below
  rw [Nat.pow_lt_pow_iff_right (by decide)] at above
  omega

theorem pow_floorLog10_le {numerator denominator : Nat} (above : 0 < numerator) (below : 0 < denominator) :
    (10 : ℚ) ^ floorLog10 numerator denominator ≤ numerator / denominator := by
  have bottom : (0 : ℚ) < denominator := by exact_mod_cast below
  unfold floorLog10
  split
  · rename_i large
    have quotient : 0 < numerator / denominator := Nat.div_pos large below
    have filled : 0 < (Decimal.digits (numerator / denominator)).length := Nat.length_toDigits_pos
    have length : ((Decimal.digits (numerator / denominator)).length : ℤ) - 1 =
        (((Decimal.digits (numerator / denominator)).length - 1 : Nat) : ℤ) := by omega
    rw [length, zpow_natCast]
    calc (10 : ℚ) ^ ((Decimal.digits (numerator / denominator)).length - 1)
        ≤ ((numerator / denominator : Nat) : ℚ) := by exact_mod_cast pow_length_le quotient
      _ ≤ numerator / denominator := Nat.cast_div_le
  · dsimp only
    have filled : 0 < (Decimal.digits (denominator / numerator)).length := Nat.length_toDigits_pos
    have bound := lt_pow_length (denominator / numerator)
    generalize (Decimal.digits (denominator / numerator)).length = places at filled bound ⊢
    split
    · rename_i reached
      have shift : 1 - (places : ℤ) = -((places - 1 : Nat) : ℤ) := by omega
      rw [shift, zpow_neg, zpow_natCast, inv_le_comm₀ (by positivity) (by positivity), inv_div, div_le_iff₀ (by positivity)]
      rw [Nat.pow_eq, Nat.mul_comm] at reached
      exact_mod_cast reached
    · rw [zpow_neg, zpow_natCast, inv_le_comm₀ (by positivity) (by positivity), inv_div, div_le_iff₀ (by positivity)]
      have less := (Nat.div_lt_iff_lt_mul above).mp bound
      exact_mod_cast less.le

-- A step of the decimal grid in quarters of the last binary place, and two whole numbers in its ratio.

def gridStep (exponent power : ℤ) : ℚ := 10 ^ power / 2 ^ (exponent - 2)

def gridUnit (exponent power : ℤ) : Nat := Nat.pow 2 (-(exponent - 2)).toNat * Nat.pow 10 power.toNat

def gridMeasure (exponent power : ℤ) : Nat := Nat.pow 2 (exponent - 2).toNat * Nat.pow 10 (-power).toNat

theorem gridMeasure_pos (exponent power : ℤ) : 0 < gridMeasure exponent power := by
  unfold gridMeasure
  rw [Nat.pow_eq, Nat.pow_eq]
  positivity

theorem gridUnit_pos (exponent power : ℤ) : 0 < gridUnit exponent power := by
  unfold gridUnit
  rw [Nat.pow_eq, Nat.pow_eq]
  positivity

theorem cast_mul_gridUnit (number : Nat) (exponent power : ℤ) :
    ((number * gridUnit exponent power : Nat) : ℚ) = number * gridStep exponent power * gridMeasure exponent power := by
  have two := zpow_mul_pow_toNat (by norm_num : (0 : ℚ) < 2) (exponent - 2)
  have ten := zpow_mul_pow_toNat (by norm_num : (0 : ℚ) < 10) power
  simp only [gridUnit, gridMeasure, gridStep, Nat.pow_eq]
  push_cast
  rw [← two, ← ten]
  field_simp

theorem measure_le_unit_iff (bound number : Nat) (exponent power : ℤ) :
    bound * gridMeasure exponent power ≤ number * gridUnit exponent power ↔ (bound : ℚ) ≤ number * gridStep exponent power := by
  have measured : (0 : ℚ) < gridMeasure exponent power := by exact_mod_cast gridMeasure_pos exponent power
  rw [← Nat.cast_le (α := ℚ), cast_mul_gridUnit, Nat.cast_mul, mul_le_mul_iff_of_pos_right measured]

theorem unit_le_measure_iff (bound number : Nat) (exponent power : ℤ) :
    number * gridUnit exponent power ≤ bound * gridMeasure exponent power ↔ number * gridStep exponent power ≤ (bound : ℚ) := by
  have measured : (0 : ℚ) < gridMeasure exponent power := by exact_mod_cast gridMeasure_pos exponent power
  rw [← Nat.cast_le (α := ℚ), cast_mul_gridUnit, Nat.cast_mul, mul_le_mul_iff_of_pos_right measured]

-- The interval of a number and what is chosen in it.

theorem Interval.bounds {bounds : Interval} {point measure : Nat} (held : bounds.holds point measure = true) :
    bounds.low * measure ≤ point ∧ point ≤ bounds.high * measure := by
  unfold Interval.holds at held
  split at held
  · simpa using held
  · simp only [Bool.and_eq_true, decide_eq_true_eq] at held
    omega

theorem Interval.missed {bounds : Interval} {point measure : Nat} (missed : ¬ bounds.holds point measure = true) :
    point ≤ bounds.low * measure ∨ bounds.high * measure ≤ point := by
  unfold Interval.holds at missed
  split at missed
  · simp only [Bool.and_eq_true, decide_eq_true_eq] at missed
    omega
  · simp only [Bool.and_eq_true, decide_eq_true_eq] at missed
    omega

-- If both neighbours of the center miss the interval, a whole step lies around it.
theorem Interval.width_le {bounds : Interval} {unit measure : Nat} (positive : 0 < unit) (measured : 0 < measure)
    (under : bounds.low < bounds.center) (beyond : bounds.center < bounds.high)
    (below : ¬ bounds.holds (bounds.center * measure / unit * unit) measure = true)
    (above : ¬ bounds.holds ((bounds.center * measure / unit + 1) * unit) measure = true) :
    (bounds.high - bounds.low) * measure ≤ unit := by
  have left : bounds.center * measure / unit * unit ≤ bounds.center * measure := Nat.div_mul_le_self _ _
  have right : bounds.center * measure < (bounds.center * measure / unit + 1) * unit :=
    (Nat.div_lt_iff_lt_mul positive).mp (Nat.lt_succ_self _)
  have low := Nat.mul_lt_mul_of_pos_right under measured
  have high := Nat.mul_lt_mul_of_pos_right beyond measured
  have ends : bounds.high * measure ≤ (bounds.center * measure / unit + 1) * unit :=
    (Interval.missed above).resolve_left (by omega)
  have start : bounds.center * measure / unit * unit ≤ bounds.low * measure :=
    (Interval.missed below).resolve_right (by omega)
  rw [Nat.add_mul, Nat.one_mul] at ends
  rw [Nat.sub_mul]
  omega

theorem interval_low (significand : Nat) (exponent : ℤ) : 4 * significand ≤ (interval significand exponent).low + 2 := by
  unfold interval
  dsimp only
  split <;> omega

-- A power of two has less room below than above.
theorem interval_width (exponent : ℤ) (positive : 0 < significand) (small : significand < 2 ^ 53) :
    (interval significand exponent).low < 4 * significand ∧
      4 * significand < 10 ^ 16 * ((interval significand exponent).high - (interval significand exponent).low) := by
  unfold interval
  dsimp only
  split
  · rename_i narrow
    have power : significand = 2 ^ 52 := narrow.1
    omega
  · omega

theorem onGrid_held (found : onGrid significand exponent count = some (number, power)) :
    (interval significand exponent).holds (number * gridUnit exponent power) (gridMeasure exponent power) = true := by
  unfold onGrid at found
  dsimp only at found
  split_ifs at found with both nearer further even below above
  · cases found
    exact (Bool.and_eq_true_iff.mp both).1
  · cases found
    exact (Bool.and_eq_true_iff.mp both).2
  · cases found
    exact (Bool.and_eq_true_iff.mp both).1
  · cases found
    exact (Bool.and_eq_true_iff.mp both).2
  · cases found
    exact below
  · cases found
    exact above

-- What the interval holds is at most half a binary place away.
theorem near_of_holds
    (held : (interval significand exponent).holds (number * gridUnit exponent power) (gridMeasure exponent power) = true) :
    |(number : ℚ) * 10 ^ power - significand * 2 ^ exponent| ≤ 2 ^ exponent / 2 := by
  obtain ⟨low, high⟩ := Interval.bounds held
  have lower := (measure_le_unit_iff _ _ _ _).mp low
  have upper := (unit_le_measure_iff _ _ _ _).mp high
  have least : (4 * significand : ℚ) ≤ (interval significand exponent).low + 2 := by
    exact_mod_cast interval_low significand exponent
  have most : ((interval significand exponent).high : ℚ) = 4 * significand + 2 := by simp [interval]
  have quarter : (0 : ℚ) < 2 ^ (exponent - 2) := by positivity
  have place : (2 : ℚ) ^ exponent = 4 * 2 ^ (exponent - 2) := by
    rw [zpow_sub₀ (by norm_num)]
    ring
  have point : (number : ℚ) * 10 ^ power = number * gridStep exponent power * 2 ^ (exponent - 2) := by
    rw [gridStep]
    field_simp
  have apart : |(number : ℚ) * gridStep exponent power - 4 * significand| ≤ 2 := by
    rw [abs_le]
    constructor <;> linarith
  calc |(number : ℚ) * 10 ^ power - significand * 2 ^ exponent|
      = |((number : ℚ) * gridStep exponent power - 4 * significand) * 2 ^ (exponent - 2)| := by rw [point, place]; ring_nf
    _ = |(number : ℚ) * gridStep exponent power - 4 * significand| * 2 ^ (exponent - 2) := by rw [abs_mul, abs_of_pos quarter]
    _ ≤ 2 * 2 ^ (exponent - 2) := mul_le_mul_of_nonneg_right apart quarter.le
    _ = 2 ^ exponent / 2 := by rw [place]; ring

-- The power of ten of a step, when the number has so many digits.
def gridPower (significand : Nat) (exponent : ℤ) (count : Nat) : ℤ :=
  floorLog10 (4 * significand * Nat.pow 2 (exponent - 2).toNat) (Nat.pow 2 (-(exponent - 2)).toNat) - ((count : ℤ) - 1)

theorem gridUnit_le (positive : 0 < significand) (exponent : ℤ) (count : Nat) :
    10 ^ count * gridUnit exponent (gridPower significand exponent (count + 1)) ≤
      4 * significand * gridMeasure exponent (gridPower significand exponent (count + 1)) := by
  have up : 0 < Nat.pow 2 (exponent - 2).toNat := Nat.pow_pos (by decide)
  have down : 0 < Nat.pow 2 (-(exponent - 2)).toNat := Nat.pow_pos (by decide)
  have log := pow_floorLog10_le (Nat.mul_pos (Nat.mul_pos (by decide : 0 < 4) positive) up) down
  have two := zpow_mul_pow_toNat (by norm_num : (0 : ℚ) < 2) (exponent - 2)
  have ratio : ((4 * significand * Nat.pow 2 (exponent - 2).toNat : Nat) : ℚ) / (Nat.pow 2 (-(exponent - 2)).toNat : Nat) =
      4 * significand * 2 ^ (exponent - 2) := by
    rw [Nat.pow_eq, Nat.pow_eq, div_eq_iff (by positivity)]
    push_cast
    rw [← two]
    ring
  rw [ratio] at log
  rw [unit_le_measure_iff, gridStep, gridPower, Nat.cast_succ, add_sub_cancel_right, zpow_sub₀ (by norm_num), zpow_natCast]
  generalize floorLog10 _ _ = power at log ⊢
  push_cast
  rw [div_div, mul_div_assoc', div_le_iff₀ (by positivity)]
  calc (10 : ℚ) ^ count * 10 ^ power
      ≤ 10 ^ count * (4 * significand * 2 ^ (exponent - 2)) := mul_le_mul_of_nonneg_left log (by positivity)
    _ = 4 * significand * (10 ^ count * 2 ^ (exponent - 2)) := by ring

-- Neighbours on a grid of seventeen digits are closer to each other than the ends of the interval.
theorem onGrid_seventeen (positive : 0 < significand) (small : significand < 2 ^ 53) :
    (onGrid significand exponent 17).isSome = true := by
  obtain ⟨less, wide⟩ := interval_width exponent positive small
  have fine := gridUnit_le positive exponent 16
  have measured := gridMeasure_pos exponent (gridPower significand exponent 17)
  cases found : onGrid significand exponent 17 with
  | some pair => rfl
  | none =>
      unfold onGrid at found
      dsimp only at found
      split_ifs at found with both nearer further even below above
      have step : ((interval significand exponent).high - (interval significand exponent).low) *
          gridMeasure exponent (gridPower significand exponent 17) ≤ gridUnit exponent (gridPower significand exponent 17) :=
        Interval.width_le (gridUnit_pos _ _) measured less (by simp [interval]) below above
      generalize gridUnit exponent (gridPower significand exponent 17) = unit at fine step
      generalize gridMeasure exponent (gridPower significand exponent 17) = measure at fine step measured
      have enough := Nat.mul_lt_mul_of_pos_right wide measured
      have most := Nat.mul_le_mul_left (10 ^ 16) step
      rw [← Nat.mul_assoc] at most
      omega

-- The digits that stand for a number.

theorem shortest_held (exponent : ℤ) (negative : Bool) (positive : 0 < significand) (small : significand < 2 ^ 53) :
    ∃ number power, shortest negative significand exponent = Decimal.trim 17 ⟨negative, number, power⟩ ∧
      (interval significand exponent).holds (number * gridUnit exponent power) (gridMeasure exponent power) = true := by
  have some : (gridSizes.findSome? (onGrid significand exponent)).isSome = true :=
    List.findSome?_isSome_iff.mpr ⟨17, by decide, onGrid_seventeen positive small⟩
  obtain ⟨⟨number, power⟩, found⟩ := Option.isSome_iff_exists.mp some
  obtain ⟨count, _, taken⟩ := List.exists_of_findSome?_eq_some found
  refine ⟨number, power, ?_, onGrid_held taken⟩
  rw [shortest, found]

theorem trim_magnitude (steps : Nat) (d : Decimal) :
    ((d.trim steps).coefficient : ℚ) * 10 ^ (d.trim steps).exponent = d.coefficient * 10 ^ d.exponent := by
  induction steps generalizing d with
  | zero => rfl
  | succ steps ih =>
      rw [Decimal.trim]
      split
      · rename_i round
        rw [ih]
        have tenth : (d.coefficient : ℚ) = (d.coefficient / 10 : Nat) * 10 := by
          exact_mod_cast (Nat.div_mul_cancel (Nat.dvd_of_mod_eq_zero round)).symm
        rw [zpow_add_one₀ (by norm_num), tenth]
        ring
      · rfl

theorem trim_negative (steps : Nat) (d : Decimal) : (d.trim steps).negative = d.negative := by
  induction steps generalizing d with
  | zero => rfl
  | succ steps ih =>
      rw [Decimal.trim]
      split
      · exact ih _
      · rfl

theorem shortest_negative (negative : Bool) (significand : Nat) (exponent : ℤ) :
    (shortest negative significand exponent).negative = negative := by
  unfold shortest
  split
  · exact trim_negative 17 _
  · rfl

-- Whole numbers are whole in the last binary place too, so none is nearer to a broken number than half of it.
theorem whole_of_near {whole significand places : Nat}
    (near : |(whole : ℚ) - significand * 2 ^ (-(places : ℤ))| ≤ 2 ^ (-(places : ℤ)) / 2) :
    significand % 2 ^ places = 0 := by
  have unit : (0 : ℚ) < 2 ^ places := by positivity
  have scaled : |((whole * 2 ^ places - significand : ℤ) : ℚ)| ≤ 1 / 2 := by
    have factored : ((whole * 2 ^ places - significand : ℤ) : ℚ) = (whole - significand * 2 ^ (-(places : ℤ))) * 2 ^ places := by
      rw [zpow_neg, zpow_natCast]
      push_cast
      field_simp
    rw [factored, abs_mul, abs_of_pos unit]
    refine (mul_le_mul_of_nonneg_right near unit.le).trans_eq ?_
    rw [zpow_neg, zpow_natCast]
    field_simp
  have zero : (whole * 2 ^ places - significand : ℤ) = 0 := by
    rw [← Int.abs_lt_one_iff]
    have less : |((whole * 2 ^ places - significand : ℤ) : ℚ)| < 1 := by linarith
    exact_mod_cast less
  have equal : significand = whole * 2 ^ places := by
    have lifted : (significand : ℤ) = ((whole * 2 ^ places : Nat) : ℤ) := by
      push_cast
      linarith
    exact_mod_cast lifted
  rw [equal, Nat.mul_mod_left]

theorem shortest_fractional (negative : Bool) (small : significand < 2 ^ 53) (below : exponent < 0)
    (broken : significand % 2 ^ (-exponent).toNat ≠ 0) : (shortest negative significand exponent).exponent < 0 := by
  have positive : 0 < significand := by
    rcases Nat.eq_zero_or_pos significand with rfl | positive
    · simp at broken
    · exact positive
  obtain ⟨number, power, digits, held⟩ := shortest_held exponent negative positive small
  have near := near_of_holds held
  by_contra whole
  obtain ⟨zeros, shift⟩ := Int.eq_ofNat_of_zero_le (Int.not_lt.mp whole)
  have same := trim_magnitude 17 ⟨negative, number, power⟩
  rw [← digits, shift, zpow_natCast] at same
  obtain ⟨places, rfl⟩ : ∃ places : Nat, exponent = -(places : ℤ) := ⟨(-exponent).toNat, by omega⟩
  rw [neg_neg, Int.toNat_natCast] at broken
  rw [← same] at near
  exact broken (whole_of_near (by exact_mod_cast near))

end BlockCanvas.Binary64
