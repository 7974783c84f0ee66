import BlockCanvas.Number.Binary64
import BlockCanvas.Number.Decimal
namespace BlockCanvas.Binary64

def floorLog10 (numerator denominator : Nat) : Int :=
  if denominator ≤ numerator then
    ((Decimal.digits (numerator / denominator)).length : Int) - 1
  else
    let places := (Decimal.digits (denominator / numerator)).length
    if denominator ≤ numerator * Nat.pow 10 (places - 1) then 1 - (places : Int) else -(places : Int)

-- The reals that round to `significand * 2 ^ exponent`, in quarters of its last place. The lower
-- end is nearer when the number below has a smaller exponent; both ends belong to an even number.
structure Interval where
  center : Nat
  low : Nat
  high : Nat
  closed : Bool

def interval (significand : Nat) (exponent : Int) : Interval :=
  let center := 4 * significand
  let narrow := significand = Nat.pow 2 (precision - 1) ∧ leastExponent < exponent
  ⟨center, if narrow then center - 1 else center - 2, center + 2, significand % 2 = 0⟩

def Interval.holds (bounds : Interval) (point measure : Nat) : Bool :=
  if bounds.closed then bounds.low * measure ≤ point && point ≤ bounds.high * measure
  else bounds.low * measure < point && point < bounds.high * measure

def onGrid (significand : Nat) (exponent : Int) (count : Nat) : Option (Nat × Int) :=
  let bounds := interval significand exponent
  let quarter := exponent - 2
  let up := Nat.pow 2 quarter.toNat
  let down := Nat.pow 2 (-quarter).toNat
  let power := floorLog10 (bounds.center * up) down - ((count : Int) - 1)
  let measure := up * Nat.pow 10 (-power).toNat
  let unit := down * Nat.pow 10 power.toNat
  let below := bounds.center * measure / unit
  let above := below + 1
  let fits (n : Nat) : Bool := bounds.holds (n * unit) measure
  let toBelow := bounds.center * measure - below * unit
  let toAbove := above * unit - bounds.center * measure
  if fits below && fits above then
    if toBelow < toAbove then some (below, power)
    else if toAbove < toBelow then some (above, power)
    else if below % 2 = 0 then some (below, power)
    else some (above, power)
  else if fits below then some (below, power)
  else if fits above then some (above, power)
  else none

def gridSizes : List Nat := [1, 2, 3, 4, 5, 6, 7, 8, 9, 10, 11, 12, 13, 14, 15, 16, 17]

def shortest (negative : Bool) (significand : Nat) (exponent : Int) : Decimal :=
  match gridSizes.findSome? (onGrid significand exponent) with
  | some (coefficient, power) => Decimal.trim 17 ⟨negative, coefficient, power⟩
  | none => ⟨negative, 0, 0⟩

def shown : Binary64 → String
  | .finite negative significand exponent =>
      if significand = 0 then String.ofList (Decimal.signText negative ++ ['0', '.', '0'])
      else String.ofList (shortest negative significand exponent).shown
  | .infinite negative => if negative then "-inf" else "inf"
  | .undefined => "nan"

def written (x : Binary64) : String :=
  match x.integer? with
  | some n => toString n
  | none =>
    match x with
    | .finite negative significand exponent =>
        String.ofList (shortest negative significand exponent).plain
    | .infinite negative => if negative then "-Infinity" else "Infinity"
    | .undefined => "NaN"

end BlockCanvas.Binary64
