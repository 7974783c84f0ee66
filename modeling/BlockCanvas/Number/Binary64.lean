namespace BlockCanvas

inductive Binary64 where
  | finite (negative : Bool) (significand : Nat) (exponent : Int)
  | infinite (negative : Bool)
  | undefined
deriving DecidableEq

namespace Binary64

def leastExponent : Int := -1074
def greatestExponent : Int := 971
def precision : Nat := 53

def signedZero (negative : Bool) : Binary64 := .finite negative 0 leastExponent
def zero : Binary64 := signedZero false
def one : Binary64 := .finite false (Nat.pow 2 52) (-52)

instance : Inhabited Binary64 := ⟨zero⟩

-- Quotient to the nearest integer, a half to the even neighbour.
def divideToEven (numerator denominator : Nat) : Nat :=
  let quotient := numerator / denominator
  let twice := 2 * (numerator % denominator)
  if twice < denominator then quotient
  else if denominator < twice then quotient + 1
  else if quotient % 2 = 0 then quotient
  else quotient + 1

def floorLog2 (numerator denominator : Nat) : Int :=
  let guess : Int := (Nat.log2 numerator : Int) - (Nat.log2 denominator : Int)
  let reached :=
    if 0 ≤ guess then decide (denominator * Nat.pow 2 guess.toNat ≤ numerator)
    else decide (denominator ≤ numerator * Nat.pow 2 (-guess).toNat)
  if reached then guess else guess - 1

-- The nearest double of a positive ratio, ties to even, beyond the range infinite.
def round (negative : Bool) (numerator denominator : Nat) : Binary64 :=
  if numerator = 0 then signedZero negative
  else
    let exponent := max (floorLog2 numerator denominator - 52) leastExponent
    let significand :=
      if 0 ≤ exponent then divideToEven numerator (denominator * Nat.pow 2 exponent.toNat)
      else divideToEven (numerator * Nat.pow 2 (-exponent).toNat) denominator
    let carried := significand = Nat.pow 2 precision
    let exponent := if carried then exponent + 1 else exponent
    let significand := if carried then Nat.pow 2 (precision - 1) else significand
    if greatestExponent < exponent then .infinite negative
    else .finite negative significand exponent

def ofInt (n : Int) : Binary64 :=
  round (n < 0) n.natAbs 1

-- Powers of ten this far from the range decide the result without being computed.
def decimalRange : Int := 400

def ofDecimal (negative : Bool) (coefficient : Nat) (exponent : Int) : Binary64 :=
  let leading : Int := (Nat.toDigits 10 coefficient).length + exponent
  if coefficient = 0 then signedZero negative
  else if decimalRange < leading then .infinite negative
  else if leading < -decimalRange then signedZero negative
  else if 0 ≤ exponent then round negative (coefficient * Nat.pow 10 exponent.toNat) 1
  else round negative coefficient (Nat.pow 10 (-exponent).toNat)

def isFinite : Binary64 → Bool
  | .finite .. => true
  | _ => false

def isZero : Binary64 → Bool
  | .finite _ significand _ => significand = 0
  | _ => false

def signed (negative : Bool) (magnitude : Nat) : Int :=
  if negative then -(magnitude : Int) else magnitude

def integer? : Binary64 → Option Int
  | .finite negative significand exponent =>
      if 0 ≤ exponent then some (signed negative (significand * Nat.pow 2 exponent.toNat))
      else
        let unit := Nat.pow 2 (-exponent).toNat
        if significand % unit = 0 then some (signed negative (significand / unit)) else none
  | _ => none

def floor : Binary64 → Int
  | .finite negative significand exponent =>
      if 0 ≤ exponent then signed negative (significand * Nat.pow 2 exponent.toNat)
      else signed negative significand / Int.pow 2 (-exponent).toNat
  | _ => 0

-- The part of a finite double behind the point, without its sign, as a ratio.
def fraction : Binary64 → Nat × Nat
  | .finite _ significand exponent =>
      let unit := Nat.pow 2 (-exponent).toNat
      (significand % unit, unit)
  | _ => (0, 1)

def nearest : Binary64 → Nat
  | .finite _ significand exponent =>
      if 0 ≤ exponent then significand * Nat.pow 2 exponent.toNat
      else
        let unit := Nat.pow 2 (-exponent).toNat
        (2 * significand + unit) / (2 * unit)
  | _ => 0

def aboveFloor (x : Binary64) : Binary64 :=
  let (part, unit) := x.fraction
  if x.floor < 0 ∧ part ≠ 0 then round false (unit - part) unit else round false part unit

def times (x : Binary64) (factor : Nat) : Binary64 :=
  match x with
  | .finite negative significand exponent =>
      round negative (significand * factor * Nat.pow 2 exponent.toNat) (Nat.pow 2 (-exponent).toNat)
  | other => other

def exceeds (bound : Nat) : Binary64 → Bool
  | .finite _ significand exponent =>
      bound * Nat.pow 2 (-exponent).toNat < significand * Nat.pow 2 exponent.toNat
  | .infinite _ => true
  | .undefined => false

end Binary64
end BlockCanvas
