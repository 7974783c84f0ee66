namespace BlockCanvas

structure Decimal where
  negative : Bool
  coefficient : Nat
  exponent : Int
deriving DecidableEq

namespace Decimal

def signText (negative : Bool) : List Char := if negative then ['-'] else []

def digits (n : Nat) : List Char := Nat.toDigits 10 n

-- The digits with a point `places` digits before their end, at least one digit in front of it.
def pointed (text : List Char) (places : Nat) : List Char :=
  let padded := List.replicate (places + 1 - text.length) '0' ++ text
  let front := padded.length - places
  padded.take front ++ '.' :: padded.drop front

def plain (d : Decimal) : List Char :=
  signText d.negative ++
    if 0 ≤ d.exponent then digits (d.coefficient * Nat.pow 10 d.exponent.toNat)
    else pointed (digits d.coefficient) (-d.exponent).toNat

def paddedPower (power : Int) : List Char :=
  let magnitude := digits power.natAbs
  (if power < 0 then '-' else '+') :: (List.replicate (2 - magnitude.length) '0' ++ magnitude)

def barePower (power : Int) : List Char := signText (power < 0) ++ digits power.natAbs

def scientific (powerText : Int → List Char) (d : Decimal) : List Char :=
  let text := digits d.coefficient
  let fraction := match text.drop 1 with
    | [] => []
    | rest => '.' :: rest
  signText d.negative ++ text.take 1 ++ fraction ++ 'e' :: powerText (d.exponent + (text.length : Int) - 1)

-- Positional up to sixteen digits in front of the point, where a whole number keeps one zero behind it,
-- and down to so many zeros behind the point; scientific elsewhere.
def shownFrom (least : Int) (powerText : Int → List Char) (d : Decimal) : List Char :=
  let point : Int := d.exponent + ((digits d.coefficient).length : Int)
  if least < point ∧ point ≤ 16 then
    if 0 ≤ d.exponent then d.plain ++ ['.', '0'] else d.plain
  else d.scientific powerText

def shown (d : Decimal) : List Char := d.shownFrom (-4) paddedPower

def compact (d : Decimal) : List Char := d.shownFrom (-5) barePower

def trim : Nat → Decimal → Decimal
  | 0, d => d
  | steps + 1, d =>
      if d.coefficient % 10 = 0 then
        trim steps { d with coefficient := d.coefficient / 10, exponent := d.exponent + 1 }
      else d

end Decimal
end BlockCanvas
