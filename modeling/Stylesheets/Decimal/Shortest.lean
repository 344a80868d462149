/-!
# Shortest decimals

The decimal number with the fewest digits that reads back as a given binary
floating point number; among several of these, the one nearest to it, and of
two equally near the one with an even last digit.
-/

namespace Stylesheets

structure Decimal where
  negative : Bool
  digits : Nat
  exponent : Int
  deriving DecidableEq, Repr

namespace Decimal

def twoTo (exponent : Int) : Nat := Nat.pow 2 exponent.toNat

def tenTo (exponent : Int) : Nat := Nat.pow 10 exponent.toNat

/-- The number itself and the bounds of its rounding interval, over one denominator. -/
structure Rounding where
  low : Nat
  exact : Nat
  high : Nat
  denominator : Nat
  closed : Bool

def Rounding.ofBinary (mantissa : Nat) (exponent : Int) (atPowerOfTwo : Bool) : Rounding :=
  let quarter := exponent - 2
  let scale := twoTo quarter
  { low := (4 * mantissa - if atPowerOfTwo then 1 else 2) * scale
    exact := 4 * mantissa * scale
    high := (4 * mantissa + 2) * scale
    denominator := twoTo (-quarter)
    closed := mantissa % 2 = 0 }

def stepsBelow (numerator denominator : Nat) (exponent : Int) : Nat :=
  numerator * tenTo (-exponent) / (denominator * tenTo exponent)

def leadingExponent (numerator denominator : Nat) : Int :=
  if denominator ≤ numerator then
    ((Nat.toDigits 10 (numerator / denominator)).length : Int) - 1
  else
    let places := (Nat.toDigits 10 (denominator / numerator)).length
    if denominator ≤ numerator * tenTo (places - 1) then 1 - (places : Int)
    else -(places : Int)

def Rounding.holds (rounding : Rounding) (exponent : Int) (digits : Nat) : Bool :=
  let up := tenTo (-exponent)
  let number := digits * rounding.denominator * tenTo exponent
  if rounding.closed then rounding.low * up ≤ number && number ≤ rounding.high * up
  else rounding.low * up < number && number < rounding.high * up

def Rounding.distance (rounding : Rounding) (exponent : Int) (digits : Nat) : Nat :=
  let exact := rounding.exact * tenTo (-exponent)
  let number := digits * rounding.denominator * tenTo exponent
  (exact - number) + (number - exact)

/-- The better neighbour of the number on the grid of `10 ^ exponent`, if one will do. -/
def Rounding.onGrid? (rounding : Rounding) (exponent : Int) : Option Nat :=
  let below := stepsBelow rounding.exact rounding.denominator exponent
  let above := below + 1
  match rounding.holds exponent below, rounding.holds exponent above with
  | false, false => none
  | true, false => some below
  | false, true => some above
  | true, true =>
    let down := rounding.distance exponent below
    let up := rounding.distance exponent above
    if down < up then some below
    else if up < down then some above
    else if below % 2 = 0 then some below else some above

def trimZeros (fuel digits : Nat) (exponent : Int) : Nat × Int :=
  match fuel with
  | 0 => (digits, exponent)
  | fuel + 1 =>
    if digits ≠ 0 ∧ digits % 10 = 0 then trimZeros fuel (digits / 10) (exponent + 1)
    else (digits, exponent)

def digitCounts : List Nat := List.range' 1 17

def ofBinary (negative : Bool) (mantissa : Nat) (exponent : Int) (atPowerOfTwo : Bool) :
    Decimal :=
  let rounding := Rounding.ofBinary mantissa exponent atPowerOfTwo
  let leading := leadingExponent rounding.exact rounding.denominator
  let found := digitCounts.findSome? fun (count : Nat) =>
    let grid : Int := leading - count + 1
    (rounding.onGrid? grid).map fun digits => trimZeros 20 digits grid
  let (digits, decimalExponent) := found.getD (0, 0)
  ⟨negative, digits, decimalExponent⟩

def ofFloat? (number : Float) : Option Decimal :=
  let bits := number.toBits.toNat
  let negative := decide (twoTo 63 ≤ bits)
  let biased : Nat := bits / twoTo 52 % twoTo 11
  let fraction : Nat := bits % twoTo 52
  if biased = twoTo 11 - 1 then none
  else if biased = 0 then
    if fraction = 0 then some ⟨negative, 0, 0⟩
    else some (ofBinary negative fraction (-1074) false)
  else
    some (ofBinary negative (twoTo 52 + fraction) ((biased : Int) - 1075)
      (fraction = 0 && biased ≠ 1))

end Decimal

end Stylesheets
