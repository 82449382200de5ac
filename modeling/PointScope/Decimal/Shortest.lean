import PointScope.Decimal.Binary
import PointScope.Decimal.Digits

/-!
The shortest decimal text of a double precision number: the fewest significant digits that lie
nearer to it than to any other number, and of those the nearest to it. The text is positional, has
no exponent, and drops the point of a whole number.
-/

namespace PointScope.Decimal

/-- How far the numbers that round to a magnitude reach below it, in quarters of its unit. A power
of two has its lower neighbour at half the distance, except at the least exponent. -/
def lowerReach (mantissa : Nat) (exponent : Int) : Nat :=
  if mantissa = normalMantissa ∧ leastExponent < exponent then 1 else 2

/-- Whether a value at most the magnitude rounds to it; an even mantissa takes the border too. -/
def roundsFromBelow (mantissa : Nat) (exponent : Int) (exact : Exact) (value : Nat) : Bool :=
  let gap := 4 * (exact.coefficient - value)
  let reach := lowerReach mantissa exponent * exact.unit
  if mantissa % 2 = 0 then decide (gap ≤ reach) else decide (gap < reach)

/-- Whether a value at least the magnitude rounds to it. -/
def roundsFromAbove (mantissa : Nat) (exact : Exact) (value : Nat) : Bool :=
  let gap := 2 * (value - exact.coefficient)
  if mantissa % 2 = 0 then decide (gap ≤ exact.unit) else decide (gap < exact.unit)

/-- The neighbour of the magnitude on the grid of multiples of `step` that reads back as it, the
nearer one if both do, and the upper one of two equally near. -/
def onGrid? (mantissa : Nat) (exponent : Int) (exact : Exact) (step : Nat) : Option Nat :=
  let down := exact.coefficient / step * step
  let up := down + step
  match roundsFromBelow mantissa exponent exact down, roundsFromAbove mantissa exact up with
  | true, true =>
    if up - exact.coefficient ≤ exact.coefficient - down then some up else some down
  | true, false => some down
  | false, true => some up
  | false, false => none

/-- The first grid with a hit among those of `k + 1` digits less than all, `k`, and so on down to
none less, where the magnitude itself is the answer. -/
def onFirstGrid (mantissa : Nat) (exponent : Int) (exact : Exact) : Nat → Nat
  | 0 => exact.coefficient
  | k + 1 => (onGrid? mantissa exponent exact (Nat.pow 10 (k + 1))).getD
      (onFirstGrid mantissa exponent exact k)

/-- The coefficient of the shortest decimal, over the same places as the exact one. -/
def shortestCoefficient (mantissa : Nat) (exponent : Int) (exact : Exact) : Nat :=
  onFirstGrid mantissa exponent exact ((digits exact.coefficient).length - 1)

def shortestChars (v : Float) : List Char :=
  match Parts.ofFloat v with
  | .notANumber => ['N', 'a', 'N']
  | .infinite negative => signed negative ['i', 'n', 'f']
  | .finite negative mantissa exponent =>
    let exact := Exact.ofBinary mantissa exponent
    signed negative (plain (shortestCoefficient mantissa exponent exact) exact.places)

def shortest (v : Float) : String := String.ofList (shortestChars v)

end PointScope.Decimal
