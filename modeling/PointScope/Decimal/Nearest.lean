import PointScope.Decimal.Binary
import PointScope.Decimal.Round

/-!
The double precision number nearest to an exact decimal. The quotient is brought to the unit in
the last place that numbers of its size have and rounded there once. The bits of a finite number
are its units counted on from those of all smaller exponents, so a mantissa that rounding carries
over into the next power of two is encoded rightly without a case of its own.
-/

namespace PointScope.Decimal

/-- The bits of positive infinity, which follow those of the largest finite number. -/
def infinityBits : Nat := 2047 * normalMantissa

/-- The quotient `num / den` in units of `2 ^ exponent`, rounded. -/
def inUnits (num den : Nat) (exponent : Int) : Nat :=
  roundDiv (num * Nat.pow 2 (-exponent).toNat) (den * Nat.pow 2 exponent.toNat)

/-- The exponent of the unit in the last place of numbers as large as `num / den`, which has 53
binary digits unless the least exponent leaves it fewer. -/
def unitExponent (num den : Nat) : Int :=
  let k : Int := (num.log2 : Int) - den.log2
  let digits := if den * Nat.pow 2 k.toNat ≤ num * Nat.pow 2 (-k).toNat then k + 1 else k
  max leastExponent (digits - 53)

def nearestBits (num den : Nat) : Nat :=
  let exponent := unitExponent num den
  min infinityBits
    ((exponent - leastExponent).toNat * normalMantissa + inUnits num den exponent)

/-- An exponent of ten beyond which every decimal is infinite, and below which, by as much as its
coefficient has binary digits, every decimal is zero. -/
def decisiveExponent : Int := 400

/-- The number nearest to `coefficient * 10 ^ exponent`. Powers of ten are formed only where they
can matter. -/
def nearest (coefficient : Nat) (exponent : Int) : Float :=
  Float.ofBits <| UInt64.ofNat <|
    if coefficient = 0 ∨ exponent + coefficient.log2 < -decisiveExponent then 0
    else if decisiveExponent < exponent then infinityBits
    else nearestBits (coefficient * Nat.pow 10 exponent.toNat) (Nat.pow 10 (-exponent).toNat)

end PointScope.Decimal
