import PointScope.Decimal.Binary
import PointScope.Decimal.Digits
import PointScope.Decimal.Round

/-!
Decimal text with a fixed number of places. The exact binary value is rounded once, to the nearest
multiple of the last place and to the even one of two equally near.
-/

namespace PointScope.Decimal

def Exact.atPlaces (exact : Exact) (places : Nat) : Nat :=
  if exact.places ≤ places then exact.coefficient * Nat.pow 10 (places - exact.places)
  else roundDiv exact.coefficient (Nat.pow 10 (exact.places - places))

/-- The text of a number with a fixed number of places. A negative number keeps its sign even
when it rounds to zero. -/
def fixed (places : Nat) (v : Float) : String :=
  String.ofList <| match Parts.ofFloat v with
    | .notANumber => ['N', 'a', 'N']
    | .infinite negative => signed negative ['i', 'n', 'f']
    | .finite negative mantissa exponent =>
      signed negative (padded ((Exact.ofBinary mantissa exponent).atPlaces places) places)

end PointScope.Decimal
