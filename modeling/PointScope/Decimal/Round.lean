/-!
Rounding a quotient of naturals to the nearest natural. Texts with a fixed number of places and
numbers read from text are both rounded this way, once, from the exact quotient.
-/

namespace PointScope.Decimal

/-- The quotient of two naturals rounded to the nearest, a tie to the even one. -/
def roundDiv (num den : Nat) : Nat :=
  let q := num / den
  let twice := 2 * (num % den)
  if twice < den then q
  else if twice = den then q + q % 2
  else q + 1

end PointScope.Decimal
