/-!
What a double precision number is: a sign and a whole number of units `2 ^ exponent`, an infinity,
or not a number. Every text of a number in this library is computed from these parts by exact
arithmetic on naturals.
-/

namespace PointScope.Decimal

inductive Parts where
  | notANumber
  | infinite (negative : Bool)
  /-- The number `± mantissa * 2 ^ exponent`. -/
  | finite (negative : Bool) (mantissa : Nat) (exponent : Int)
deriving DecidableEq, Repr

/-- The exponent of the smallest positive number and of every subnormal. -/
def leastExponent : Int := -1074

/-- The mantissa of a power of two, where the numbers below stand at half the distance. -/
def normalMantissa : Nat := 4503599627370496

/-- What the sign bit counts among the bits of a number. -/
def signPlace : Nat := 9223372036854775808

/-- Takes a number apart; a subnormal keeps the least exponent and a normal number has the
hidden bit restored. -/
def Parts.ofFloat (v : Float) : Parts :=
  let bits := v.toBits.toNat
  let negative := decide (signPlace ≤ bits)
  let biased := bits / normalMantissa % 2048
  let fraction := bits % normalMantissa
  if biased = 2047 then
    if fraction = 0 then .infinite negative else .notANumber
  else if biased = 0 then .finite negative fraction leastExponent
  else .finite negative (normalMantissa + fraction) (leastExponent + (biased - 1 : Nat))

/-- A finite magnitude as an exact decimal: `coefficient / 10 ^ places`, where one unit in the
last place of the binary mantissa is `unit / 10 ^ places`. -/
structure Exact where
  coefficient : Nat
  unit : Nat
  places : Nat
deriving DecidableEq, Repr

/-- Every binary magnitude is an exact decimal, since `2 ^ -k = 5 ^ k / 10 ^ k`. -/
def Exact.ofBinary (mantissa : Nat) (exponent : Int) : Exact :=
  match exponent with
  | .ofNat k => ⟨mantissa * Nat.pow 2 k, Nat.pow 2 k, 0⟩
  | .negSucc k => ⟨mantissa * Nat.pow 5 (k + 1), Nat.pow 5 (k + 1), k + 1⟩

end PointScope.Decimal
