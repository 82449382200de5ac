/-!
Positional decimal text of the number `coefficient / 10 ^ places`: no exponent, and a point only
where a fraction follows.
-/

namespace PointScope.Decimal

def digits (n : Nat) : List Char := Nat.toDigits 10 n

/-- The last `places` digits of a number, with zeros in front where it is shorter. -/
def fraction (places n : Nat) : List Char :=
  let ds := digits (n % Nat.pow 10 places)
  List.replicate (places - ds.length) '0' ++ ds

/-- Text with as many places as the number needs. -/
def plain (coefficient places : Nat) : List Char :=
  let whole := digits (coefficient / Nat.pow 10 places)
  let rest := if places = 0 then [] else
    ((fraction places coefficient).reverse.dropWhile (· == '0')).reverse
  if rest.isEmpty then whole else whole ++ '.' :: rest

/-- Text with exactly the given places. -/
def padded (coefficient places : Nat) : List Char :=
  let whole := digits (coefficient / Nat.pow 10 places)
  if places = 0 then whole else whole ++ '.' :: fraction places coefficient

def signed (negative : Bool) (text : List Char) : List Char :=
  if negative then '-' :: text else text

end PointScope.Decimal
