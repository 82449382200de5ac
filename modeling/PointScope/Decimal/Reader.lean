import PointScope.Decimal.Nearest

/-!
Reading a decimal number: an optional sign, then digits with at most one point and at least one
digit, then an optional exponent; or, in any case, `inf`, `infinity` or `nan`. The whole text has
to be used up. The value is rounded correctly.
-/

namespace PointScope.Decimal

def naturalOf (ds : List Char) : Nat :=
  ds.foldl (fun n d => 10 * n + (d.toNat - '0'.toNat)) 0

/-- Takes an optional sign off the front; true stands for a minus. -/
def splitSign : List Char → Bool × List Char
  | '-' :: s => (true, s)
  | '+' :: s => (false, s)
  | s => (false, s)

/-- Reads an exponent part that has to be the whole text; an empty text is the exponent zero. -/
def exponent? : List Char → Option Int
  | [] => some 0
  | mark :: s =>
    if mark = 'e' ∨ mark = 'E' then
      let (negative, ds) := splitSign s
      if ds.isEmpty || !ds.all Char.isDigit then none
      else some (if negative then -(naturalOf ds : Int) else naturalOf ds)
    else none

def magnitude? (s : List Char) : Option Float :=
  let whole := s.takeWhile Char.isDigit
  let afterWhole := s.dropWhile Char.isDigit
  let (places, rest) := match afterWhole with
    | '.' :: t => (t.takeWhile Char.isDigit, t.dropWhile Char.isDigit)
    | t => ([], t)
  if whole.isEmpty && places.isEmpty then none
  else (exponent? rest).map fun e =>
    nearest (naturalOf (whole ++ places)) (e - places.length)

/-- Reads the name of a magnitude that has no digits. -/
def named? (s : List Char) : Option Float :=
  let name := s.map Char.toLower
  if name = ['i', 'n', 'f'] ∨ name = ['i', 'n', 'f', 'i', 'n', 'i', 't', 'y'] then some (1.0 / 0.0)
  else if name = ['n', 'a', 'n'] then some (0.0 / 0.0)
  else none

def read? (s : List Char) : Option Float :=
  let (negative, rest) := splitSign s
  ((magnitude? rest).or (named? rest)).map fun v => if negative then -v else v

end PointScope.Decimal
