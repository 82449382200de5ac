import PointScope.Decimal.Reader

/-!
Numbers as YAML writes them. Whole numbers may be hexadecimal, octal or binary, with `0x`, `0o` or
`0b` in front, and a decimal one of several digits does not begin with zero. Numbers that may have
a fraction are always decimal, and there are names for those that are not finite.
-/

namespace PointScope.Yaml

def digitValue? (base : Nat) (ch : Char) : Option Nat :=
  let n := ch.toNat
  let value :=
    if 48 ≤ n ∧ n ≤ 57 then n - 48
    else if 97 ≤ n ∧ n ≤ 102 then n - 87
    else if 65 ≤ n ∧ n ≤ 70 then n - 55
    else base
  if value < base then some value else none

/-- The value of digits, of which there has to be one at least. -/
def naturalOf? (base : Nat) (ds : List Char) : Option Nat :=
  if ds.isEmpty then none
  else ds.foldl (fun n d => n.bind fun n => (digitValue? base d).map (base * n + ·)) (some 0)

/-- The value of digits behind the mark of their base, or of decimal ones without. -/
def magnitude? : List Char → Option Nat
  | '0' :: 'x' :: ds => naturalOf? 16 ds
  | '0' :: 'o' :: ds => naturalOf? 8 ds
  | '0' :: 'b' :: ds => naturalOf? 2 ds
  | ['0'] => some 0
  | '0' :: _ => none
  | ds => naturalOf? 10 ds

/-- Reads a whole number that is not negative and fits in 64 bits. -/
def unsigned? (s : List Char) : Option Nat :=
  let digits :=
    match s with
    | '+' :: rest => rest
    | _ => s
  (magnitude? digits).filter (· < UInt64.size)

/-- Reads a whole number that fits in 64 bits with a sign. -/
def signed? (s : List Char) : Option Int :=
  let value : Option Int :=
    match s with
    | '+' :: rest => (magnitude? rest).map Int.ofNat
    | '-' :: rest => (magnitude? rest).map fun n => -(n : Int)
    | _ => (magnitude? s).map Int.ofNat
  value.filter fun n => decide (-9223372036854775808 ≤ n) && decide (n ≤ 9223372036854775807)

def nonFinite? (s : List Char) : Option Float :=
  let infinities := [".inf", ".Inf", ".INF"].map String.toList
  if infinities.contains s || infinities.contains (s.drop 1) && s.head? == some '+' then
    some (1.0 / 0.0)
  else if infinities.contains (s.drop 1) && s.head? == some '-' then some (-1.0 / 0.0)
  else if ([".nan", ".NaN", ".NAN"].map String.toList).contains s then some (0.0 / 0.0)
  else none

/-- Reads a number. A decimal too large to be finite is none. -/
def float? (s : List Char) : Option Float :=
  (nonFinite? s).or ((Decimal.read? s).filter Float.isFinite)

end PointScope.Yaml
