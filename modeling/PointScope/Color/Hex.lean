import PointScope.Color.Basic
import PointScope.Text.Blank

/-!
Colors as hexadecimal text, `#rrggbb` or `#rrggbbaa`. Reading is lenient at the front: blanks
around the text and any number of `#` are skipped, digits may be of either case, and the first
digit of a pair may be written as a plus sign, which counts as zero. Writing gives the short form
exactly for the colors that cover what is underneath.
-/

namespace PointScope.Rgba

def digitValue? (c : Char) : Option UInt8 :=
  let n := c.toNat
  if 48 ≤ n ∧ n ≤ 57 then some (n - 48).toUInt8
  else if 97 ≤ n ∧ n ≤ 102 then some (n - 87).toUInt8
  else if 65 ≤ n ∧ n ≤ 70 then some (n - 55).toUInt8
  else none

def channel? (high low : Char) : Option UInt8 :=
  if high = '+' then digitValue? low
  else
    match digitValue? high, digitValue? low with
    | some h, some l => some (16 * h + l)
    | _, _ => none

def ofDigits? : List Char → Option Rgba
  | [r₁, r₂, g₁, g₂, b₁, b₂] => do
    let r ← channel? r₁ r₂
    let g ← channel? g₁ g₂
    let b ← channel? b₁ b₂
    return rgb r g b
  | [r₁, r₂, g₁, g₂, b₁, b₂, a₁, a₂] => do
    let r ← channel? r₁ r₂
    let g ← channel? g₁ g₂
    let b ← channel? b₁ b₂
    let a ← channel? a₁ a₂
    return ⟨r, g, b, a⟩
  | _ => none

def ofHex? (text : String) : Option Rgba :=
  ofDigits? ((Text.trim text.toList).dropWhile (· == '#'))

def digit (n : UInt8) : Char :=
  Char.ofNat (if n < 10 then 48 + n.toNat else 87 + n.toNat)

def pair (n : UInt8) : List Char := [digit (n / 16), digit (n % 16)]

def toHex (c : Rgba) : String :=
  String.ofList ('#' :: (pair c.r ++ pair c.g ++ pair c.b ++ if c.isOpaque then [] else pair c.a))

end PointScope.Rgba
