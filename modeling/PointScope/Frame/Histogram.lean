import Std.Data.HashMap
import PointScope.Frame.Reading

/-!
How often each color occurs in a frame.
-/

namespace PointScope.Frame

/-- A color as one number; colors are ordered by it. -/
def colorKey (c : Rgba) : Nat :=
  ((c.r.toNat * 256 + c.g.toNat) * 256 + c.b.toNat) * 256 + c.a.toNat

/-- The colors of a frame with their numbers of pixels, the most frequent one first and those of
one frequency in the order of their channels. -/
def histogram (f : Frame) : List (Rgba × Nat) :=
  let counts : Std.HashMap Nat (Rgba × Nat) := f.colors.foldl
    (fun m c => m.alter (colorKey c) fun old => some (c, (old.map Prod.snd).getD 0 + 1)) ∅
  counts.valuesArray.toList.mergeSort fun a b =>
    decide (b.2 < a.2) || (a.2 == b.2 && decide (colorKey a.1 ≤ colorKey b.1))

end PointScope.Frame
