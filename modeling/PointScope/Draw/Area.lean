import PointScope.Frame.Basic

/-!
Filled rectangles and discs. Both are painted row by row, each row as one span that is cut to the
frame, so every pixel of the area is painted once.
-/

namespace PointScope.Draw

/-! ### Square roots -/

/-- The greatest number up to a guess whose square is at most `v`. -/
def lowered (v : Nat) : Nat → Nat
  | 0 => 0
  | s + 1 => if v < (s + 1) * (s + 1) then lowered v s else s + 1

/-- The first number from `s` on whose successor has a square above `v`. -/
def raised (v s : Nat) : Nat := if (s + 1) * (s + 1) ≤ v then raised v (s + 1) else s
termination_by v - s
decreasing_by
  have : s + 1 ≤ (s + 1) * (s + 1) := Nat.le_mul_self _
  omega

/-- The whole part of the square root of `v`, corrected from a guess. -/
def rootFrom (guess v : Nat) : Nat := raised v (lowered v guess)

/-- The whole part of a square root. The guess is the root in double precision, which is near but
not always right. -/
def root (v : Nat) : Nat := rootFrom (Float.sqrt (UInt64.ofNat v).toFloat).toUInt64.toNat v

/-! ### Areas -/

/-- Paints the pixels of a row from one column to another, both included, cut to the frame. A color
that covers what is underneath is written as a rectangle of one row. -/
def span (f : Frame) (row : Nat) (first last : Int) (c : Rgba) : Frame :=
  let lo := (max first 0).toNat
  let hi := min last ((f.width.toNat : Int) - 1)
  let length := (hi + 1 - lo).toNat
  if c.isOpaque then f.fillRect lo row length 1 c
  else (List.range' lo length).foldl (fun f column => f.blend column row c) f

/-- The rows from one to another, the second not included, that a frame has and that are pixel
coordinates. -/
def rowsOf (f : Frame) (first beyond : Int) : List Nat :=
  let lo := (max first 0).toNat
  let hi := min (min beyond f.height.toNat) (Screen.greatest + 1)
  List.range' lo (hi - lo).toNat

def rect (f : Frame) (x y : Int) (w h : Nat) (c : Rgba) : Frame :=
  (rowsOf f y (y + h)).foldl (fun f row => span f row x (x + w - 1) c) f

/-- Paints a disc: all pixels whose distance from the center is at most the radius. A negative
radius has no pixels. -/
def disc (f : Frame) (center : Pixel) (radius : Int) (c : Rgba) : Frame :=
  if radius < 0 then f
  else
    (rowsOf f (center.y - radius) (center.y + radius + 1)).foldl
      (fun f (row : Nat) =>
        let dy := (row : Int) - center.y
        let half := root (radius * radius - dy * dy).toNat
        span f row (center.x - half) (center.x + half) c) f

end PointScope.Draw
