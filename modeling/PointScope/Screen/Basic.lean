/-!
Positions on the screen. The origin is the upper left corner and `y` grows downwards. Pixel
coordinates are signed words of 32 bits: whatever would leave their range stops at its end.
-/

namespace PointScope

namespace Screen

def least : Int := -2147483648

def greatest : Int := 2147483647

def saturate (n : Int) : Int := max least (min greatest n)

theorem least_le_saturate (n : Int) : least ≤ saturate n := by
  simp only [saturate, least, greatest]; omega

theorem saturate_le_greatest (n : Int) : saturate n ≤ greatest := by
  simp only [saturate, least, greatest]; omega

theorem saturate_of_mem {n : Int} (lo : least ≤ n) (hi : n ≤ greatest) : saturate n = n := by
  simp only [saturate, least, greatest] at *; omega

/-- Cuts a number off at the point and stops at the ends of the range of pixel coordinates; not a
number gives zero. -/
def truncate (v : Float) : Int :=
  if v < 0.0 then -(min (-v).toUInt32.toNat 2147483648 : Nat)
  else (min v.toUInt32.toNat 2147483647 : Nat)

end Screen

structure Pixel where
  x : Int
  y : Int
deriving DecidableEq, Repr

/-- A projected position, in pixels but not yet cut to one. -/
structure ScreenPoint where
  x : Float
  y : Float
deriving Repr

namespace ScreenPoint

def isFinite (s : ScreenPoint) : Bool := s.x.isFinite && s.y.isFinite

def toPixel (s : ScreenPoint) : Pixel := ⟨Screen.truncate s.x, Screen.truncate s.y⟩

/-- The pixel of a position that has one. -/
def pixel? (s : ScreenPoint) : Option Pixel := if s.isFinite then some s.toPixel else none

end ScreenPoint

structure Viewport where
  width : UInt32
  height : UInt32
deriving DecidableEq, Repr

namespace Viewport

def default : Viewport := ⟨800, 600⟩

def contains (v : Viewport) (p : Pixel) : Bool :=
  decide (0 ≤ p.x) && decide (0 ≤ p.y) && decide (p.x < v.width.toNat) &&
    decide (p.y < v.height.toNat)

end Viewport

end PointScope
