/-!
Colors with eight bits for each of red, green, blue and alpha.
-/

namespace PointScope

/-- A color. Alpha 255 covers what is underneath, alpha 0 leaves it. -/
structure Rgba where
  r : UInt8
  g : UInt8
  b : UInt8
  a : UInt8
deriving DecidableEq, Repr

namespace Rgba

def rgb (r g b : UInt8) : Rgba := ⟨r, g, b, 255⟩

def transparent : Rgba := ⟨0, 0, 0, 0⟩

def black : Rgba := rgb 0 0 0

def red : Rgba := rgb 255 0 0

def green : Rgba := rgb 0 255 0

def blue : Rgba := rgb 0 0 255

def withAlpha (c : Rgba) (a : UInt8) : Rgba := { c with a }

def isOpaque (c : Rgba) : Bool := c.a == 255

end Rgba

end PointScope
