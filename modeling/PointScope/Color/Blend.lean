import PointScope.Color.Basic

/-!
Laying one color over another, in single precision and rounded once per channel.
-/

namespace PointScope

/-- The byte nearest to a number: halves go up, what is below zero or not a number gives zero and
what is above 255 gives 255. -/
def nearestByte (v : Float32) : UInt8 :=
  if 255.0 ≤ v then 255
  else
    let whole := v.toUInt8
    if 0.5 ≤ v - whole.toFloat32 then whole + 1 else whole

namespace Rgba

/-- A channel as a number from zero to one. -/
def unit (n : UInt8) : Float32 := n.toFloat32 / 255.0

/-- One channel of a color laid over another; the last argument is the alpha of the result. -/
def overChannel (top bottom : UInt8) (topAlpha bottomAlpha alpha : Float32) : UInt8 :=
  nearestByte
    ((unit top * topAlpha + unit bottom * bottomAlpha * (1.0 - topAlpha)) / alpha * 255.0)

/-- The color `top` laid over the color `bottom`. Where both are fully transparent the color
below stays. -/
def onto (top bottom : Rgba) : Rgba :=
  let topAlpha := unit top.a
  let bottomAlpha := unit bottom.a
  let alpha := topAlpha + bottomAlpha * (1.0 - topAlpha)
  if 0.0 < alpha then
    { r := overChannel top.r bottom.r topAlpha bottomAlpha alpha
      g := overChannel top.g bottom.g topAlpha bottomAlpha alpha
      b := overChannel top.b bottom.b topAlpha bottomAlpha alpha
      a := nearestByte (alpha * 255.0) }
  else bottom

end Rgba

end PointScope
