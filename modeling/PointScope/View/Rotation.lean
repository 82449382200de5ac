import PointScope.Cloud.Basic

/-!
Rotation of space about the three axes, one after another. An angle enters only through its sine
and cosine, and the formulas use sums and products only, so they mean the same over doubles and
over exact numbers.
-/

namespace PointScope

structure Turn (α : Type) where
  sin : α
  cos : α
deriving Repr

def Turn.ofAngle (angle : Float) : Turn Float := ⟨angle.sin, angle.cos⟩

/-- Three turns, about the first, the second and the third axis. -/
structure Rotation (α : Type) where
  aboutX : Turn α
  aboutY : Turn α
  aboutZ : Turn α
deriving Repr

/-- Turns a point about the first axis, then the second, then the third. -/
@[inline] def Rotation.apply {α : Type} [Add α] [Sub α] [Mul α] [Neg α] (r : Rotation α)
    (p : Vec3 α) : Vec3 α :=
  let y₁ := p.y * r.aboutX.cos - p.z * r.aboutX.sin
  let z₁ := p.y * r.aboutX.sin + p.z * r.aboutX.cos
  let x₂ := p.x * r.aboutY.cos + z₁ * r.aboutY.sin
  let z₂ := -p.x * r.aboutY.sin + z₁ * r.aboutY.cos
  let x₃ := x₂ * r.aboutZ.cos - y₁ * r.aboutZ.sin
  let y₃ := x₂ * r.aboutZ.sin + y₁ * r.aboutZ.cos
  ⟨x₃, y₃, z₂⟩

end PointScope
