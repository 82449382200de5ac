import PointScope.View.Rotation
import Mathlib.LinearAlgebra.Matrix.Determinant.Basic
import Mathlib.Tactic.NormNum.Inv

/-! Rotations over exact numbers. The formulas by which a projection turns points of doubles are read over
any commutative ring, with a point of the unit circle for each sine and cosine. Each of the three turns is
then rigid, and so is the rotation. Nothing is said of the rounding of doubles. -/
namespace PointScope

variable {R : Type} [CommRing R]

namespace Vec3

def origin : Vec3 R := ⟨0, 0, 0⟩

def axisX : Vec3 R := ⟨1, 0, 0⟩

def axisY : Vec3 R := ⟨0, 1, 0⟩

def axisZ : Vec3 R := ⟨0, 0, 1⟩

def squaredDistance (p q : Vec3 R) : R := (q.x - p.x) ^ 2 + (q.y - p.y) ^ 2 + (q.z - p.z) ^ 2

/-- The determinant of three vectors, which is one for a right-handed frame of unit vectors and minus one
for its mirror image. -/
def determinant (a b c : Vec3 R) : R :=
  Matrix.det !![a.x, b.x, c.x; a.y, b.y, c.y; a.z, b.z, c.z]

theorem determinant_eq (a b c : Vec3 R) : a.determinant b c =
    a.x * (b.y * c.z - b.z * c.y) + a.y * (b.z * c.x - b.x * c.z) + a.z * (b.x * c.y - b.y * c.x) := by
  rw [determinant, Matrix.det_fin_three]
  simp only [Matrix.of_apply, Matrix.cons_val]
  ring

theorem determinant_axes : axisX.determinant axisY axisZ = (1 : R) := by
  rw [determinant_eq]
  simp only [axisX, axisY, axisZ]
  ring

/-- Renames the axes in a circle. -/
def cycle (p : Vec3 R) : Vec3 R := ⟨p.y, p.z, p.x⟩

end Vec3

/-! ### Rigid maps -/

/-- Maps of space that keep the origin, the distances and the hand of every three vectors. -/
structure IsRigid (f : Vec3 R → Vec3 R) : Prop where
  origin : f .origin = .origin
  distance : ∀ p q, (f p).squaredDistance (f q) = p.squaredDistance q
  hand : ∀ a b c, (f a).determinant (f b) (f c) = a.determinant b c

theorem IsRigid.comp {f g : Vec3 R → Vec3 R} (outer : IsRigid f) (inner : IsRigid g) :
    IsRigid (f ∘ g) where
  origin := by rw [Function.comp_apply, inner.origin, outer.origin]
  distance p q := by rw [Function.comp_apply, Function.comp_apply, outer.distance, inner.distance]
  hand a b c := by
    rw [Function.comp_apply, Function.comp_apply, Function.comp_apply, outer.hand, inner.hand]

theorem isRigid_cycle : IsRigid (Vec3.cycle (R := R)) where
  origin := rfl
  distance p q := by
    simp only [Vec3.squaredDistance, Vec3.cycle]
    ring
  hand a b c := by
    rw [Vec3.determinant_eq, Vec3.determinant_eq]
    simp only [Vec3.cycle]
    ring

/-! ### Turns -/

namespace Turn

variable {t : Turn R}

/-- The turn has the sine and the cosine of some angle. -/
def OnCircle (t : Turn R) : Prop := t.sin ^ 2 + t.cos ^ 2 = 1

/-- Turns a point about the first axis. -/
def about (t : Turn R) (p : Vec3 R) : Vec3 R :=
  ⟨p.x, p.y * t.cos - p.z * t.sin, p.y * t.sin + p.z * t.cos⟩

theorem isRigid_about (circle : t.OnCircle) : IsRigid t.about where
  origin := by
    simp only [about, Vec3.origin, Vec3.mk.injEq]
    refine ⟨trivial, ?_, ?_⟩ <;> ring
  distance p q := by
    calc (t.about p).squaredDistance (t.about q)
        = (q.x - p.x) ^ 2 + (t.sin ^ 2 + t.cos ^ 2) * ((q.y - p.y) ^ 2 + (q.z - p.z) ^ 2) := by
          simp only [Vec3.squaredDistance, about]
          ring
      _ = p.squaredDistance q := by rw [circle, one_mul, ← add_assoc, Vec3.squaredDistance]
  hand a b c := by
    calc (t.about a).determinant (t.about b) (t.about c)
        = (t.sin ^ 2 + t.cos ^ 2) * a.determinant b c := by
          rw [Vec3.determinant_eq, Vec3.determinant_eq]
          simp only [about]
          ring
      _ = a.determinant b c := by rw [circle, one_mul]

end Turn

/-! ### Rotations -/

namespace Rotation

variable {r : Rotation R}

/-- A rotation is, three times, a turn about the first axis and a renaming of the axes in a circle. In the
end all axes have their own names again. -/
theorem apply_eq (r : Rotation R) : r.apply =
    (Vec3.cycle ∘ r.aboutZ.about) ∘ (Vec3.cycle ∘ r.aboutY.about) ∘ Vec3.cycle ∘ r.aboutX.about := by
  funext p
  simp only [apply, Function.comp_apply, Turn.about, Vec3.cycle, Vec3.mk.injEq]
  refine ⟨?_, ?_, ?_⟩ <;> ring

theorem isRigid_apply (onX : r.aboutX.OnCircle) (onY : r.aboutY.OnCircle) (onZ : r.aboutZ.OnCircle) :
    IsRigid r.apply := by
  have renamed : ∀ {t : Turn R}, t.OnCircle → IsRigid (Vec3.cycle ∘ t.about) := by
    intro t circle
    exact isRigid_cycle.comp (Turn.isRigid_about circle)
  rw [apply_eq]
  exact (renamed onZ).comp ((renamed onY).comp (renamed onX))

/-- Whatever the sines and cosines of its three turns are, a rotation keeps the distance of every two
points and the origin, and it takes the unit axes to a right-handed frame: none of them is mirrored. -/
theorem apply_rigid (r : Rotation R) (onX : r.aboutX.OnCircle) (onY : r.aboutY.OnCircle)
    (onZ : r.aboutZ.OnCircle) :
    (∀ p q, (r.apply p).squaredDistance (r.apply q) = p.squaredDistance q) ∧
      r.apply .origin = .origin ∧
      (r.apply .axisX).determinant (r.apply .axisY) (r.apply .axisZ) = 1 := by
  have rigid := isRigid_apply onX onY onZ
  refine ⟨rigid.distance, rigid.origin, ?_⟩
  rw [rigid.hand]
  exact Vec3.determinant_axes

/-- Three rational turns, the second one backwards. -/
theorem apply_rigid_rational :
    let r : Rotation ℚ := ⟨⟨3 / 5, 4 / 5⟩, ⟨-5 / 13, 12 / 13⟩, ⟨15 / 17, -8 / 17⟩⟩
    (r.aboutX.OnCircle ∧ r.aboutY.OnCircle ∧ r.aboutZ.OnCircle) ∧
      (r.apply ⟨1, 2, 3⟩).squaredDistance (r.apply ⟨3, 0, 2⟩) = 9 ∧
      r.apply .origin = .origin ∧
      (r.apply .axisX).determinant (r.apply .axisY) (r.apply .axisZ) = 1 := by
  intro r
  have onX : r.aboutX.OnCircle := by norm_num [r, Turn.OnCircle]
  have onY : r.aboutY.OnCircle := by norm_num [r, Turn.OnCircle]
  have onZ : r.aboutZ.OnCircle := by norm_num [r, Turn.OnCircle]
  obtain ⟨distance, origin, frame⟩ := r.apply_rigid onX onY onZ
  refine ⟨⟨onX, onY, onZ⟩, ?_, origin, frame⟩
  rw [distance]
  norm_num [Vec3.squaredDistance]

end Rotation

end PointScope
