import PointScope.Cloud.Basic
import PointScope.Expr.Formula
import PointScope.Grid.Basic

/-!
Sampling a surface over a grid. Each cell where the surface has a height gives one point, with the
height on the vertical axis; each cell where it has none is left out, and so sampling never fails.
-/

namespace PointScope

namespace Surface

/-- The point of a cell, if the surface has a height there. -/
def pointAt? (f : Surface) (x y : Float) : Option Point :=
  match f x y with
  | .ok z => some ⟨x, z, y⟩
  | .error _ => none

/-- The points of a surface over a grid, in the order of the visit. -/
def sample (f : Surface) (g : SampleGrid) : Cloud :=
  g.cells.filterMap fun (x, y) => f.pointAt? x y

/-- A cell without a height, and why. -/
structure Gap where
  x : Float
  y : Float
  cause : Expr.Error

/-- The cells of a grid where a surface has no height, in the order of the visit. -/
def gaps (f : Surface) (g : SampleGrid) : List Gap :=
  g.cells.filterMap fun (x, y) =>
    match f x y with
    | .ok _ => none
    | .error cause => some ⟨x, y, cause⟩

/-- Every cell is either a point or a gap. -/
theorem length_sample_add_gaps (f : Surface) (g : SampleGrid) :
    (f.sample g).length + (f.gaps g).length = g.cells.length := by
  unfold sample gaps
  induction g.cells with
  | nil => rfl
  | cons c cs ih =>
    obtain ⟨x, y⟩ := c
    simp only [pointAt?, List.filterMap_cons] at ih ⊢
    cases f x y <;> simp only [List.length_cons] <;> omega

end Surface

end PointScope
