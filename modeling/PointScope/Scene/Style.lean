import PointScope.Cloud.Basic
import PointScope.Color.Basic
import PointScope.Screen.Basic

/-!
What a scene looks like: colors, sizes and the reference planes.
-/

namespace PointScope

structure PerAxis (α : Type) where
  x : α
  y : α
  z : α
deriving DecidableEq, Repr

structure SceneStyle where
  /-- The radius of a point; its border reaches two pixels further. -/
  pointSize : Int
  background : Rgba
  pointColor : Rgba
  borderColor : Rgba
  labelColor : Rgba
  floorGrid : Rgba
  xyGrid : Rgba
  yzGrid : Rgba
  /-- The grids reach from minus to plus this number of units. -/
  gridExtent : Int
  axisLength : Float
  axisThickness : Nat
  axisColors : PerAxis Rgba
  axisLabelColors : PerAxis Rgba
deriving Repr

namespace SceneStyle

def maxGridExtent : Int := 100

def maxPointSize : Int := 200

def maxAxisThickness : Nat := 32

def default : SceneStyle :=
  { pointSize := 10
    background := .rgb 240 240 240
    pointColor := .rgb 30 144 255
    borderColor := .black
    labelColor := .rgb 50 50 50
    floorGrid := ⟨180, 180, 180, 160⟩
    xyGrid := ⟨180, 180, 220, 120⟩
    yzGrid := ⟨220, 180, 180, 120⟩
    gridExtent := 5
    axisLength := 2.0
    axisThickness := 3
    axisColors := ⟨.rgb 255 50 50, .rgb 50 255 50, .rgb 50 50 255⟩
    axisLabelColors := ⟨.red, .green, .blue⟩ }

/-- How near the pointer has to come to a point, along both axes, for its label to show. -/
def hoverBox (s : SceneStyle) : Int := Screen.saturate (s.pointSize * 5)

end SceneStyle

inductive GridPlane where
  /-- The floor. -/
  | xz
  /-- The back wall. -/
  | xy
  /-- The side wall. -/
  | yz
deriving DecidableEq, Repr

namespace GridPlane

/-- All planes in the order they are drawn. -/
def all : List GridPlane := [.xz, .xy, .yz]

def point (plane : GridPlane) (i j : Int) : Point :=
  let u := Float.ofInt i
  let v := Float.ofInt j
  match plane with
  | .xz => ⟨u, 0.0, v⟩
  | .xy => ⟨u, v, 0.0⟩
  | .yz => ⟨0.0, u, v⟩

def tint (plane : GridPlane) (style : SceneStyle) : Rgba :=
  match plane with
  | .xz => style.floorGrid
  | .xy => style.xyGrid
  | .yz => style.yzGrid

end GridPlane

end PointScope
