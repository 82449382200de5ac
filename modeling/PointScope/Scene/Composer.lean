import PointScope.Decimal.Fixed
import PointScope.Draw.Area
import PointScope.Draw.Label
import PointScope.Draw.Line
import PointScope.Scene.Style
import PointScope.View.Projection

/-!
Composition of a frame: the background, the three reference grids, the axes with their names and
then the points of the cloud in order, each with its coordinates as a label if the pointer is near
it. There is no depth: what is drawn later covers what was drawn before.
-/

namespace PointScope

structure Pointer where
  x : Float
  y : Float
deriving Repr

namespace Scene

/-- Whether a pixel is in the square around another that reaches `reach` to every side. -/
def isNear (pointer point : Pixel) (reach : Int) : Bool :=
  decide (((pointer.x - point.x).natAbs : Int) ≤ reach) &&
    decide (((pointer.y - point.y).natAbs : Int) ≤ reach)

/-- The label of a point: its coordinates to one place. -/
def coordinateLabel (p : Point) : String :=
  s!"({Decimal.fixed 1 p.x}, {Decimal.fixed 1 p.y}, {Decimal.fixed 1 p.z})"

/-! ### Grids -/

def latticeIndices (extent : Int) : List Int :=
  (List.range (2 * extent + 1).toNat).map fun (k : Nat) => (k : Int) - extent

/-- The pixel of a lattice point that lies inside the viewport. -/
def latticePixel? (view : Projection) (plane : GridPlane) (i j : Int) : Option Pixel :=
  (view.pixel? (plane.point i j)).filter view.viewport.contains

/-- The lines of a grid that begin at a lattice point, towards its two neighbours. A line is there
only if both its ends are. -/
def segmentsAt (view : Projection) (plane : GridPlane) (i j : Int) : List Draw.Line :=
  match latticePixel? view plane i j with
  | none => []
  | some start =>
    ([latticePixel? view plane (i + 1) j, latticePixel? view plane i (j + 1)].filterMap id).map
      fun stop => { start, stop }

/-- The lines of a grid in the order they are drawn. -/
def segments (view : Projection) (extent : Int) (plane : GridPlane) : List Draw.Line :=
  (latticeIndices extent).flatMap fun i =>
    (latticeIndices extent).flatMap fun j => segmentsAt view plane i j

def drawGrid (style : SceneStyle) (view : Projection) (f : Frame) (plane : GridPlane) : Frame :=
  (segments view style.gridExtent plane).foldl (fun f l => l.draw f (plane.tint style)) f

/-! ### Axes -/

structure Axis where
  name : Char
  tip : Point
  color : Rgba
  labelColor : Rgba

def axes (style : SceneStyle) : List Axis := [
  ⟨'X', ⟨style.axisLength, 0.0, 0.0⟩, style.axisColors.x, style.axisLabelColors.x⟩,
  ⟨'Y', ⟨0.0, style.axisLength, 0.0⟩, style.axisColors.y, style.axisLabelColors.y⟩,
  ⟨'Z', ⟨0.0, 0.0, style.axisLength⟩, style.axisColors.z, style.axisLabelColors.z⟩]

/-- Draws one axis from the pixel of the origin; its name stands beside the tip. -/
def drawAxis (style : SceneStyle) (view : Projection) (origin : Pixel) (f : Frame) (axis : Axis) :
    Frame :=
  match view.pixel? axis.tip with
  | none => f
  | some tip =>
    let line : Draw.Line := { start := origin, stop := tip }
    Draw.label (line.drawThick f style.axisThickness axis.color) [axis.name]
      ⟨Screen.saturate (tip.x + 5), Screen.saturate (tip.y - 5)⟩ axis.labelColor

/-- Draws the axes, if the origin has a place on the screen. -/
def drawAxes (style : SceneStyle) (view : Projection) (f : Frame) : Frame :=
  match view.pixel? Point.origin with
  | none => f
  | some origin => (axes style).foldl (drawAxis style view origin) f

/-! ### Points -/

def drawMarker (style : SceneStyle) (f : Frame) (at_ : Pixel) : Frame :=
  let border := Draw.disc f at_ (Screen.saturate (style.pointSize + 2)) style.borderColor
  Draw.disc border at_ style.pointSize style.pointColor

def labelCorner (style : SceneStyle) (at_ : Pixel) : Pixel :=
  ⟨Screen.saturate (Screen.saturate (at_.x + style.pointSize) + 5), Screen.saturate (at_.y - 5)⟩

/-- Draws a point that has a place on the screen, and its label if the pointer is near. -/
def drawPoint (style : SceneStyle) (view : Projection) (pointer : Option Pixel) (f : Frame)
    (p : Point) : Frame :=
  match view.pixel? p with
  | none => f
  | some at_ =>
    let marked := drawMarker style f at_
    match pointer with
    | none => marked
    | some near =>
      if isNear near at_ style.hoverBox then
        Draw.label marked (coordinateLabel p).toList (labelCorner style at_) style.labelColor
      else marked

/-! ### Frames -/

def pointerPixel (p : Pointer) : Pixel := ⟨Screen.truncate p.x, Screen.truncate p.y⟩

/-- Draws everything but the points. -/
def drawBase (style : SceneStyle) (view : Projection) (f : Frame) : Frame :=
  drawAxes style view (GridPlane.all.foldl (drawGrid style view) (f.clear style.background))

/-- Draws a scene over an existing frame, whose size is the viewport. -/
def composeInto (style : SceneStyle) (f : Frame) (cloud : Cloud) (view : Projection)
    (pointer : Option Pointer) : Frame :=
  let view := view.setViewport f.size
  cloud.foldl (drawPoint style view (pointer.map pointerPixel)) (drawBase style view f)

def compose (style : SceneStyle) (cloud : Cloud) (view : Projection) (viewport : Viewport)
    (pointer : Option Pointer) : Except FrameFault Frame :=
  (Frame.new? viewport.width viewport.height).map fun f => composeInto style f cloud view pointer

end Scene

end PointScope
