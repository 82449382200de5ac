import PointScope.Screen.Basic
import PointScope.View.Rotation

/-!
The view of space on the screen: a rotation, a perspective, a scale and an offset from the middle
of the viewport. The scale stays in its range whatever is asked of it.
-/

namespace PointScope

/-- How a view looks at space. Angles are in radians, the offset is in pixels. -/
structure Projection where
  rotationX : Float
  rotationY : Float
  rotationZ : Float
  scale : Float
  offsetX : Float
  offsetY : Float
  viewport : Viewport
deriving BEq, Repr

namespace Projection

/-- The distance from the eye to the origin. -/
def eyeDistance : Float := 600.0

def minScale : Float := 5.0

def maxScale : Float := 500.0

def defaultScale : Float := 50.0

def zoomStep : Float := 1.1

/-- The angle that one pixel of a drag turns by. -/
def dragAngle : Float := 0.01

/-- The angle that one unit of scrolling turns by. -/
def scrollAngle : Float := 0.1

/-- The view that looks straight at the origin. -/
def new (viewport : Viewport) : Projection :=
  { rotationX := 0.0, rotationY := 0.0, rotationZ := 0.0
    scale := defaultScale, offsetX := 0.0, offsetY := 0.0, viewport }

def default : Projection := new .default

def setRotation (p : Projection) (x y z : Float) : Projection :=
  { p with rotationX := x, rotationY := y, rotationZ := z }

/-- The scale in range that is nearest to a number. -/
def clampScale (s : Float) : Float :=
  if s < minScale then minScale else if maxScale < s then maxScale else s

/-- Sets the scale to the nearest one in range; not a number leaves it. -/
def setScale (p : Projection) (s : Float) : Projection :=
  if s.isNaN then p else { p with scale := clampScale s }

def setOffset (p : Projection) (x y : Float) : Projection := { p with offsetX := x, offsetY := y }

def setViewport (p : Projection) (viewport : Viewport) : Projection := { p with viewport }

/-- Turns by a drag: along the screen about the second axis, across it about the first. -/
def rotateBy (p : Projection) (dx dy : Float) : Projection :=
  { p with rotationX := p.rotationX + dy * dragAngle, rotationY := p.rotationY + dx * dragAngle }

/-- Turns by scrolling, about the same axes as a drag. -/
def rotateByScroll (p : Projection) (dx dy : Float) : Projection :=
  { p with
    rotationX := p.rotationX + dy * scrollAngle
    rotationY := p.rotationY + dx * scrollAngle }

def panBy (p : Projection) (dx dy : Float) : Projection :=
  { p with offsetX := p.offsetX + dx, offsetY := p.offsetY + dy }

def zoomBy (p : Projection) (factor : Float) : Projection := p.setScale (p.scale * factor)

def zoomIn (p : Projection) : Projection := p.zoomBy zoomStep

def zoomOut (p : Projection) : Projection := p.zoomBy (1.0 / zoomStep)

/-- Back to the straight view, on the same viewport. -/
def reset (p : Projection) : Projection := new p.viewport

def rotation (p : Projection) : Rotation Float :=
  ⟨.ofAngle p.rotationX, .ofAngle p.rotationY, .ofAngle p.rotationZ⟩

def rotate (p : Projection) (v : Point) : Point := p.rotation.apply v

/-- Where a point is on the screen. A point at the eye has no finite place there. -/
def project (p : Projection) (v : Point) : ScreenPoint :=
  let turned := p.rotate v
  let perspective := eyeDistance / (eyeDistance + turned.z)
  let factor := p.scale * perspective
  { x := p.viewport.width.toFloat / 2.0 + turned.x * factor + p.offsetX
    y := p.viewport.height.toFloat / 2.0 + turned.y * factor + p.offsetY }

/-- The pixel of a point, if it has a finite place on the screen. -/
def pixel? (p : Projection) (v : Point) : Option Pixel := (p.project v).pixel?

end Projection

end PointScope
