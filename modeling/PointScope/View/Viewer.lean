import PointScope.Scene.Composer

/-!
An interactive view: the cloud, how it is looked at, and where the pointer is. Every event gives
the next state; nothing is drawn until a frame is asked for.

A drag turns the view, or moves it if the secondary button or the Alt key was down when it began.
While the rotate key is down, dragging and scrolling turn the view.
-/

namespace PointScope

inductive PointerButton where
  | primary
  | secondary
  | tertiary
deriving DecidableEq, Repr

structure Modifiers where
  alt : Bool := false
  shift : Bool := false
  ctrl : Bool := false
deriving DecidableEq, Repr

inductive DragMode where
  | rotate
  | pan
deriving DecidableEq, Repr

structure Drag where
  mode : DragMode
  last : Pointer
deriving Repr

structure Viewer where
  cloud : Cloud
  projection : Projection
  style : SceneStyle
  hover : Option Pointer
  drag : Option Drag
  rotateKey : Bool

namespace Viewer

def new (cloud : Cloud) (style : SceneStyle) : Viewer :=
  { cloud, projection := .default, style, hover := none, drag := none, rotateKey := false }

def dragMode? (v : Viewer) : Option DragMode := v.drag.map Drag.mode

def modeOf (v : Viewer) (button : PointerButton) (held : Modifiers) : DragMode :=
  if v.rotateKey then .rotate
  else if button = .secondary ∨ held.alt then .pan
  else .rotate

def pointerDown (v : Viewer) (button : PointerButton) (held : Modifiers) (at_ : Pointer) : Viewer :=
  { v with drag := some { mode := v.modeOf button held, last := at_ } }

def pointerMoved (v : Viewer) (at_ : Pointer) : Viewer :=
  match v.drag with
  | none => { v with hover := some at_ }
  | some drag =>
    let dx := at_.x - drag.last.x
    let dy := at_.y - drag.last.y
    { v with
      hover := some at_
      drag := some { drag with last := at_ }
      projection :=
        if v.rotateKey ∨ drag.mode = .rotate then v.projection.rotateBy dx dy
        else v.projection.panBy dx dy }

def pointerUp (v : Viewer) : Viewer := { v with drag := none }

def pointerLeft (v : Viewer) : Viewer := { v with hover := none }

def scrolled (v : Viewer) (dx dy : Float) : Viewer :=
  if v.rotateKey then { v with projection := v.projection.rotateByScroll dx dy }
  else if dy < 0.0 then { v with projection := v.projection.zoomOut }
  else if 0.0 < dy then { v with projection := v.projection.zoomIn }
  else v

def setRotateKey (v : Viewer) (held : Bool) : Viewer := { v with rotateKey := held }

/-- Back to the straight view. -/
def resetView (v : Viewer) : Viewer := { v with projection := v.projection.reset }

/-- Shows another cloud, straight. -/
def replaceCloud (v : Viewer) (cloud : Cloud) : Viewer := { v with cloud }.resetView

/-- Draws a frame. The view takes the size of a frame that was drawn; if there is none, nothing
changes. -/
def render (v : Viewer) (viewport : Viewport) : Viewer × Except FrameFault Frame :=
  match Scene.compose v.style v.cloud v.projection viewport v.hover with
  | .error e => (v, .error e)
  | .ok f => ({ v with projection := v.projection.setViewport viewport }, .ok f)

end Viewer

end PointScope
