import PointScope.Proofs.Draw.Access
import PointScope.Proofs.Scene.Redraw

/-! Accesses of scenes, and what every sequence of drawings keeps. Whatever is drawn with whatever
arguments, a frame stays laid out as it was made, all accesses are to bytes of its buffer, and its
bytes say no more than its pixels. -/
namespace PointScope

open PointScope.Frame

namespace Scene

variable {f : Frame}

/-! ### Everything but the points -/

def drawGrid? (style : SceneStyle) (view : Projection) (f : Frame) (plane : GridPlane) :
    Option Frame :=
  (segments view style.gridExtent plane).foldlM (fun f l => l.draw? f (plane.tint style)) f

def drawAxis? (style : SceneStyle) (view : Projection) (origin : Pixel) (f : Frame) (axis : Axis) :
    Option Frame :=
  match view.pixel? axis.tip with
  | none => some f
  | some tip => do
    let line : Draw.Line := { start := origin, stop := tip }
    let drawn ← line.drawThick? f style.axisThickness axis.color
    Draw.label? drawn [axis.name] ⟨Screen.saturate (tip.x + 5), Screen.saturate (tip.y - 5)⟩
      axis.labelColor

def drawAxes? (style : SceneStyle) (view : Projection) (f : Frame) : Option Frame :=
  match view.pixel? Point.origin with
  | none => some f
  | some origin => (axes style).foldlM (drawAxis? style view origin) f

def drawBase? (style : SceneStyle) (view : Projection) (f : Frame) : Option Frame := do
  let cleared ← f.clear? style.background
  let walls ← GridPlane.all.foldlM (drawGrid? style view) cleared
  drawAxes? style view walls

theorem drawGrid?_eq_some (whole : f.Whole) (style : SceneStyle) (view : Projection)
    (plane : GridPlane) : drawGrid? style view f plane = some (drawGrid style view f plane) :=
  whole.foldlM (fun f l => l.alike_draw f (plane.tint style))
    (fun _ whole l => l.draw?_eq_some whole (plane.tint style)) _

theorem drawAxis?_eq_some (whole : f.Whole) (style : SceneStyle) (view : Projection)
    (origin : Pixel) (axis : Axis) :
    drawAxis? style view origin f axis = some (drawAxis style view origin f axis) := by
  simp only [drawAxis?, drawAxis]
  cases view.pixel? axis.tip with
  | none => rfl
  | some tip =>
    simp only [Draw.Line.drawThick?_eq_some whole, Option.bind_eq_bind, Option.bind_some]
    exact Draw.label?_eq_some ((Draw.Line.alike_drawThick _ f _ _).whole whole) _ _ _

theorem drawAxes?_eq_some (whole : f.Whole) (style : SceneStyle) (view : Projection) :
    drawAxes? style view f = some (drawAxes style view f) := by
  simp only [drawAxes?, drawAxes]
  cases view.pixel? Point.origin with
  | none => rfl
  | some origin =>
    exact whole.foldlM (alike_drawAxis style view origin)
      (fun _ whole axis => drawAxis?_eq_some whole style view origin axis) _

theorem drawBase?_eq_some (whole : f.Whole) (style : SceneStyle) (view : Projection) :
    drawBase? style view f = some (drawBase style view f) := by
  have cleared := (f.alike_clear style.background).whole whole
  have walls := cleared.foldlM (alike_drawGrid style view)
    (fun _ whole plane => drawGrid?_eq_some whole style view plane) GridPlane.all
  have alike_walls := Alike.foldl (alike_drawGrid style view) GridPlane.all
    (f.clear style.background)
  simp only [drawBase?, clear?_eq_some whole, Option.bind_eq_bind, Option.bind_some, walls]
  exact drawAxes?_eq_some (alike_walls.whole cleared) style view

/-! ### Points -/

def drawMarker? (style : SceneStyle) (f : Frame) (at_ : Pixel) : Option Frame := do
  let border ← Draw.disc? f at_ (Screen.saturate (style.pointSize + 2)) style.borderColor
  Draw.disc? border at_ style.pointSize style.pointColor

def drawPoint? (style : SceneStyle) (view : Projection) (pointer : Option Pixel) (f : Frame)
    (p : Point) : Option Frame :=
  match view.pixel? p with
  | none => some f
  | some at_ => do
    let marked ← drawMarker? style f at_
    match pointer with
    | none => some marked
    | some near =>
      if isNear near at_ style.hoverBox then
        Draw.label? marked (coordinateLabel p).toList (labelCorner style at_) style.labelColor
      else some marked

def composeInto? (style : SceneStyle) (f : Frame) (cloud : Cloud) (view : Projection)
    (pointer : Option Pointer) : Option Frame := do
  let view := view.setViewport f.size
  let base ← drawBase? style view f
  cloud.foldlM (drawPoint? style view (pointer.map pointerPixel)) base

theorem drawMarker?_eq_some (whole : f.Whole) (style : SceneStyle) (at_ : Pixel) :
    drawMarker? style f at_ = some (drawMarker style f at_) := by
  simp only [drawMarker?, drawMarker, Draw.disc?_eq_some whole]
  exact Draw.disc?_eq_some ((Draw.alike_disc f _ _ _).whole whole) _ _ _

theorem drawPoint?_eq_some (whole : f.Whole) (style : SceneStyle) (view : Projection)
    (pointer : Option Pixel) (p : Point) :
    drawPoint? style view pointer f p = some (drawPoint style view pointer f p) := by
  simp only [drawPoint?, drawPoint]
  cases view.pixel? p with
  | none => rfl
  | some at_ =>
    have marked := (alike_drawMarker style f at_).whole whole
    simp only [drawMarker?_eq_some whole, Option.bind_eq_bind, Option.bind_some]
    cases pointer with
    | none => rfl
    | some near =>
      dsimp only
      split
      · exact Draw.label?_eq_some marked _ _ _
      · rfl

theorem composeInto?_eq_some (whole : f.Whole) (style : SceneStyle) (cloud : Cloud)
    (view : Projection) (pointer : Option Pointer) :
    composeInto? style f cloud view pointer = some (composeInto style f cloud view pointer) := by
  have base := (alike_drawBase style (view.setViewport f.size) f).whole whole
  simp only [composeInto?, drawBase?_eq_some whole]
  exact base.foldlM (alike_drawPoint style (view.setViewport f.size))
    (fun _ whole p => drawPoint?_eq_some whole style _ _ p) cloud

end Scene

namespace Drawing

def draw? (f : Frame) : Drawing → Option Frame
  | clear c => f.clear? c
  | fillRect x y w h c => f.fillRect? x y w h c
  | set x y c => f.set? x y c
  | blend x y c => f.blend? x y c
  | plot p c => f.plot? p c
  | line l c => l.draw? f c
  | thickLine l thickness c => l.drawThick? f thickness c
  | rect x y w h c => Draw.rect? f x y w h c
  | disc center radius c => Draw.disc? f center radius c
  | label text at_ c => Draw.label? f text at_ c
  | scene style cloud view pointer => Scene.composeInto? style f cloud view pointer

/-- The frame after a sequence of drawings, none of which left the buffer. -/
def drawAll? (f : Frame) (drawings : List Drawing) : Option Frame := drawings.foldlM draw? f

theorem draw?_eq_some {f : Frame} (whole : f.Whole) (drawing : Drawing) :
    drawing.draw? f = some (drawing.draw f) := by
  cases drawing with
  | clear c => exact clear?_eq_some whole c
  | fillRect x y w h c => exact fillRect?_eq_some whole x y w h c
  | set x y c => exact set?_eq_some whole x y c
  | blend x y c => exact blend?_eq_some whole x y c
  | plot p c => exact plot?_eq_some whole p c
  | line l c => exact l.draw?_eq_some whole c
  | thickLine l thickness c => exact l.drawThick?_eq_some whole thickness c
  | rect x y w h c => exact Draw.rect?_eq_some whole x y w h c
  | disc center radius c => exact Draw.disc?_eq_some whole center radius c
  | label text at_ c => exact Draw.label?_eq_some whole text at_ c
  | scene style cloud view pointer => exact Scene.composeInto?_eq_some whole style cloud view pointer

/-- From a new frame, of any size that there is one of, every sequence of drawings accesses the buffer
within its bounds and leaves the size, the padded rows and their zeros as they are. Two frames of a
size that were drawn in any two ways hence have the same bytes if and only if all of their pixels
are the same. -/
theorem drawAll_laidOut {v : Viewport} (made : Frame.Allocatable v.width v.height) :
    ∃ start, Frame.new? v.width v.height = .ok start ∧ ∀ drawings : List Drawing,
      drawAll? start drawings = some (drawAll start drawings) ∧
      (drawAll start drawings).LaidOut v ∧
      ∀ others : List Drawing,
        (drawAll start drawings).bytes = (drawAll start others).bytes ↔
          ∀ x y, (drawAll start drawings).pixel? x y = (drawAll start others).pixel? x y := by
  obtain ⟨start, new⟩ := Frame.exists_new? made
  have laid := Frame.laidOut_of_new? new
  have kept (drawings : List Drawing) : (drawAll start drawings).LaidOut v :=
    laid.of_alike (alike_drawAll start drawings)
  refine ⟨start, new, fun drawings => ⟨?_, kept drawings, fun others => ?_⟩⟩
  · exact laid.whole.foldlM alike_draw (fun _ whole drawing => draw?_eq_some whole drawing) drawings
  · exact (kept drawings).bytes_eq_iff (kept others)

theorem drawAll_laidOut_disc :
    ∃ start, Frame.new? 3 2 = .ok start ∧
      drawAll? start [.clear .red, .disc ⟨1, 1⟩ 1 ⟨0, 0, 255, 128⟩] =
        some (drawAll start [.clear .red, .disc ⟨1, 1⟩ 1 ⟨0, 0, 255, 128⟩]) ∧
      (drawAll start [.clear .red, .disc ⟨1, 1⟩ 1 ⟨0, 0, 255, 128⟩]).LaidOut ⟨3, 2⟩ := by
  obtain ⟨start, new, kept⟩ :=
    drawAll_laidOut (v := ⟨3, 2⟩) (by decide)
  obtain ⟨bounded, laid, _⟩ := kept [.clear .red, .disc ⟨1, 1⟩ 1 ⟨0, 0, 255, 128⟩]
  exact ⟨start, new, bounded, laid⟩

end Drawing

end PointScope
