import PointScope.Proofs.Scene.Painter

/-! Frames that are drawn over and over. No drawing changes the size of a frame or writes behind the
pixels of a row, so a frame with any history differs from a new one in its pixels only, and these
are cleared first when a scene is composed into it. -/
namespace PointScope

/-- What may be asked of a frame, with its arguments. -/
inductive Drawing where
  | clear (c : Rgba)
  | fillRect (x y w h : Nat) (c : Rgba)
  | set (x y : Nat) (c : Rgba)
  | blend (x y : Nat) (c : Rgba)
  | plot (p : Pixel) (c : Rgba)
  | line (l : Draw.Line) (c : Rgba)
  | thickLine (l : Draw.Line) (thickness : Nat) (c : Rgba)
  | rect (x y : Int) (w h : Nat) (c : Rgba)
  | disc (center : Pixel) (radius : Int) (c : Rgba)
  | label (text : List Char) (at_ : Pixel) (c : Rgba)
  | scene (style : SceneStyle) (cloud : Cloud) (view : Projection) (pointer : Option Pointer)

namespace Drawing

def draw (f : Frame) : Drawing → Frame
  | clear c => f.clear c
  | fillRect x y w h c => f.fillRect x y w h c
  | set x y c => f.set x y c
  | blend x y c => f.blend x y c
  | plot p c => f.plot p c
  | line l c => l.draw f c
  | thickLine l thickness c => l.drawThick f thickness c
  | rect x y w h c => Draw.rect f x y w h c
  | disc center radius c => Draw.disc f center radius c
  | label text at_ c => Draw.label f text at_ c
  | scene style cloud view pointer => Scene.composeInto style f cloud view pointer

/-- The frame after a sequence of drawings. -/
def drawAll (f : Frame) (drawings : List Drawing) : Frame := drawings.foldl draw f

theorem alike_draw (f : Frame) (drawing : Drawing) : f.Alike (drawing.draw f) := by
  cases drawing with
  | clear c => exact f.alike_clear c
  | fillRect x y w h c => exact f.alike_fillRect x y w h c
  | set x y c => exact f.alike_set x y c
  | blend x y c => exact f.alike_blend x y c
  | plot p c => exact f.alike_plot p c
  | line l c => exact l.alike_draw f c
  | thickLine l thickness c => exact l.alike_drawThick f thickness c
  | rect x y w h c => exact Draw.alike_rect f x y w h c
  | disc center radius c => exact Draw.alike_disc f center radius c
  | label text at_ c => exact Draw.alike_label f text at_ c
  | scene style cloud view pointer => exact Scene.alike_composeInto style f cloud view pointer

theorem alike_drawAll (f : Frame) (drawings : List Drawing) : f.Alike (drawAll f drawings) :=
  .foldl alike_draw drawings f

end Drawing

namespace Scene

/-- A scene composed into a frame with a history is the scene composed into a new one, byte for byte
and with the padding of the rows: whatever was drawn before leaves no trace. -/
theorem compose_eq_redrawn {width height : UInt32} {start : Frame}
    (new : Frame.new? width height = .ok start) (drawings : List Drawing) (style : SceneStyle)
    (cloud : Cloud) (view : Projection) (pointer : Option Pointer) :
    compose style cloud view ⟨width, height⟩ pointer =
      .ok (composeInto style (Drawing.drawAll start drawings) cloud view pointer) := by
  have alike := Drawing.alike_drawAll start drawings
  obtain ⟨whole, room⟩ := Frame.layout_of_new? new
  have redrawn : composeInto style (Drawing.drawAll start drawings) cloud view pointer =
      composeInto style start cloud view pointer := by
    rw [composeInto, composeInto, alike.size, drawBase, drawBase, alike.clear_eq whole room]
  rw [redrawn, compose, new]
  rfl

theorem compose_eq_redrawn_disc :
    ∃ start, Frame.new? 3 2 = .ok start ∧
      compose .default [.origin] .default ⟨3, 2⟩ (some ⟨1.0, 1.0⟩) =
        .ok (composeInto .default
          (Drawing.drawAll start [.clear .red, .disc ⟨1, 1⟩ 1 ⟨0, 0, 255, 128⟩]) [.origin] .default
          (some ⟨1.0, 1.0⟩)) :=
  ⟨_, rfl, compose_eq_redrawn rfl _ _ _ _ _⟩

end Scene

end PointScope
