import PointScope.Proofs.Draw.Label
import PointScope.Proofs.Draw.Line
import PointScope.Proofs.Frame.Clear
import PointScope.Scene.Composer
import Mathlib.Data.List.Induction

/-! The painter's law. What is drawn before the points is the frame of the empty cloud. Every point
then covers a disc with its marker, so a pixel shows the marker of the last point that reaches it. -/
namespace PointScope

namespace Scene

variable {style : SceneStyle} {view : Projection} {f : Frame} {x y : Nat}

/-! ### Everything but the points -/

theorem alike_drawGrid (style : SceneStyle) (view : Projection) (f : Frame) (plane : GridPlane) :
    f.Alike (drawGrid style view f plane) :=
  .foldl (fun f l => l.alike_draw f _) _ f

theorem alike_drawAxis (style : SceneStyle) (view : Projection) (origin : Pixel) (f : Frame)
    (axis : Axis) : f.Alike (drawAxis style view origin f axis) := by
  simp only [drawAxis]
  split
  · exact .refl f
  · exact (Draw.Line.alike_drawThick _ f _ _).trans (Draw.alike_label _ _ _ _)

theorem alike_drawAxes (style : SceneStyle) (view : Projection) (f : Frame) :
    f.Alike (drawAxes style view f) := by
  simp only [drawAxes]
  split
  · exact .refl f
  · exact .foldl (alike_drawAxis style view _) _ f

theorem alike_drawBase (style : SceneStyle) (view : Projection) (f : Frame) :
    f.Alike (drawBase style view f) :=
  ((f.alike_clear style.background).trans
    (.foldl (alike_drawGrid style view) _ _)).trans (alike_drawAxes style view _)

/-! ### Markers -/

/-- The radius of the border around a point. -/
def reach (style : SceneStyle) : Int := Screen.saturate (style.pointSize + 2)

/-- What the marker at a position shows at a pixel that it reaches. -/
def markerColor (style : SceneStyle) (at_ p : Pixel) : Rgba :=
  if Draw.isWithin at_ style.pointSize p then style.pointColor else style.borderColor

/-- The position of the last point of a cloud that has a finite place on the screen and whose marker
reaches a pixel. -/
def lastMarker (style : SceneStyle) (view : Projection) (cloud : Cloud) (p : Pixel) :
    Option Pixel :=
  ((cloud.filterMap view.pixel?).filter fun at_ => Draw.isWithin at_ (reach style) p).getLast?

/-- The later of two parts of a cloud wins. -/
theorem lastMarker_append (style : SceneStyle) (view : Projection) (before after : Cloud)
    (p : Pixel) :
    lastMarker style view (before ++ after) p =
      (lastMarker style view after p).or (lastMarker style view before p) := by
  simp only [lastMarker]
  rw [List.filterMap_append, List.filter_append, List.getLast?_append]

theorem lastMarker_hidden {q : Point} (hidden : view.pixel? q = none) (p : Pixel) :
    lastMarker style view [q] p = none := by
  rw [lastMarker, List.filterMap_cons_none hidden]
  rfl

theorem lastMarker_shown {q : Point} {at_ : Pixel} (shown : view.pixel? q = some at_) (p : Pixel) :
    lastMarker style view [q] p =
      if Draw.isWithin at_ (reach style) p then some at_ else none := by
  rw [lastMarker, List.filterMap_cons_some shown, List.filterMap_nil]
  split
  · rw [List.filter_cons_of_pos ‹_›]
    rfl
  · rw [List.filter_cons_of_neg ‹_›]
    rfl

theorem alike_drawMarker (style : SceneStyle) (f : Frame) (at_ : Pixel) :
    f.Alike (drawMarker style f at_) :=
  (Draw.alike_disc f at_ _ _).trans (Draw.alike_disc _ at_ _ _)

theorem pointSize_le_reach (fits : style.pointSize ≤ Screen.greatest) :
    style.pointSize ≤ reach style := by
  simp only [reach, Screen.saturate]
  omega

/-- A marker of opaque colors covers its border's disc with the two of them. -/
theorem pixel?_drawMarker (border : style.borderColor.isOpaque = true)
    (point : style.pointColor.isOpaque = true) (fits : style.pointSize ≤ Screen.greatest)
    (short : f.height.toNat ≤ 2 ^ 31) (held : f.Holds x y) (at_ : Pixel) :
    (drawMarker style f at_).pixel? x y =
      if Draw.isWithin at_ (reach style) ⟨x, y⟩ then some (markerColor style at_ ⟨x, y⟩)
      else f.pixel? x y := by
  have alike := Draw.alike_disc f at_ (reach style) style.borderColor
  have ground := Draw.pixel?_disc short held at_ (reach style) style.borderColor
  have top := Draw.pixel?_disc (alike.height ▸ short) (alike.holds.mpr held) at_ style.pointSize
    style.pointColor
  rw [drawMarker, ← reach, top, ground, Frame.pixel?_eq_some held, markerColor]
  by_cases inner : Draw.isWithin at_ style.pointSize ⟨x, y⟩ = true
  · have outer := Draw.isWithin_mono (pointSize_le_reach fits) inner
    rw [if_pos inner, if_pos outer, if_pos outer, if_pos inner, Option.map_some, Option.map_some,
      Rgba.covering_of_isOpaque point]
  · rw [if_neg inner, if_neg inner, Option.map_some, Rgba.covering_of_isOpaque border]

theorem alike_drawPoint (style : SceneStyle) (view : Projection) {pointer : Option Pixel} (f : Frame)
    (p : Point) : f.Alike (drawPoint style view pointer f p) := by
  simp only [drawPoint]
  split
  · exact .refl f
  · rename_i at_ place
    have marked := alike_drawMarker style f at_
    split
    · exact marked
    · split
      · exact marked.trans (Draw.alike_label _ _ _ _)
      · exact marked

/-- After any number of points, a pixel shows the last marker that reaches it. -/
theorem pixel?_foldl_drawPoint (border : style.borderColor.isOpaque = true)
    (point : style.pointColor.isOpaque = true) (fits : style.pointSize ≤ Screen.greatest)
    (short : f.height.toNat ≤ 2 ^ 31) (held : f.Holds x y) (cloud : Cloud) :
    (cloud.foldl (drawPoint style view none) f).pixel? x y =
      match lastMarker style view cloud ⟨x, y⟩ with
      | none => f.pixel? x y
      | some at_ => some (markerColor style at_ ⟨x, y⟩) := by
  induction cloud using List.reverseRecOn with
  | nil => rfl
  | append_singleton cloud p ih =>
    have alike : f.Alike (cloud.foldl (drawPoint style view none) f) :=
      .foldl (alike_drawPoint style view) cloud f
    rw [List.foldl_append, List.foldl_cons, List.foldl_nil, lastMarker_append]
    cases place : view.pixel? p with
    | none =>
      have skipped : ∀ g, drawPoint style view none g p = g := fun g => by rw [drawPoint, place]
      rw [skipped, ih, lastMarker_hidden place, Option.none_or]
    | some at_ =>
      have marked : ∀ g, drawPoint style view none g p = drawMarker style g at_ := fun g => by
        rw [drawPoint, place]
      rw [marked, pixel?_drawMarker border point fits (alike.height ▸ short)
        (alike.holds.mpr held), ih, lastMarker_shown place]
      by_cases reached : Draw.isWithin at_ (reach style) ⟨x, y⟩ = true
      · rw [if_pos reached, if_pos reached, Option.some_or]
      · rw [if_neg reached, if_neg reached, Option.none_or]

/-- The straight view turns nothing, with the sine and the cosine of zero. -/
theorem rotation_default (sine : Float.sin 0.0 = 0.0) (cosine : Float.cos 0.0 = 1.0)
    (viewport : Viewport) :
    (Projection.default.setViewport viewport).rotation =
      ⟨⟨0.0, 1.0⟩, ⟨0.0, 1.0⟩, ⟨0.0, 1.0⟩⟩ := by
  rw [Projection.rotation, Projection.setViewport, Projection.default, Projection.new,
    Turn.ofAngle, sine, cosine]

theorem pixel?_origin (sine : Float.sin 0.0 = 0.0) (cosine : Float.cos 0.0 = 1.0) :
    (Projection.default.setViewport .default).pixel? .origin = some ⟨400, 300⟩ := by
  simp only [Projection.pixel?, Projection.project, Projection.rotate, rotation_default sine cosine]
  decide +kernel

/-! ### Frames -/

theorem alike_composeInto (style : SceneStyle) (f : Frame) (cloud : Cloud) (view : Projection)
    (pointer : Option Pointer) : f.Alike (composeInto style f cloud view pointer) :=
  (alike_drawBase style _ f).trans (.foldl (alike_drawPoint style _) cloud _)

theorem compose_ok (style : SceneStyle) (cloud : Cloud) (view : Projection) {viewport : Viewport}
    (new : Frame.new? viewport.width viewport.height = .ok f) {pointer : Option Pointer} :
    compose style cloud view viewport pointer =
      .ok (cloud.foldl (drawPoint style (view.setViewport viewport) (pointer.map pointerPixel))
        (drawBase style (view.setViewport viewport) f)) := by
  rw [compose, new]
  change Except.ok (composeInto style f cloud view pointer) = _
  rw [composeInto, Frame.size_of_new? new]

/-- A scene has a frame of exactly those sizes that frames are made of. -/
theorem exists_compose_iff (style : SceneStyle) (cloud : Cloud) (view : Projection)
    (viewport : Viewport) (pointer : Option Pointer) :
    (∃ frame, compose style cloud view viewport pointer = .ok frame) ↔
      Frame.Allocatable viewport.width viewport.height := by
  rw [← Frame.exists_new?_iff]
  constructor
  · rintro ⟨frame, composed⟩
    rw [compose] at composed
    cases new : Frame.new? viewport.width viewport.height with
    | error fault =>
      rw [new] at composed
      cases composed
    | ok f => exact ⟨f, rfl⟩
  · rintro ⟨f, new⟩
    exact ⟨_, compose_ok style cloud view new⟩

/-- The painter's law. With opaque marker colors and no pointer, a pixel of a frame is that of the
frame of the empty cloud, unless the marker of a point with a finite place reaches it. It then shows
the marker of the last such point: the color of points within the point's radius and the color of
borders beyond it. Points without a finite place leave no trace in the frame.

The sizes are all those that a scene has a frame of (`exists_compose_iff`). -/
theorem compose_painter (style : SceneStyle) (cloud : Cloud) (view : Projection)
    {viewport : Viewport} (made : Frame.Allocatable viewport.width viewport.height)
    (short : viewport.height.toNat ≤ 2 ^ 31) (border : style.borderColor.isOpaque = true)
    (point : style.pointColor.isOpaque = true) (fits : style.pointSize ≤ Screen.greatest) :
    ∃ frame base, compose style cloud view viewport none = .ok frame ∧
      compose style [] view viewport none = .ok base ∧
      compose style (cloud.filter fun p => ((view.setViewport viewport).pixel? p).isSome) view
        viewport none = .ok frame ∧
      frame.size = viewport ∧
      ∀ x y, x < viewport.width.toNat → y < viewport.height.toNat → frame.pixel? x y =
        match lastMarker style (view.setViewport viewport) cloud ⟨x, y⟩ with
        | none => base.pixel? x y
        | some at_ => some (markerColor style at_ ⟨x, y⟩) := by
  obtain ⟨f, new⟩ := Frame.exists_new? made
  have size : f.size = viewport := Frame.size_of_new? new
  have base_alike := alike_drawBase style (view.setViewport viewport) f
  have point_alike : (drawBase style (view.setViewport viewport) f).Alike
      (cloud.foldl (drawPoint style (view.setViewport viewport) none)
        (drawBase style (view.setViewport viewport) f)) :=
    .foldl (alike_drawPoint style (view.setViewport viewport)) cloud _
  have alike := base_alike.trans point_alike
  refine ⟨_, _, compose_ok style cloud view new, compose_ok style [] view new, ?_, ?_, ?_⟩
  · rw [compose_ok style _ view new, List.foldl_filter]
    refine congrArg Except.ok (congrArg (fun step => List.foldl step _ cloud) ?_)
    funext g p
    cases place : (view.setViewport viewport).pixel? p with
    | none => rw [drawPoint, place]; rfl
    | some at_ => rfl
  · exact alike.size.trans size
  · intro x y hx hy
    have held := base_alike.holds.mpr (Frame.holds_of_new? new hx hy)
    rw [← size] at short
    exact pixel?_foldl_drawPoint border point fits (base_alike.height ▸ short) held cloud

/-- The origin, a point at the eye, which is nowhere on the screen, and a point whose marker overlaps that of
the origin. -/
def overlapping : Cloud := [.origin, ⟨0.0, 0.0, -600.0⟩, ⟨0.2, 0.0, 0.0⟩]

/-- Straight on, the last point shows ten pixels beside the first. Its border covers a pixel within the
first point's radius, and the first point shows where the last one does not reach. -/
theorem compose_painter_overlapping :
    ∃ frame base, compose .default overlapping .default .default none = .ok frame ∧
      compose .default [] .default .default none = .ok base ∧
      (∀ x y, x < 800 → y < 600 → frame.pixel? x y =
        match lastMarker .default (Projection.default.setViewport .default) overlapping ⟨x, y⟩ with
        | none => base.pixel? x y
        | some at_ => some (markerColor .default at_ ⟨x, y⟩)) ∧
      (Float.sin 0.0 = 0.0 → Float.cos 0.0 = 1.0 →
        compose .default [.origin, ⟨0.2, 0.0, 0.0⟩] .default .default none = .ok frame ∧
        frame.pixel? 397 300 = some SceneStyle.default.pointColor ∧
        frame.pixel? 399 300 = some SceneStyle.default.borderColor ∧
        frame.pixel? 400 300 = some SceneStyle.default.pointColor ∧
        frame.pixel? 430 300 = base.pixel? 430 300) := by
  obtain ⟨frame, base, composed, empty, seen, _, law⟩ :=
    compose_painter .default overlapping .default
      (by decide : Frame.Allocatable Viewport.default.width Viewport.default.height) (by decide)
      (by decide) (by decide) (by decide)
  refine ⟨frame, base, composed, empty, law, fun sine cosine => ?_⟩
  have first := pixel?_origin sine cosine
  have eye : (Projection.default.setViewport .default).pixel? ⟨0.0, 0.0, -600.0⟩ = none := by
    simp only [Projection.pixel?, Projection.project, Projection.rotate,
      rotation_default sine cosine]
    decide +kernel
  have last : (Projection.default.setViewport .default).pixel? ⟨0.2, 0.0, 0.0⟩ =
      some ⟨410, 300⟩ := by
    simp only [Projection.pixel?, Projection.project, Projection.rotate,
      rotation_default sine cosine]
    decide +kernel
  have markers (x y : Nat) (hx : x < 800) (hy : y < 600) : frame.pixel? x y =
      match ([⟨400, 300⟩, ⟨410, 300⟩].filter fun at_ =>
        Draw.isWithin at_ 12 ⟨x, y⟩).getLast? with
      | none => base.pixel? x y
      | some at_ => some (markerColor .default at_ ⟨x, y⟩) := by
    rw [law x y hx hy, lastMarker, overlapping, List.filterMap_cons_some first,
      List.filterMap_cons_none eye, List.filterMap_cons_some last, List.filterMap_nil]
    rfl
  refine ⟨?_, markers 397 300 (by decide) (by decide), markers 399 300 (by decide) (by decide),
    markers 400 300 (by decide) (by decide), markers 430 300 (by decide) (by decide)⟩
  rw [overlapping, List.filter_cons_of_pos (by rw [first]; rfl),
    List.filter_cons_of_neg (by rw [eye]; decide), List.filter_cons_of_pos (by rw [last]; rfl)] at seen
  exact seen

end Scene

end PointScope
