import PointScope.Proofs.Decimal.Fixed
import PointScope.Proofs.Scene.Painter

/-! Hovering. Near a point the pointer makes its label show, between the markers of that point and
the next. The frame with the pointer and the frame without are drawn in step: labels change the
first inside their rectangles, markers do the same to both, so no difference leaves a rectangle. -/
namespace PointScope.Scene

variable {style : SceneStyle} {view : Projection} {pointer : Pointer} {p : Point} {at_ : Pixel}
  {region : Pixel → Prop} {f g : Frame}

/-! ### Near points and their labels -/

/-- A point has a finite place on the screen, and the pixel there is near that of the pointer. -/
structure IsHovered (style : SceneStyle) (view : Projection) (pointer : Pointer) (p : Point)
    (at_ : Pixel) : Prop where
  place : view.pixel? p = some at_
  along : ((Screen.truncate pointer.x - at_.x).natAbs : Int) ≤ style.hoverBox
  across : ((Screen.truncate pointer.y - at_.y).natAbs : Int) ≤ style.hoverBox

/-- The rectangle of the label of a point at a pixel: six columns for each character and six more,
and ten rows. -/
def InLabel (style : SceneStyle) (p : Point) (at_ q : Pixel) : Prop :=
  let left := Screen.saturate
    (Screen.saturate (Screen.saturate (at_.x + style.pointSize) + 5) - 2)
  let top := Screen.saturate (Screen.saturate (at_.y - 5) - 2)
  (left ≤ q.x ∧ q.x < left + (6 * (coordinateLabel p).length + 6 : Nat)) ∧
    top ≤ q.y ∧ q.y < top + 10

/-- A pixel is in the label of some point of a cloud that the pointer is near. -/
def IsLabelled (style : SceneStyle) (view : Projection) (pointer : Pointer) (cloud : Cloud)
    (q : Pixel) : Prop :=
  ∃ p ∈ cloud, ∃ at_, IsHovered style view pointer p at_ ∧ InLabel style p at_ q

/-- Short enough for the width of every label to be a pixel coordinate. -/
theorem length_coordinateLabel_le (p : Point) : (coordinateLabel p).length ≤ 3288 := by
  have x := Decimal.length_fixed_le 1 p.x
  have y := Decimal.length_fixed_le 1 p.y
  have z := Decimal.length_fixed_le 1 p.z
  have marks : "(".length = 1 ∧ ", ".length = 2 ∧ ")".length = 1 := by decide
  simp only [coordinateLabel, toString, String.length_append, String.length_toList] at x y z ⊢
  omega

theorem onBackdrop_iff {q : Pixel} :
    Draw.OnBackdrop (coordinateLabel p).toList (labelCorner style at_) q ↔
      InLabel style p at_ q := by
  have short := length_coordinateLabel_le p
  have width : Draw.textWidth (coordinateLabel p).toList = 6 * (coordinateLabel p).length := by
    rw [Draw.textWidth, String.length_toList, Nat.mul_comm]
    apply Nat.min_eq_left
    simp only [Draw.Glyph.advance, Draw.Glyph.width, Screen.greatest]
    omega
  simp only [Draw.OnBackdrop, width]
  rfl

theorem changesOnly_coordinateLabel (f : Frame) (p : Point) (at_ : Pixel) (c : Rgba) :
    Frame.ChangesOnly (InLabel style p at_) f
      (Draw.label f (coordinateLabel p).toList (labelCorner style at_) c) := by
  have short := length_coordinateLabel_le p
  refine (Draw.changesOnly_label ?_ ?_ f c).mono fun q => onBackdrop_iff.mp
  · rw [String.length_toList]
    simp only [Draw.Glyph.advance, Draw.Glyph.width, Screen.greatest]
    omega
  · exact ⟨⟨Screen.least_le_saturate _, Screen.saturate_le_greatest _⟩,
      Screen.least_le_saturate _, Screen.saturate_le_greatest _⟩

/-! ### Frames drawn in step -/

theorem disc_in_step (fg : Frame.ChangesOnly region f g) (center : Pixel) (radius : Int)
    (c : Rgba) : Frame.ChangesOnly region (Draw.disc f center radius c)
      (Draw.disc g center radius c) := by
  by_cases nonneg : 0 ≤ radius
  · rw [Draw.disc_eq_plotAll f center nonneg, Draw.disc_eq_plotAll g center nonneg,
      Draw.discPixels_alike fg.alike]
    exact fg.plotAll _ c
  · have negative := Int.lt_of_not_ge nonneg
    rw [Draw.disc, Draw.disc, if_pos negative, if_pos negative]
    exact fg

theorem marker_in_step (fg : Frame.ChangesOnly region f g) (style : SceneStyle)
    (at_ : Pixel) : Frame.ChangesOnly region (drawMarker style f at_) (drawMarker style g at_) :=
  disc_in_step (disc_in_step fg at_ _ style.borderColor) at_ style.pointSize style.pointColor

theorem isNear_iff (place : view.pixel? p = some at_) :
    isNear (pointerPixel pointer) at_ style.hoverBox = true ↔ IsHovered style view pointer p at_ := by
  rw [isNear, Bool.and_eq_true, decide_eq_true_eq, decide_eq_true_eq]
  constructor
  · rintro ⟨along, across⟩
    exact ⟨place, along, across⟩
  · intro hovered
    exact ⟨hovered.along, hovered.across⟩

/-- A point is its marker and, if it is hovered, its label. -/
theorem drawPoint_cases (place : view.pixel? p = some at_) (g : Frame) :
    (IsHovered style view pointer p at_ ∧
      drawPoint style view (some (pointerPixel pointer)) g p =
        Draw.label (drawMarker style g at_) (coordinateLabel p).toList (labelCorner style at_)
          style.labelColor) ∨
    ¬IsHovered style view pointer p at_ ∧
      drawPoint style view (some (pointerPixel pointer)) g p = drawMarker style g at_ := by
  simp only [drawPoint, place]
  by_cases hovered : IsHovered style view pointer p at_
  · left
    rw [if_pos ((isNear_iff place).mpr hovered)]
    exact ⟨hovered, rfl⟩
  · right
    rw [if_neg (mt (isNear_iff place).mp hovered)]
    exact ⟨hovered, rfl⟩

theorem drawPoint_hidden (hidden : view.pixel? p = none) (pointer : Option Pixel) (g : Frame) :
    drawPoint style view pointer g p = g := by
  rw [drawPoint, hidden]

theorem point_in_step
    (labels : ∀ at_, IsHovered style view pointer p at_ → ∀ q, InLabel style p at_ q → region q)
    (fg : Frame.ChangesOnly region f g) :
    Frame.ChangesOnly region (drawPoint style view none f p)
      (drawPoint style view (some (pointerPixel pointer)) g p) := by
  cases place : view.pixel? p with
  | none =>
    rw [drawPoint_hidden place, drawPoint_hidden place]
    exact fg
  | some at_ =>
    have plain : drawPoint style view none f p = drawMarker style f at_ := by
      rw [drawPoint, place]
    have marked := marker_in_step fg style at_
    obtain ⟨hovered, drawn⟩ | ⟨_, drawn⟩ := drawPoint_cases place g
    · rw [plain, drawn]
      exact marked.trans ((changesOnly_coordinateLabel _ p at_ _).mono (labels at_ hovered))
    · rw [plain, drawn]
      exact marked

/-- The frames of a whole cloud. The region holds the labels of all points from the start: what is
drawn after a label may blend over it, but on both frames at the same pixels. -/
theorem points_in_step {cloud : Cloud}
    (labels : ∀ p ∈ cloud, ∀ at_, IsHovered style view pointer p at_ →
      ∀ q, InLabel style p at_ q → region q) (fg : Frame.ChangesOnly region f g) :
    Frame.ChangesOnly region (cloud.foldl (drawPoint style view none) f)
      (cloud.foldl (drawPoint style view (some (pointerPixel pointer))) g) := by
  induction cloud generalizing f g with
  | nil => exact fg
  | cons p cloud ih =>
    apply ih
    · intro r mem
      exact labels r (List.mem_cons_of_mem p mem)
    · exact point_in_step (labels p List.mem_cons_self) fg

theorem drawPoint_of_not_hovered (away : ∀ at_, ¬IsHovered style view pointer p at_) (f : Frame) :
    drawPoint style view (some (pointerPixel pointer)) f p = drawPoint style view none f p := by
  cases place : view.pixel? p with
  | none => rw [drawPoint_hidden place, drawPoint_hidden place]
  | some at_ =>
    have plain : drawPoint style view none f p = drawMarker style f at_ := by
      rw [drawPoint, place]
    obtain ⟨hovered, _⟩ | ⟨_, drawn⟩ := drawPoint_cases place f
    · exact absurd hovered (away at_)
    · rw [plain, drawn]

/-! ### Whole frames -/

/-- A pointer changes nothing outside the labels of the points it is near, and nothing at all if it
is near none. The sizes are all those that a scene has a frame of (`exists_compose_iff`). -/
theorem compose_hover (style : SceneStyle) (cloud : Cloud) (view : Projection)
    {viewport : Viewport} (made : Frame.Allocatable viewport.width viewport.height)
    (pointer : Pointer) :
    ∃ hovered plain, compose style cloud view viewport (some pointer) = .ok hovered ∧
      compose style cloud view viewport none = .ok plain ∧
      hovered.size = viewport ∧ plain.size = viewport ∧
      (∀ x y : Nat, ¬IsLabelled style (view.setViewport viewport) pointer cloud ⟨x, y⟩ →
        hovered.pixel? x y = plain.pixel? x y) ∧
      ((∀ p ∈ cloud, ∀ at_, ¬IsHovered style (view.setViewport viewport) pointer p at_) →
        hovered = plain) := by
  obtain ⟨f, new⟩ := Frame.exists_new? made
  have size : f.size = viewport := Frame.size_of_new? new
  have alike (near : Option Pixel) : f.Alike
      (cloud.foldl (drawPoint style (view.setViewport viewport) near)
        (drawBase style (view.setViewport viewport) f)) :=
    (alike_drawBase style (view.setViewport viewport) f).trans (.foldl (alike_drawPoint style _) cloud _)
  refine ⟨_, _, compose_ok style cloud view new, compose_ok style cloud view new,
    (alike _).size.trans size, (alike _).size.trans size, ?_, ?_⟩
  · intro x y outside
    have colors : 4 ∣ f.bytes.size := Nat.dvd_trans (by decide) (Frame.layout_of_new? new).1
    have drawn : Frame.ChangesOnly (IsLabelled style (view.setViewport viewport) pointer cloud)
        (cloud.foldl (drawPoint style (view.setViewport viewport) none) _)
        (cloud.foldl (drawPoint style (view.setViewport viewport) (some (pointerPixel pointer))) _) :=
      points_in_step (fun p mem at_ hovered q within => ⟨p, mem, at_, hovered, within⟩)
        (.refl (drawBase style (view.setViewport viewport) f))
    exact drawn.pixel?_eq ((alike none).bytes ▸ colors) outside
  · intro away
    apply List.foldl_ext
    intro g p mem
    exact drawPoint_of_not_hovered (away p mem) g

/-- Straight on, the pointer is near the origin and too far from the point beside it. What it changes is
the label of the origin, fifteen characters in their rectangle, behind the marker of the other point. -/
theorem compose_hover_beside :
    ∃ hovered plain,
      compose .default [.origin, ⟨1.0, 0.0, 0.0⟩] .default .default (some ⟨395.0, 300.0⟩) =
        .ok hovered ∧
      compose .default [.origin, ⟨1.0, 0.0, 0.0⟩] .default .default none = .ok plain ∧
      (∀ x y : Nat, ¬IsLabelled .default (Projection.default.setViewport .default) ⟨395.0, 300.0⟩
        [.origin, ⟨1.0, 0.0, 0.0⟩] ⟨x, y⟩ → hovered.pixel? x y = plain.pixel? x y) ∧
      (Float.sin 0.0 = 0.0 → Float.cos 0.0 = 1.0 →
        IsHovered .default (Projection.default.setViewport .default) ⟨395.0, 300.0⟩ .origin
          ⟨400, 300⟩ ∧
        (∀ at_, ¬IsHovered .default (Projection.default.setViewport .default) ⟨395.0, 300.0⟩
          ⟨1.0, 0.0, 0.0⟩ at_) ∧
        ∀ x y : Nat, ¬((413 ≤ x ∧ x < 509) ∧ 293 ≤ y ∧ y < 303) →
          hovered.pixel? x y = plain.pixel? x y) := by
  obtain ⟨hovered, plain, composed, composed', _, _, law, _⟩ :=
    compose_hover .default [.origin, ⟨1.0, 0.0, 0.0⟩] .default
      (by decide : Frame.Allocatable Viewport.default.width Viewport.default.height) ⟨395.0, 300.0⟩
  refine ⟨hovered, plain, composed, composed', law, fun sine cosine => ?_⟩
  have first := pixel?_origin sine cosine
  have second : (Projection.default.setViewport .default).pixel? ⟨1.0, 0.0, 0.0⟩ =
      some ⟨450, 300⟩ := by
    simp only [Projection.pixel?, Projection.project, Projection.rotate,
      rotation_default sine cosine]
    decide +kernel
  have near : IsHovered .default (Projection.default.setViewport .default) ⟨395.0, 300.0⟩ .origin
      ⟨400, 300⟩ := ⟨first, by decide +kernel, by decide +kernel⟩
  have away (at_ : Pixel) : ¬IsHovered .default (Projection.default.setViewport .default)
      ⟨395.0, 300.0⟩ ⟨1.0, 0.0, 0.0⟩ at_ := by
    intro hovered
    obtain rfl : ⟨450, 300⟩ = at_ := Option.some.inj (second.symm.trans hovered.place)
    exact absurd hovered.along (by decide +kernel)
  refine ⟨near, away, fun x y outside => law x y ?_⟩
  rintro ⟨p, mem, at_, hovered, within⟩
  obtain rfl | rfl := List.mem_pair.mp mem
  · obtain rfl : ⟨400, 300⟩ = at_ := Option.some.inj (first.symm.trans hovered.place)
    have length : (coordinateLabel .origin).length = 15 := by decide +kernel
    simp only [InLabel, length] at within
    change (413 ≤ (x : Int) ∧ (x : Int) < 413 + 96) ∧ 293 ≤ (y : Int) ∧ (y : Int) < 293 + 10 at within
    exact outside (by omega)
  · exact away at_ hovered

end PointScope.Scene
