import PointScope.Proofs.Frame.Access
import PointScope.Proofs.Frame.Overlay
import PointScope.Proofs.Scene.Redraw

/-! Frames that nothing behind them is seen through. A pixel of full alpha keeps it whatever is laid over
it, since the alpha of a blend is not below that of the lower color. So only a color that takes the place
of what was there can make a pixel translucent, and a scene puts only its background there. -/
namespace PointScope

open PointScope.Frame

theorem Rgba.channel_of_alpha (c : Rgba) {i : Nat} (alpha : i % 4 = 3) : c.channel i = c.a := by
  unfold channel
  rw [alpha]
  rfl

/-- What covers a color that nothing is seen through is such a color again. -/
theorem Rgba.covering_alpha {c under : Rgba} (full : under.a = 255) : (c.covering under).a = 255 := by
  unfold covering
  split
  · rename_i covers
    exact beq_iff_eq.mp covers
  · have least := UInt8.le_iff_toNat_le.mp (le_alpha_onto c under).2
    have most := (c.onto under).a.toNat_lt
    rw [full] at least
    exact UInt8.toNat_inj.mp (Nat.le_antisymm (Nat.lt_succ_iff.mp most) least)

namespace Frame

variable {f g h : Frame} {x y : Nat} {c : Rgba} {bytes : ByteArray} {i j : Nat}

/-- The frame has the pixel, and nothing is seen through it. -/
def Solid (f : Frame) (x y : Nat) : Prop := ∃ c, f.pixel? x y = some c ∧ c.a = 255

/-- Nothing is seen through any pixel. -/
def IsSolid (f : Frame) : Prop := ∀ x y, x < f.width.toNat → y < f.height.toNat → f.Solid x y

theorem solid_iff :
    f.Solid x y ↔ (x < f.width.toNat ∧ y < f.height.toNat) ∧ f.byte (f.offset x y + 3) = 255 := by
  unfold Solid pixel?
  constructor
  · rintro ⟨c, read, full⟩
    obtain ⟨inside, shown⟩ := Option.ite_none_right_eq_some.mp read
    obtain rfl := Option.some.inj shown
    exact ⟨inside, full⟩
  · rintro ⟨inside, full⟩
    exact ⟨_, if_pos inside, full⟩

/-- Beyond the buffer there is no full alpha. -/
theorem Solid.holds (solid : f.Solid x y) : f.Holds x y := by
  obtain ⟨inside, full⟩ := solid_iff.mp solid
  refine ⟨inside.1, inside.2, ?_⟩
  by_contra short
  have beyond : f.byte (f.offset x y + 3) = 0 := dif_neg (by omega)
  rw [beyond] at full
  exact absurd full (by decide)

/-! ### Keeping pixels solid -/

/-- Nothing is seen through any pixel of the second frame that was not seen through in the first. -/
structure KeepsSolid (f g : Frame) : Prop where
  kept : ∀ x y, f.Solid x y → g.Solid x y

theorem KeepsSolid.refl (f : Frame) : f.KeepsSolid f := ⟨fun _ _ => id⟩

theorem KeepsSolid.trans (fg : f.KeepsSolid g) (gh : g.KeepsSolid h) : f.KeepsSolid h where
  kept x y solid := gh.kept x y (fg.kept x y solid)

theorem KeepsSolid.foldl {step : Frame → α → Frame} {as : List α}
    (keeps : ∀ (f : Frame), ∀ a ∈ as, f.KeepsSolid (step f a)) (f : Frame) :
    f.KeepsSolid (as.foldl step f) := by
  induction as generalizing f with
  | nil => exact .refl f
  | cons a as ih =>
    apply (keeps f a List.mem_cons_self).trans
    apply ih
    intro g b mem
    exact keeps g b (List.mem_cons_of_mem a mem)

theorem keepsSolid_set (covers : c.isOpaque = true) (f : Frame) (x y : Nat) :
    f.KeepsSolid (f.set x y c) := by
  refine ⟨fun x' y' solid => ?_⟩
  have written : (f.set x y c).pixel? x' y' = _ := pixel?_set solid.holds
  split at written
  · exact ⟨c, written, beq_iff_eq.mp covers⟩
  · obtain ⟨under, read, full⟩ := solid
    exact ⟨under, written.trans read, full⟩

theorem keepsSolid_paint (f : Frame) (x y : Nat) (c : Rgba) : f.KeepsSolid (f.paint x y c) := by
  refine ⟨fun x' y' solid => ?_⟩
  have painted : (f.paint x y c).pixel? x' y' = _ := pixel?_paint solid.holds
  obtain ⟨under, read, full⟩ := solid
  rw [read] at painted
  split at painted
  · exact ⟨_, painted, Rgba.covering_alpha full⟩
  · exact ⟨under, painted, full⟩

theorem keepsSolid_blend (f : Frame) (x y : Nat) (c : Rgba) : f.KeepsSolid (f.blend x y c) := by
  rw [← paint_eq_blend]
  exact f.keepsSolid_paint x y c

theorem keepsSolid_plot (f : Frame) (p : Pixel) (c : Rgba) : f.KeepsSolid (f.plot p c) := by
  unfold plot
  split
  · exact f.keepsSolid_paint _ _ c
  · exact .refl f

theorem keepsSolid_fillRect (covers : c.isOpaque = true) (f : Frame) (x y w h : Nat) :
    f.KeepsSolid (f.fillRect x y w h c) :=
  .foldl (fun f row _ => .foldl (fun f column _ => keepsSolid_set covers f column row) f) f

/-! ### Clearing -/

theorem full_putColor (covers : c.a = 255) (aligned : 4 ∣ i) (alpha : j % 4 = 3)
    (full : byteOf bytes j = 255) : byteOf (putColor bytes i c) j = 255 := by
  simp only [putColor, byteOf_putByte, size_putByte]
  split
  · exact covers
  · -- The bytes before the last one are no alphas.
    rw [if_neg (by omega), if_neg (by omega), if_neg (by omega), full]

theorem full_putPart (covers : c.a = 255) (aligned : 4 ∣ i) (alpha : j % 4 = 3)
    (full : byteOf bytes j = 255) : byteOf (putPart bytes i (block c)) j = 255 := by
  rw [byteOf_putPart, size_block]
  split
  · rename_i within
    rw [byteOf_block c (by omega), c.channel_of_alpha (by omega), covers]
  · exact full

/-- Whole or not, a buffer that is cleared with an opaque color keeps its full alphas. -/
theorem keepsSolid_clear (covers : c.isOpaque = true) (f : Frame) : f.KeepsSolid (f.clear c) := by
  have opacity : c.a = 255 := beq_iff_eq.mp covers
  refine ⟨fun x y solid => ?_⟩
  obtain ⟨inside, full⟩ := solid_iff.mp solid
  have rows (y : Nat) : 4 ∣ y * f.stride :=
    Nat.dvd_mul_left_of_dvd (Nat.dvd_trans (by decide) f.blockBytes_dvd_stride) y
  have alpha : (f.offset x y + 3) % 4 = 3 := by
    have := rows y
    unfold offset
    omega
  refine solid_iff.mpr ⟨inside, ?_⟩
  change byteOf (f.clear c).bytes (f.offset x y + 3) = 255
  refine List.foldlRecOn _ _ (motive := fun b => byteOf b (f.offset x y + 3) = 255) full ?_
  intro b full row _
  have start := rows row
  refine List.foldlRecOn _ _ (motive := fun b => byteOf b (f.offset x y + 3) = 255) ?_ ?_
  · refine List.foldlRecOn _ _ (motive := fun b => byteOf b (f.offset x y + 3) = 255) full ?_
    intro b full k _
    exact full_putPart opacity (by simp only [blockBytes, blockPixels]; omega) alpha full
  · intro b full k _
    exact full_putColor opacity (by simp only [blockBytes, blockPixels]; omega) alpha full

/-- In a buffer that is made of whole blocks, nothing is seen through what was cleared with an opaque
color. -/
theorem solid_clear (covers : c.isOpaque = true) (blocks : blockBytes ∣ f.bytes.size)
    (held : f.Holds x y) : (f.clear c).Solid x y := by
  have alike := f.alike_clear c
  refine solid_iff.mpr ⟨?_, ?_⟩
  · rw [alike.width, alike.height]
    exact ⟨held.1, held.2.1⟩
  · have bound := held.2.2
    have row : y * f.stride ≤ f.offset x y + 3 ∧ f.offset x y + 3 < y * f.stride + f.rowBytes := by
      have := held.1
      unfold offset rowBytes
      omega
    have place : (f.offset x y + 3) % 4 = 3 := by
      have : 4 ∣ y * f.stride :=
        Nat.dvd_mul_left_of_dvd (Nat.dvd_trans (by decide) f.blockBytes_dvd_stride) y
      unfold offset
      omega
    rw [alike.offset]
    refine ((f.fills_clear c).inside blocks _ (by omega)
      ⟨y, List.mem_range.mpr held.2.1, row⟩).trans ?_
    rw [c.channel_of_alpha place]
    exact beq_iff_eq.mp covers

end Frame

/-! ### Areas, lines and labels -/

namespace Draw

theorem keepsSolid_span (f : Frame) (row : Nat) (first last : Int) (c : Rgba) :
    f.KeepsSolid (span f row first last c) := by
  simp only [span]
  split
  · rename_i covers
    exact keepsSolid_fillRect covers f _ row _ 1
  · exact .foldl (fun f column _ => f.keepsSolid_blend column row c) f

theorem keepsSolid_rect (f : Frame) (x y : Int) (w h : Nat) (c : Rgba) :
    f.KeepsSolid (rect f x y w h c) :=
  .foldl (fun f row _ => keepsSolid_span f row _ _ c) f

theorem keepsSolid_disc (f : Frame) (center : Pixel) (radius : Int) (c : Rgba) :
    f.KeepsSolid (disc f center radius c) := by
  simp only [disc]
  split
  · exact .refl f
  · exact .foldl (fun f row _ => keepsSolid_span f row _ _ c) f

theorem Line.keepsSolid_draw (l : Line) (f : Frame) (c : Rgba) : f.KeepsSolid (l.draw f c) :=
  .foldl (fun f p _ => f.keepsSolid_plot p c) f

theorem Line.keepsSolid_drawThick (l : Line) (f : Frame) (thickness : Nat) (c : Rgba) :
    f.KeepsSolid (l.drawThick f thickness c) :=
  (l.keepsSolid_draw f c).trans
    (.foldl (fun f offset _ => (l.shift offset.1 offset.2).keepsSolid_draw f c) _)

theorem keepsSolid_glyph (f : Frame) (g : Glyph) (x y : Int) (c : Rgba) :
    f.KeepsSolid (glyph f g x y c) := by
  refine .foldl (fun f dot _ => ?_) f
  dsimp only
  split
  · exact f.keepsSolid_plot _ c
  · exact .refl f

theorem keepsSolid_glyphs (f : Frame) (text : List Char) (x y : Int) (c : Rgba) :
    f.KeepsSolid (glyphs f text x y c) := by
  induction text generalizing f x with
  | nil => exact .refl f
  | cons ch rest ih =>
    simp only [glyphs]
    split
    · exact .refl f
    · exact (keepsSolid_glyph f _ x y c).trans (ih _ _)

theorem keepsSolid_label (f : Frame) (text : List Char) (at_ : Pixel) (c : Rgba) :
    f.KeepsSolid (label f text at_ c) := by
  simp only [label]
  split
  · exact .refl f
  · exact (keepsSolid_rect f _ _ _ _ _).trans (keepsSolid_glyphs _ text _ _ c)

end Draw

/-! ### Scenes -/

namespace Scene

variable {style : SceneStyle} {f : Frame}

theorem keepsSolid_drawGrid (style : SceneStyle) (view : Projection) (f : Frame) (plane : GridPlane) :
    f.KeepsSolid (drawGrid style view f plane) :=
  .foldl (fun f l _ => l.keepsSolid_draw f _) f

theorem keepsSolid_drawAxis (style : SceneStyle) (view : Projection) (origin : Pixel) (f : Frame)
    (axis : Axis) : f.KeepsSolid (drawAxis style view origin f axis) := by
  simp only [drawAxis]
  split
  · exact .refl f
  · exact (Draw.Line.keepsSolid_drawThick _ f _ _).trans (Draw.keepsSolid_label _ _ _ _)

theorem keepsSolid_drawAxes (style : SceneStyle) (view : Projection) (f : Frame) :
    f.KeepsSolid (drawAxes style view f) := by
  simp only [drawAxes]
  split
  · exact .refl f
  · exact .foldl (fun f axis _ => keepsSolid_drawAxis style view _ f axis) f

theorem keepsSolid_drawPoint (style : SceneStyle) (view : Projection) (pointer : Option Pixel)
    (f : Frame) (p : Point) : f.KeepsSolid (drawPoint style view pointer f p) := by
  simp only [drawPoint]
  split
  · exact .refl f
  · rename_i at_ place
    have marked : f.KeepsSolid (drawMarker style f at_) :=
      (Draw.keepsSolid_disc f at_ _ _).trans (Draw.keepsSolid_disc _ at_ _ _)
    split
    · exact marked
    · split
      · exact marked.trans (Draw.keepsSolid_label _ _ _ _)
      · exact marked

/-- After the background, nothing that a scene draws lets anything be seen through. -/
theorem keepsSolid_composeInto (style : SceneStyle) (f : Frame) (cloud : Cloud) (view : Projection)
    (pointer : Option Pointer) :
    (f.clear style.background).KeepsSolid (composeInto style f cloud view pointer) :=
  ((KeepsSolid.foldl (fun f plane _ => keepsSolid_drawGrid style _ f plane) _).trans
    (keepsSolid_drawAxes style _ _)).trans
      (.foldl (fun f p _ => keepsSolid_drawPoint style _ _ f p) _)

theorem solid_composeInto {x y : Nat} (covers : style.background.isOpaque = true)
    (blocks : blockBytes ∣ f.bytes.size) (held : f.Holds x y) (cloud : Cloud) (view : Projection)
    (pointer : Option Pointer) : (composeInto style f cloud view pointer).Solid x y :=
  (keepsSolid_composeInto style f cloud view pointer).kept x y (solid_clear covers blocks held)

end Scene

namespace Drawing

/-- The color that a drawing puts in the place of what was there; all others are laid over it. -/
def replacement? : Drawing → Option Rgba
  | clear c => some c
  | fillRect _ _ _ _ c => some c
  | set _ _ c => some c
  | scene style _ _ _ => some style.background
  | _ => none

theorem keepsSolid_draw {drawing : Drawing}
    (covers : ∀ c, drawing.replacement? = some c → c.isOpaque = true) (f : Frame) :
    f.KeepsSolid (drawing.draw f) := by
  cases drawing with
  | clear c => exact Frame.keepsSolid_clear (covers c rfl) f
  | fillRect x y w h c => exact Frame.keepsSolid_fillRect (covers c rfl) f x y w h
  | set x y c => exact Frame.keepsSolid_set (covers c rfl) f x y
  | blend x y c => exact f.keepsSolid_blend x y c
  | plot p c => exact f.keepsSolid_plot p c
  | line l c => exact l.keepsSolid_draw f c
  | thickLine l thickness c => exact l.keepsSolid_drawThick f thickness c
  | rect x y w h c => exact Draw.keepsSolid_rect f x y w h c
  | disc center radius c => exact Draw.keepsSolid_disc f center radius c
  | label text at_ c => exact Draw.keepsSolid_label f text at_ c
  | scene style cloud view pointer =>
    exact (Frame.keepsSolid_clear (covers _ rfl) f).trans
      (Scene.keepsSolid_composeInto style f cloud view pointer)

theorem keepsSolid_drawAll {drawings : List Drawing}
    (covers : ∀ drawing ∈ drawings, ∀ c, drawing.replacement? = some c → c.isOpaque = true)
    (f : Frame) : f.KeepsSolid (drawAll f drawings) :=
  .foldl (fun f drawing mem => keepsSolid_draw (covers drawing mem) f) f

/-- Frames stay opaque. Nothing is seen through a scene with an opaque background, whatever its other
colors are, and nothing is ever seen through a frame that only opaque colors have replaced pixels of,
whatever was laid over it. The sizes are all those that a scene has a frame of (`exists_compose_iff`). -/
theorem drawAll_isSolid :
    (∀ (style : SceneStyle) (cloud : Cloud) (view : Projection) (viewport : Viewport)
      (pointer : Option Pointer), Frame.Allocatable viewport.width viewport.height →
      style.background.isOpaque = true →
      ∃ frame, Scene.compose style cloud view viewport pointer = .ok frame ∧ frame.size = viewport ∧
        frame.IsSolid) ∧
    ∀ (start : Frame) (drawings : List Drawing),
      (∀ drawing ∈ drawings, ∀ c, drawing.replacement? = some c → c.isOpaque = true) →
      start.IsSolid → (drawAll start drawings).IsSolid := by
  constructor
  · intro style cloud view ⟨width, height⟩ pointer made covers
    obtain ⟨start, new⟩ := exists_new? made
    have size := size_of_new? new
    have alike := Scene.alike_composeInto style start cloud view pointer
    have composed : Scene.compose style cloud view ⟨width, height⟩ pointer =
        .ok (Scene.composeInto style start cloud view pointer) := by
      rw [Scene.compose, new]
      rfl
    have solid (x y : Nat) (held : start.Holds x y) :=
      Scene.solid_composeInto covers (layout_of_new? new).1 held cloud view pointer
    cases size
    refine ⟨_, composed, alike.size, fun x y hx hy => ?_⟩
    rw [alike.width] at hx
    rw [alike.height] at hy
    exact solid x y (holds_of_new? new hx hy)
  · intro start drawings covers solid x y hx hy
    have alike := alike_drawAll start drawings
    rw [alike.width] at hx
    rw [alike.height] at hy
    exact (keepsSolid_drawAll covers start).kept x y (solid x y hx hy)

theorem drawAll_isSolid_faint :
    ∃ frame, Scene.compose { SceneStyle.default with pointColor := ⟨255, 0, 0, 1⟩ } [.origin] .default
        ⟨3, 2⟩ none = .ok frame ∧ frame.IsSolid ∧
      (drawAll frame [.set 1 1 .blue, .disc ⟨1, 1⟩ 1 ⟨0, 0, 0, 128⟩]).IsSolid := by
  obtain ⟨composed, drawn⟩ := drawAll_isSolid
  obtain ⟨frame, eq, -, solid⟩ := composed { SceneStyle.default with pointColor := ⟨255, 0, 0, 1⟩ }
    [.origin] .default ⟨3, 2⟩ none (by decide) (by decide)
  refine ⟨frame, eq, solid, drawn _ _ ?_ solid⟩
  decide

end Drawing

end PointScope
