import PointScope.Draw.Label
import PointScope.Proofs.Draw.Area
import PointScope.Proofs.Frame.Region

/-! Labels. A label changes only the rectangle of its backdrop: wherever its corner is, the glyphs
stand on the backdrop, unless the text is wider than the range of pixel coordinates. -/
namespace PointScope

namespace Draw

theorem alike_glyph (f : Frame) (g : Glyph) (x y : Int) (c : Rgba) : f.Alike (glyph f g x y c) := by
  refine .foldl (fun f dot => ?_) _ f
  dsimp only
  split
  · exact f.alike_plot _ c
  · exact .refl f

theorem alike_glyphs (f : Frame) (text : List Char) (x y : Int) (c : Rgba) :
    f.Alike (glyphs f text x y c) := by
  induction text generalizing f x with
  | nil => exact .refl f
  | cons ch rest ih =>
    simp only [glyphs]
    split
    · exact .refl f
    · exact (alike_glyph f _ x y c).trans (ih _ _)

theorem alike_label (f : Frame) (text : List Char) (at_ : Pixel) (c : Rgba) :
    f.Alike (label f text at_ c) := by
  simp only [label]
  split
  · exact .refl f
  · exact (alike_rect f _ _ _ _ _).trans (alike_glyphs _ text _ _ c)

/-! ### Rectangles -/

variable {region : Pixel → Prop}

theorem changesOnly_rect {x y : Int} {w h : Nat}
    (within : ∀ p : Pixel, x ≤ p.x → p.x < x + w → y ≤ p.y → p.y < y + h → region p) (f : Frame)
    (c : Rgba) : Frame.ChangesOnly region f (rect f x y w h c) := by
  rw [rect_eq_plotAll]
  apply Frame.changesOnly_plotAll
  intro p mem
  obtain ⟨_, ⟨left, right⟩, top, bottom⟩ := contains_of_mem_rectPixels mem
  exact within p left right top bottom

/-! ### Glyphs -/

theorem length_rows_ofChar (ch : Char) : (Glyph.ofChar ch).rows.length = Glyph.height := by
  unfold Glyph.ofChar
  split <;> rfl

theorem lt_of_mem_dots {ch : Char} {dx dy : Nat} (mem : (dx, dy) ∈ (Glyph.ofChar ch).dots) :
    dx < Glyph.width ∧ dy < Glyph.height := by
  obtain ⟨⟨row, i⟩, mem_row, mem_dot⟩ := List.mem_flatMap.mp mem
  obtain ⟨column, mem_column, same⟩ := List.mem_map.mp mem_dot
  cases same
  constructor
  · exact List.mem_range.mp (List.mem_filter.mp mem_column).1
  · have := List.snd_lt_of_mem_zipIdx mem_row
    rwa [length_rows_ofChar, Nat.add_zero] at this

theorem changesOnly_glyph {ch : Char} {x y : Int}
    (within : ∀ dx < Glyph.width, ∀ dy < Glyph.height, region ⟨x + dx, y + dy⟩) (f : Frame)
    (c : Rgba) : Frame.ChangesOnly region f (glyph f (.ofChar ch) x y c) := by
  apply Frame.ChangesOnly.foldl
  rintro f ⟨dx, dy⟩ mem
  obtain ⟨wide, tall⟩ := lt_of_mem_dots mem
  dsimp only
  split
  · exact Frame.changesOnly_plot (within dx wide dy tall) f c
  · exact .refl f

theorem changesOnly_glyphs {text : List Char} {x y : Int}
    (within : ∀ k < text.length, ∀ dx < Glyph.width, ∀ dy < Glyph.height,
      region ⟨x + Glyph.advance * k + dx, y + dy⟩) (f : Frame) (c : Rgba) :
    Frame.ChangesOnly region f (glyphs f text x y c) := by
  induction text generalizing f x with
  | nil => exact .refl f
  | cons ch rest ih =>
    simp only [glyphs]
    split
    · exact .refl f
    · refine (changesOnly_glyph ?_ f c).trans (ih ?_ _)
      · intro dx wide dy tall
        have first := within 0 (Nat.zero_lt_succ _) dx wide dy tall
        rwa [Int.natCast_zero, Int.mul_zero, Int.add_zero] at first
      · intro k bound dx wide dy tall
        have next := within (k + 1) (Nat.succ_lt_succ bound) dx wide dy tall
        rwa [Int.natCast_succ, Int.mul_add, Int.mul_one, Int.add_comm (_ * _),
          ← Int.add_assoc] at next

/-! ### Backdrops -/

/-- A pixel is on the backdrop of a text. -/
def OnBackdrop (text : List Char) (at_ p : Pixel) : Prop :=
  let left := Screen.saturate (at_.x - labelPadding)
  let top := Screen.saturate (at_.y - labelPadding)
  (left ≤ p.x ∧ p.x < left + (textWidth text + 3 * labelPadding : Nat)) ∧
    top ≤ p.y ∧ p.y < top + (Glyph.height + 2 * labelPadding : Nat)

/-- The glyphs stand on the backdrop, also where an end of the range of pixel coordinates stops the
backdrop from reaching beyond the text. -/
theorem changesOnly_label {text : List Char} {at_ : Pixel}
    (short : text.length * Glyph.advance ≤ Screen.greatest)
    (inside : (Screen.least ≤ at_.x ∧ at_.x ≤ Screen.greatest) ∧
      Screen.least ≤ at_.y ∧ at_.y ≤ Screen.greatest) (f : Frame) (c : Rgba) :
    Frame.ChangesOnly (OnBackdrop text at_) f (label f text at_ c) := by
  simp only [label]
  split
  · exact .refl f
  · refine (changesOnly_rect ?_ f backdrop).trans (changesOnly_glyphs ?_ _ c)
    · intro p left right top bottom
      exact ⟨⟨left, right⟩, top, bottom⟩
    · intro k bound dx wide dy tall
      simp only [OnBackdrop, textWidth]
      simp only [Screen.saturate, Screen.least, Screen.greatest, Glyph.width, Glyph.height,
        Glyph.advance, labelPadding] at *
      omega

end Draw

end PointScope
