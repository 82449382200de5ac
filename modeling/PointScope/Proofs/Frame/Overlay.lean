import PointScope.Proofs.Color.Blend
import PointScope.Proofs.Draw.Area
import PointScope.Proofs.Frame.Clear

/-! Colors laid over the pixels of a frame. An opaque color is laid over a pixel as it is written to it, so
what plots and spans do for opaque colors instead of blending is no different from blending; and blending
changes one pixel only, to something between the two colors. -/
namespace PointScope

namespace Frame

variable {f : Frame} {x y : Nat} {c : Rgba}

/-! ### Two ways of drawing -/

theorem blend_eq_set (covers : c.isOpaque = true) (f : Frame) (x y : Nat) :
    f.blend x y c = f.set x y c := by
  simp only [blend, set, Rgba.onto_of_isOpaque covers]

/-- Writing back the color that was read leaves the buffer as it is. -/
theorem putColor_colorAt (f : Frame) (i : Nat) : putColor f.bytes i (f.colorAt i) = f.bytes := by
  have put_back : ∀ j, putByte f.bytes j (f.byte j) = f.bytes := by
    intro j
    refine eq_of_byteOf (size_putByte ..) fun k bound => ?_
    rw [byteOf_putByte]
    split
    · rename_i here
      rw [← here.1]
      rfl
    · rfl
  simp only [putColor, colorAt, put_back]

theorem blend_eq_self (clear : c.a = 0) (f : Frame) (x y : Nat) : f.blend x y c = f := by
  simp only [blend, Rgba.onto_of_clear clear, putColor_colorAt, ite_self]

theorem paint_eq_blend (f : Frame) (x y : Nat) (c : Rgba) : f.paint x y c = f.blend x y c := by
  unfold paint
  split
  · rename_i covers
    exact (blend_eq_set covers f x y).symm
  · rfl

end Frame

namespace Draw

/-- The columns of a span that a frame has. -/
def spanColumns (f : Frame) (first last : Int) : List Nat :=
  let lo := (max first 0).toNat
  let hi := min last ((f.width.toNat : Int) - 1)
  List.range' lo (hi + 1 - lo).toNat

theorem span_eq_foldl_blend {f : Frame} {row : Nat} (inside : row < f.height.toNat) (first last : Int)
    (c : Rgba) :
    span f row first last c =
      (spanColumns f first last).foldl (fun f column => f.blend column row c) f := by
  by_cases covers : c.isOpaque = true
  · rw [span_of_isOpaque inside first last covers]
    simp only [Frame.blend_eq_set covers]
    rfl
  · exact if_neg covers

end Draw

namespace Frame

variable {f : Frame} {x y : Nat} {c : Rgba}

/-! ### Other pixels -/

theorem pixel?_blend_of_ne {x' y' : Nat} (f : Frame) (c : Rgba) (other : ¬(x' = x ∧ y' = y)) :
    (f.blend x' y' c).pixel? x y = f.pixel? x y := by
  simp only [blend]
  split
  · rename_i inside
    exact pixel?_write_of_ne inside.1 (c.onto (f.colorAt (f.offset x' y'))) other
  · rfl

/-- Blending a color over a pixel of a frame: an opaque color is written, as plots and spans write it; a
fully transparent one leaves the frame; in between, the channels stay between those of the two colors and
the alpha is not below theirs. No other pixel changes. -/
theorem blend_spec (held : f.Holds x y) (c : Rgba) :
    (c.a = 255 → f.blend x y c = f.set x y c) ∧
    (c.a = 0 → f.blend x y c = f) ∧
    (∃ under mixed, f.pixel? x y = some under ∧ (f.blend x y c).pixel? x y = some mixed ∧
      (under.a ≠ 0 → Rgba.Between c.r under.r mixed.r ∧ Rgba.Between c.g under.g mixed.g ∧
        Rgba.Between c.b under.b mixed.b) ∧
      (c.a ≠ 0 → under.a = 0 → mixed.r = c.r ∧ mixed.g = c.g ∧ mixed.b = c.b) ∧
      c.a ≤ mixed.a ∧ under.a ≤ mixed.a) ∧
    (∀ x' y', ¬(x = x' ∧ y = y') → (f.blend x y c).pixel? x' y' = f.pixel? x' y') ∧
    f.plot ⟨x, y⟩ c = f.blend x y c ∧
    ∀ first last, Draw.span f y first last c =
      (Draw.spanColumns f first last).foldl (fun f column => f.blend column y c) f := by
  have read := pixel?_eq_some held
  have blended : (f.blend x y c).pixel? x y = some (c.onto (f.colorAt (f.offset x y))) := by
    rw [pixel?_blend held, if_pos ⟨rfl, rfl⟩, read, Option.map_some]
  refine ⟨fun full => ?_, fun clear => ?_, ?_, fun x' y' other => ?_, ?_, fun first last => ?_⟩
  · exact blend_eq_set (beq_iff_eq.mpr full) f x y
  · exact blend_eq_self clear f x y
  · refine ⟨_, _, read, blended, fun _ => Rgba.between_onto .., Rgba.onto_of_nothing, ?_⟩
    exact Rgba.le_alpha_onto ..
  · exact pixel?_blend_of_ne f c other
  · rw [Draw.plot_eq_paint held.1 held.2.1, paint_eq_blend]
  · exact Draw.span_eq_foldl_blend held.2.1 first last c

/-- Violet over a dark color of a new frame, and beside it a pixel where nothing is. -/
theorem blend_spec_violet :
    ∃ start mixed, new? 3 2 = .ok start ∧
      ((start.set 1 1 ⟨10, 20, 30, 128⟩).blend 1 1 ⟨200, 0, 60, 100⟩).pixel? 1 1 = some mixed ∧
      (Rgba.Between 200 10 mixed.r ∧ Rgba.Between 0 20 mixed.g ∧ Rgba.Between 60 30 mixed.b) ∧
      128 ≤ mixed.a ∧
      ((start.set 1 1 ⟨10, 20, 30, 128⟩).blend 1 1 ⟨200, 0, 60, 100⟩).pixel? 2 1 =
        start.pixel? 2 1 := by
  obtain ⟨start, new, -, -, holds⟩ := exists_whole_new? (by decide : Allocatable 3 2)
  have held := holds 1 (by decide) 1 (by decide)
  have alike := start.alike_set 1 1 ⟨10, 20, 30, 128⟩
  obtain ⟨-, -, ⟨under, mixed, read, blended, between, -, -, alpha⟩, others, -⟩ :=
    blend_spec (alike.holds.mpr held) ⟨200, 0, 60, 100⟩
  have color : (start.set 1 1 ⟨10, 20, 30, 128⟩).pixel? 1 1 = some ⟨10, 20, 30, 128⟩ := by
    rw [pixel?_set held, if_pos ⟨rfl, rfl⟩]
  have beside : (start.set 1 1 ⟨10, 20, 30, 128⟩).pixel? 2 1 = start.pixel? 2 1 := by
    rw [pixel?_set (holds 2 (by decide) 1 (by decide)), if_neg (by decide)]
  obtain rfl := Option.some.inj (read.symm.trans color)
  exact ⟨start, mixed, new, blended, between (by decide), alpha,
    (others 2 1 (by decide)).trans beside⟩

end Frame

end PointScope
