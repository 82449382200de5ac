import PointScope.Draw.Line
import PointScope.Proofs.Frame.Pixels
import Mathlib.Data.List.Sort

/-! Clipping of lines. The steps a line takes inside a frame are exactly those whose pixels the
frame contains, so drawing only them is drawing the whole line and dropping what lies outside. -/
namespace PointScope.Draw

theorem heading_cases (start stop : Int) : heading start stop = 1 ∨ heading start stop = -1 := by
  simp only [heading]
  split <;> simp

/-- The window of steps along one axis, in either direction, is all steps that land in range. -/
theorem visibleSteps_eq_filter {direction : Int} (unit : direction = 1 ∨ direction = -1)
    (start : Int) (length limit : Nat) :
    visibleSteps start direction length limit = (List.range (length + 1)).filter fun (i : Nat) =>
      decide (0 ≤ start + direction * i ∧ start + direction * i < limit) := by
  apply List.Pairwise.eq_of_mem_iff (r := (· < ·))
  · exact List.pairwise_lt_range'
  · exact List.pairwise_lt_range.filter _
  · intro i
    simp only [visibleSteps, List.mem_range'_1, List.mem_filter, List.mem_range, decide_eq_true_eq]
    rcases unit with rfl | rfl
    · simp only [Int.one_mul, Int.zero_lt_one, if_true]
      omega
    · simp only [show ¬(0 : Int) < -1 by decide, if_false]
      omega

/-- Rounding never carries the shorter axis beyond its end. -/
theorem minorOffset_le {i major : Nat} (minor : Nat) (step : i ≤ major) :
    minorOffset i minor major ≤ minor := by
  simp only [minorOffset]
  split
  · exact Nat.zero_le _
  · have walked := Nat.mul_le_mul_right minor step
    rw [Nat.div_le_iff_le_mul_add_pred (by omega)]
    calc 2 * i * minor + major = 2 * (i * minor) + major := by rw [Nat.mul_assoc]
      _ ≤ 2 * (major * minor) + (2 * major - 1) := by omega
      _ = 2 * major * minor + (2 * major - 1) := by rw [Nat.mul_assoc]

namespace Line

variable (l : Line)

/-- A coordinate that moves from a start towards a stop, by at most the distance, stays between
them. -/
theorem between_of_le_natAbs {start stop : Int} {n : Nat} (h : n ≤ (stop - start).natAbs) :
    min start stop ≤ start + heading start stop * n ∧
      start + heading start stop * n ≤ max start stop := by
  simp only [heading]
  split <;> omega

/-- The pixels of the line stay in the box of its ends, so they are pixel coordinates if the ends
are. -/
theorem pixel_between {i : Nat} (step : i ≤ l.length) :
    (min l.start.x l.stop.x ≤ (l.pixel i).x ∧ (l.pixel i).x ≤ max l.start.x l.stop.x) ∧
      min l.start.y l.stop.y ≤ (l.pixel i).y ∧ (l.pixel i).y ≤ max l.start.y l.stop.y := by
  simp only [pixel]
  simp only [length] at step
  by_cases flat : l.isFlat = true
  · rw [if_pos flat]
    rw [isFlat, decide_eq_true_eq] at flat
    rw [Nat.max_eq_left flat] at step
    exact ⟨between_of_le_natAbs step, between_of_le_natAbs (minorOffset_le _ step)⟩
  · rw [if_neg flat]
    rw [isFlat, decide_eq_true_eq, Nat.not_le] at flat
    rw [Nat.max_eq_right flat.le] at step
    exact ⟨between_of_le_natAbs (minorOffset_le _ step), between_of_le_natAbs step⟩

/-- A line beside a frame has no pixel in it. -/
theorem not_contains_of_isBeside {f : Frame} (beside : l.isBeside f = true) {p : Pixel}
    (mem : p ∈ l.pixels) : f.contains p = false := by
  obtain ⟨i, step, rfl⟩ := List.mem_map.mp mem
  have box := l.pixel_between (Nat.le_of_lt_succ (List.mem_range.mp step))
  rw [Bool.eq_false_iff, ne_eq, Frame.contains_iff]
  simp only [isBeside, Bool.or_eq_true, decide_eq_true_eq] at beside
  omega

/-- Whether the line is inside a frame along its longer axis after some steps. -/
def reaches (f : Frame) (i : Nat) : Bool :=
  if l.isFlat then decide (0 ≤ (l.pixel i).x ∧ (l.pixel i).x < f.width.toNat)
  else decide (0 ≤ (l.pixel i).y ∧ (l.pixel i).y < f.height.toNat)

theorem steps_eq_filter (f : Frame) :
    l.steps f = (List.range (l.length + 1)).filter (l.reaches f) := by
  simp only [steps, length]
  by_cases flat : l.isFlat = true
  · have longer := flat
    rw [isFlat, decide_eq_true_eq] at longer
    rw [if_pos flat, visibleSteps_eq_filter (heading_cases _ _), Nat.max_eq_left longer]
    refine List.filter_congr fun i _ => ?_
    simp only [reaches, pixel, if_pos flat]
  · have longer := flat
    rw [isFlat, decide_eq_true_eq, Nat.not_le] at longer
    rw [if_neg flat, visibleSteps_eq_filter (heading_cases _ _), Nat.max_eq_right longer.le]
    refine List.filter_congr fun i _ => ?_
    simp only [reaches, pixel, if_neg flat]

theorem contains_pixel (f : Frame) (i : Nat) :
    f.contains (l.pixel i) = (l.lands f (l.pixel i) && l.reaches f i) := by
  rw [Bool.eq_iff_iff, Frame.contains_iff, Bool.and_eq_true, lands, reaches]
  by_cases flat : l.isFlat = true
  · simp only [if_pos flat, decide_eq_true_eq]
    omega
  · simp only [if_neg flat, decide_eq_true_eq]
    omega

/-- Drawing visits the pixels of the line that the frame contains, in order. -/
theorem visited_eq_filter (f : Frame) : l.visited f = l.pixels.filter f.contains := by
  simp only [visited]
  by_cases beside : l.isBeside f = true
  · rw [if_pos beside, eq_comm, List.filter_eq_nil_iff]
    intro p mem
    rw [l.not_contains_of_isBeside beside mem]
    exact Bool.false_ne_true
  · rw [if_neg beside, steps_eq_filter, pixels, List.filter_map, List.filter_map, List.filter_filter]
    exact congrArg (List.map l.pixel) (List.filter_congr fun i _ => (l.contains_pixel f i).symm)

/-- A line between two pixels of a frame stays in the frame. -/
theorem contains_of_mem_pixels {l : Line} {f : Frame} (start : f.contains l.start = true)
    (stop : f.contains l.stop = true) :
    ∀ p ∈ l.pixels, f.contains p = true := by
  intro p mem
  obtain ⟨i, step, rfl⟩ := List.mem_map.mp mem
  have box := l.pixel_between (Nat.le_of_lt_succ (List.mem_range.mp step))
  rw [Frame.contains_iff] at start stop ⊢
  omega

/-- Clipping drops nothing of a line that stays in the frame. -/
theorem visited_eq_pixels {l : Line} {f : Frame} (inside : ∀ p ∈ l.pixels, f.contains p = true) :
    l.visited f = l.pixels := by
  rw [visited_eq_filter, List.filter_eq_self]
  exact inside

/-- Clipping changes nothing: drawing a line is plotting all of its pixels. -/
theorem draw_eq_plotAll (f : Frame) (c : Rgba) : l.draw f c = f.plotAll l.pixels c := by
  rw [draw, visited_eq_filter, Frame.plotAll_filter]

theorem alike_draw (f : Frame) (c : Rgba) : f.Alike (l.draw f c) := f.alike_plotAll _ c

theorem alike_drawThick (f : Frame) (thickness : Nat) (c : Rgba) :
    f.Alike (l.drawThick f thickness c) := by
  simp only [drawThick]
  refine (l.alike_draw f c).trans ?_
  refine .foldl ?_ _ _
  rintro g ⟨dx, dy⟩
  exact (l.shift dx dy).alike_draw g c

/-- The line takes no pixel twice, since every step moves it along its longer axis. -/
theorem pixels_nodup : l.pixels.Nodup := by
  apply List.Nodup.map _ List.nodup_range
  intro i j same
  simp only [pixel] at same
  by_cases flat : l.isFlat = true
  · rw [if_pos flat, if_pos flat, Pixel.mk.injEq] at same
    obtain ⟨along, _⟩ := same
    rcases heading_cases l.start.x l.stop.x with right | left
    · rw [right] at along
      omega
    · rw [left] at along
      omega
  · rw [if_neg flat, if_neg flat, Pixel.mk.injEq] at same
    obtain ⟨_, along⟩ := same
    rcases heading_cases l.start.y l.stop.y with down | up
    · rw [down] at along
      omega
    · rw [up] at along
      omega

/-- Clipping is exact. Drawing a line is walking all of its steps in order, whatever the ends, the
frame and the color are: each step goes on by one pixel along the longer axis and stands, along the
shorter one, at the rounded offset. The pixels visited are those of the walk that the frame contains,
and a pixel on the line changes once, so a translucent color is laid over it once. -/
theorem draw_eq_walk (f : Frame) (c : Rgba) :
    let offset (i minor major : Nat) : Nat :=
      if major = 0 then 0 else (2 * i * minor + major) / (2 * major)
    let point (i : Nat) : Pixel :=
      if l.dy ≤ l.dx then
        ⟨l.start.x + heading l.start.x l.stop.x * i,
          l.start.y + heading l.start.y l.stop.y * offset i l.dy l.dx⟩
      else
        ⟨l.start.x + heading l.start.x l.stop.x * offset i l.dx l.dy,
          l.start.y + heading l.start.y l.stop.y * i⟩
    l.draw f c = (List.range (max l.dx l.dy + 1)).foldl (fun f i => f.plot (point i) c) f ∧
      l.pixels = (List.range (max l.dx l.dy + 1)).map point ∧
      l.visited f = l.pixels.filter f.contains ∧
      l.pixels.Nodup ∧
      (∀ p ∈ l.pixels, (min l.start.x l.stop.x ≤ p.x ∧ p.x ≤ max l.start.x l.stop.x) ∧
        min l.start.y l.stop.y ≤ p.y ∧ p.y ≤ max l.start.y l.stop.y) ∧
      ∀ x y, f.Holds x y → (l.draw f c).pixel? x y =
        if ⟨x, y⟩ ∈ l.pixels then (f.pixel? x y).map c.covering else f.pixel? x y := by
  intro offset point
  have walked : l.pixels = (List.range (max l.dx l.dy + 1)).map point := by
    refine List.map_congr_left fun i _ => ?_
    simp only [pixel, isFlat, decide_eq_true_eq]
    rfl
  refine ⟨?_, walked, l.visited_eq_filter f, l.pixels_nodup, ?_, ?_⟩
  · rw [draw_eq_plotAll, Frame.plotAll, walked, List.foldl_map]
  · intro p mem
    obtain ⟨i, step, rfl⟩ := List.mem_map.mp mem
    exact l.pixel_between (Nat.le_of_lt_succ (List.mem_range.mp step))
  · intro x y held
    rw [draw_eq_plotAll, Frame.pixel?_plotAll_of_nodup l.pixels_nodup held]

end Line

end PointScope.Draw
