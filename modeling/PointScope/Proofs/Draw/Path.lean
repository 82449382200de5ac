import PointScope.Proofs.Draw.Line
import Mathlib.Data.List.Range

/-! The path of a line, told along its longer axis and across it. Every step moves it on by one pixel
along the longer axis and by at most one across, to the pixel nearest to the ideal line; so the path has
no gaps, and its last step lands on the far end. -/
namespace PointScope.Draw

variable {i minor major o : Nat}

/-! ### Offsets -/

/-- An offset is the rounded one if it is less than half a pixel before the ideal line and at most half a
pixel beyond it. -/
theorem minorOffset_eq_iff (moves : 0 < major) :
    minorOffset i minor major = o ↔
      2 * (o * major) ≤ 2 * (i * minor) + major ∧ 2 * (i * minor) < 2 * (o * major) + major := by
  have double : o * (2 * major) = 2 * (o * major) := Nat.mul_left_comm o 2 major
  rw [minorOffset, if_neg (Nat.ne_of_gt moves), Nat.mul_assoc, Nat.div_eq_iff (by omega), double]
  omega

theorem minorOffset_bounds (i minor : Nat) (moves : 0 < major) :
    2 * (minorOffset i minor major * major) ≤ 2 * (i * minor) + major ∧
      2 * (i * minor) < 2 * (minorOffset i minor major * major) + major :=
  (minorOffset_eq_iff moves).mp rfl

/-- Each step keeps the offset or adds one to it, by the side of the ideal line on which the point half a
pixel further lies. -/
theorem minorOffset_succ (moves : 0 < major) (shorter : minor ≤ major) :
    minorOffset (i + 1) minor major = minorOffset i minor major +
      if (2 * minorOffset i minor major + 1) * major ≤ 2 * (i + 1) * minor then 1 else 0 := by
  obtain ⟨low, high⟩ := minorOffset_bounds i minor moves
  generalize minorOffset i minor major = o at *
  have half : (2 * o + 1) * major = 2 * (o * major) + major := by
    rw [Nat.succ_mul, Nat.mul_assoc]
  have next : (i + 1) * minor = i * minor + minor := Nat.succ_mul i minor
  rw [half, Nat.mul_assoc, minorOffset_eq_iff moves, next]
  split
  · rw [Nat.succ_mul o major]
    omega
  · rw [Nat.add_zero]
    omega

theorem minorOffset_zero (minor major : Nat) : minorOffset 0 minor major = 0 := by
  rw [minorOffset]
  split
  · rfl
  · rw [Nat.mul_zero, Nat.zero_mul, Nat.zero_add]
    exact Nat.div_eq_of_lt (by omega)

theorem minorOffset_self (shorter : minor ≤ major) : minorOffset major minor major = minor := by
  rcases Nat.eq_zero_or_pos major with rfl | moves
  · rw [Nat.le_zero.mp shorter]
    rfl
  · rw [minorOffset_eq_iff moves, Nat.mul_comm minor]
    omega

namespace Line

variable (l : Line) {p q : Pixel}

/-! ### Axes -/

/-- The distance of the ends along the shorter axis. -/
def shorter : Nat := min l.dx l.dy

/-- The coordinate of a pixel along the longer axis of the line. -/
def along (p : Pixel) : Int := if l.isFlat then p.x else p.y

/-- The coordinate of a pixel along the shorter axis of the line. -/
def across (p : Pixel) : Int := if l.isFlat then p.y else p.x

def forward : Int := heading (l.along l.start) (l.along l.stop)

def sideways : Int := heading (l.across l.start) (l.across l.stop)

theorem shorter_le_length : l.shorter ≤ l.length := Nat.le_trans (Nat.min_le_left ..) (Nat.le_max_left ..)

theorem eq_of_axes {l : Line} (same : l.along p = l.along q) (same' : l.across p = l.across q) : p = q := by
  obtain ⟨x, y⟩ := p
  obtain ⟨x', y'⟩ := q
  simp only [along, across] at same same'
  rw [Pixel.mk.injEq]
  by_cases flat : l.isFlat = true
  · rw [if_pos flat, if_pos flat] at same same'
    exact ⟨same, same'⟩
  · rw [if_neg flat, if_neg flat] at same same'
    exact ⟨same', same⟩

theorem pixel_axes (i : Nat) :
    l.along (l.pixel i) = l.along l.start + l.forward * i ∧
      l.across (l.pixel i) = l.across l.start + l.sideways * minorOffset i l.shorter l.length := by
  simp only [along, across, forward, sideways, pixel, shorter, length]
  by_cases flat : l.isFlat = true
  · have longer := of_decide_eq_true flat
    simp only [if_pos flat, Nat.max_eq_left longer, Nat.min_eq_right longer, and_self]
  · have longer := (Nat.not_le.mp (of_decide_eq_false (Bool.eq_false_iff.mpr flat))).le
    simp only [if_neg flat, Nat.max_eq_right longer, Nat.min_eq_left longer, and_self]

theorem along_pixel (i : Nat) : l.along (l.pixel i) = l.along l.start + l.forward * i :=
  (l.pixel_axes i).1

theorem across_pixel (i : Nat) :
    l.across (l.pixel i) = l.across l.start + l.sideways * minorOffset i l.shorter l.length :=
  (l.pixel_axes i).2

theorem heading_mul_natAbs (start stop : Int) :
    start + heading start stop * (stop - start).natAbs = stop := by
  simp only [heading]
  split <;> omega

theorem natAbs_axes : (l.along l.stop - l.along l.start).natAbs = l.length ∧
    (l.across l.stop - l.across l.start).natAbs = l.shorter := by
  simp only [along, across, shorter, length]
  by_cases flat : l.isFlat = true
  · have longer := of_decide_eq_true flat
    simp only [if_pos flat, Nat.max_eq_left longer, Nat.min_eq_right longer]
    exact ⟨rfl, rfl⟩
  · have longer := (Nat.not_le.mp (of_decide_eq_false (Bool.eq_false_iff.mpr flat))).le
    simp only [if_neg flat, Nat.max_eq_right longer, Nat.min_eq_left longer]
    exact ⟨rfl, rfl⟩

theorem pixel_zero : l.pixel 0 = l.start := by
  obtain ⟨along, across⟩ := l.pixel_axes 0
  rw [minorOffset_zero, Int.natCast_zero, Int.mul_zero, Int.add_zero] at across
  rw [Int.natCast_zero, Int.mul_zero, Int.add_zero] at along
  exact eq_of_axes along across

/-- The last step lands on the far end. -/
theorem pixel_length : l.pixel l.length = l.stop := by
  obtain ⟨along, across⟩ := l.pixel_axes l.length
  obtain ⟨longer, shorter⟩ := l.natAbs_axes
  rw [← longer, forward, heading_mul_natAbs] at along
  rw [minorOffset_self l.shorter_le_length, ← shorter, sideways, heading_mul_natAbs] at across
  exact eq_of_axes (longer ▸ along) across

/-! ### Paths -/

theorem pixels_getElem? (step : i ≤ l.length) : l.pixels[i]? = some (l.pixel i) := by
  rw [pixels, List.getElem?_map, List.getElem?_range (Nat.lt_succ_of_le step)]
  rfl

/-- Two pixels of a path that follow one another. -/
def Follows (p q : Pixel) : Prop :=
  l.along q = l.along p + l.forward ∧ (l.across q = l.across p ∨ l.across q = l.across p + l.sideways)

theorem add_mul_succ (start direction : Int) (n : Nat) :
    start + direction * (n + 1 : Nat) = start + direction * n + direction := by
  rw [Int.natCast_succ, Int.mul_add, Int.mul_one, Int.add_assoc]

theorem pixel_follows (step : i < l.length) : l.Follows (l.pixel i) (l.pixel (i + 1)) := by
  have moves : 0 < l.length := Nat.zero_lt_of_lt step
  have next := minorOffset_succ (i := i) moves l.shorter_le_length
  rw [Follows, along_pixel, along_pixel, across_pixel, across_pixel, next]
  refine ⟨add_mul_succ _ _ i, ?_⟩
  split
  · right
    exact add_mul_succ _ _ _
  · left
    rfl

theorem isChain_pixels : l.pixels.IsChain l.Follows := by
  refine (List.isChain_map l.pixel).mpr ((List.isChain_range _ _).mpr fun i step => ?_)
  exact l.pixel_follows (Nat.lt_of_lt_of_eq step (Nat.add_sub_cancel ..))

/-- A path takes one pixel of every column, or row, between its ends. -/
theorem existsUnique_along {n : Int} (since : min (l.along l.start) (l.along l.stop) ≤ n)
    (upto : n ≤ max (l.along l.start) (l.along l.stop)) : ∃! p, p ∈ l.pixels ∧ l.along p = n := by
  have longer := l.natAbs_axes.1
  have unit := heading_cases (l.along l.start) (l.along l.stop)
  have place : n = l.along l.start + l.forward * (n - l.along l.start).natAbs := by
    simp only [forward, heading]
    split <;> omega
  refine ⟨l.pixel (n - l.along l.start).natAbs, ⟨?_, ?_⟩, ?_⟩
  · exact List.mem_map_of_mem (List.mem_range.mpr (by omega))
  · rw [along_pixel, ← place]
  · rintro _ ⟨mem, at_n⟩
    obtain ⟨i, _, rfl⟩ := List.mem_map.mp mem
    rw [along_pixel, forward] at at_n
    have step : i = (n - l.along l.start).natAbs := by
      rcases unit with ahead | back
      · rw [ahead] at at_n
        omega
      · rw [back] at at_n
        omega
    rw [step]

/-- The offset of each step is within half a pixel of the ideal line, and half a pixel away from the start
where two are as near. -/
theorem minorOffset_near (i : Nat) :
    2 * (minorOffset i l.shorter l.length * l.length - i * l.shorter : Int).natAbs ≤ l.length ∧
      (2 * (minorOffset i l.shorter l.length * l.length - i * l.shorter : Int).natAbs = l.length →
        2 * (minorOffset i l.shorter l.length * l.length - i * l.shorter : Int) = l.length) := by
  rcases Nat.eq_zero_or_pos l.length with point | moves
  · have none : l.shorter = 0 := Nat.le_zero.mp (point ▸ l.shorter_le_length)
    rw [point, none]
    omega
  · obtain ⟨low, high⟩ := minorOffset_bounds i l.shorter moves
    rw [← Int.natCast_mul, ← Int.natCast_mul]
    omega

/-- A line between two pixels of a frame is plotted in full and each of its pixels once, one for each
step along its longer axis. Its path begins at one end and reaches the other without leaving the box
between them: each step goes on by one pixel along the longer axis and by none or one, towards the end,
across it. After each step the offset across is within half a pixel of the ideal line, and where two
offsets are as near it is the one away from the start. -/
theorem draw_joins (f : Frame) (c : Rgba) (start : f.contains l.start = true)
    (stop : f.contains l.stop = true) :
    (l.visited f = l.pixels ∧ l.pixels.Nodup ∧ l.pixels.length = max l.dx l.dy + 1 ∧
      (∀ p ∈ l.pixels, f.contains p = true) ∧
      ∀ x y, f.Holds x y → (l.draw f c).pixel? x y =
        if ⟨x, y⟩ ∈ l.pixels then (f.pixel? x y).map c.covering else f.pixel? x y) ∧
    (l.pixels.head? = some l.start ∧ l.pixels.getLast? = some l.stop) ∧
    (∀ p ∈ l.pixels, (min l.start.x l.stop.x ≤ p.x ∧ p.x ≤ max l.start.x l.stop.x) ∧
      min l.start.y l.stop.y ≤ p.y ∧ p.y ≤ max l.start.y l.stop.y) ∧
    (∀ n, min (l.along l.start) (l.along l.stop) ≤ n → n ≤ max (l.along l.start) (l.along l.stop) →
      ∃! p, p ∈ l.pixels ∧ l.along p = n) ∧
    l.pixels.IsChain (fun p q => l.along q = l.along p + l.forward ∧
      (l.across q = l.across p ∨ l.across q = l.across p + l.sideways)) ∧
    ∀ i ≤ l.length, ∃ (p : Pixel) (o : Nat), l.pixels[i]? = some p ∧
      l.along p = l.along l.start + l.forward * i ∧
      l.across p = l.across l.start + l.sideways * o ∧
      2 * (o * l.length - i * l.shorter : Int).natAbs ≤ l.length ∧
      (2 * (o * l.length - i * l.shorter : Int).natAbs = l.length →
        2 * (o * l.length - i * l.shorter : Int) = l.length) := by
  have inside := contains_of_mem_pixels start stop
  refine ⟨⟨visited_eq_pixels inside, l.pixels_nodup, ?_, inside, ?_⟩, ⟨?_, ?_⟩, ?_, ?_, ?_, ?_⟩
  · rw [pixels, List.length_map, List.length_range, length]
  · intro x y held
    rw [draw_eq_plotAll, Frame.pixel?_plotAll_of_nodup l.pixels_nodup held]
  · rw [List.head?_eq_getElem?, l.pixels_getElem? (Nat.zero_le _), pixel_zero]
  · rw [pixels, List.getLast?_map, List.getLast?_range, if_neg (Nat.succ_ne_zero _),
      Nat.add_sub_cancel, Option.map_some, pixel_length]
  · intro p mem
    obtain ⟨i, step, rfl⟩ := List.mem_map.mp mem
    exact l.pixel_between (Nat.le_of_lt_succ (List.mem_range.mp step))
  · intro n low high
    exact l.existsUnique_along low high
  · exact l.isChain_pixels
  · intro i step
    obtain ⟨near, tie⟩ := l.minorOffset_near i
    exact ⟨l.pixel i, _, l.pixels_getElem? step, l.along_pixel i, l.across_pixel i, near, tie⟩

/-- The middle of three pixels lies half a pixel from the ideal line on both sides, and goes away from
the start. -/
theorem draw_joins_tie :
    ∃ f, Frame.new? 3 2 = .ok f ∧
      f.contains ⟨2, 1⟩ = true ∧ f.contains ⟨0, 0⟩ = true ∧
      (Line.mk ⟨2, 1⟩ ⟨0, 0⟩).visited f = [⟨2, 1⟩, ⟨1, 0⟩, ⟨0, 0⟩] ∧
      ((Line.mk ⟨2, 1⟩ ⟨0, 0⟩).draw f .red).pixel? 1 0 = some .red ∧
      ((Line.mk ⟨2, 1⟩ ⟨0, 0⟩).draw f .red).pixel? 1 1 = f.pixel? 1 1 := by
  obtain ⟨f, new, _, _, held⟩ := Frame.exists_whole_new? (by decide : Frame.Allocatable 3 2)
  have start := (held 2 (by decide) 1 (by decide)).contains
  have stop := (held 0 (by decide) 0 (by decide)).contains
  obtain ⟨⟨visited, _, _, _, drawn⟩, _⟩ := draw_joins (Line.mk ⟨2, 1⟩ ⟨0, 0⟩) f .red start stop
  have path : (Line.mk ⟨2, 1⟩ ⟨0, 0⟩).pixels = [⟨2, 1⟩, ⟨1, 0⟩, ⟨0, 0⟩] := by decide
  have middle := held 1 (by decide) 0 (by decide)
  refine ⟨f, new, start, stop, visited.trans path, ?_, ?_⟩
  · rw [drawn 1 0 middle, if_pos (path ▸ by decide), Frame.pixel?_eq_some middle]
    rfl
  · rw [drawn 1 1 (held 1 (by decide) 1 (by decide)), if_neg (path ▸ by decide)]

end Line

end PointScope.Draw
