import Mathlib.Data.List.Basic
import PointScope.Grid.Sample
import PointScope.Proofs.Grid.Whole

/-! The visit of a grid. A walk along an axis only goes up and stays in its range, so the cells of a
grid are visited in order, none of them twice, and a cloud that is sampled over the grid has its
points in that order, one for each cell where the surface has a height. -/
namespace PointScope

namespace Grid

theorem less_trans {a b c : Float} (h : a < b) (h' : b < c) : a < c := by
  obtain ⟨⟨number, _⟩, less⟩ := lt_iff_rank_lt.mp h
  obtain ⟨⟨_, number'⟩, less'⟩ := lt_iff_rank_lt.mp h'
  exact lt_iff_rank_lt.mpr ⟨⟨number, number'⟩, Nat.lt_trans less less'⟩

theorem le_of_less {a b : Float} (h : a < b) : a ≤ b := by
  obtain ⟨numbers, less⟩ := lt_iff_rank_lt.mp h
  exact le_iff_rank_le.mpr ⟨numbers, Nat.le_of_lt less⟩

theorem le_refl_of_le {a b : Float} (h : a ≤ b) : a ≤ a := by
  obtain ⟨⟨number, _⟩, _⟩ := le_iff_rank_le.mp h
  exact le_iff_rank_le.mpr ⟨⟨number, number⟩, Nat.le_refl _⟩

/-- A walk only goes up, and does not leave its range. -/
theorem walk_ascends (inside : Float → Bool) (step v : Float) :
    (walk inside step v).Pairwise (· < ·) ∧
      ∀ w ∈ walk inside step v, inside w = true ∧ (w = v ∨ v < w) := by
  induction v using ahead_induction step with
  | _ v ih =>
    rw [walk_eq]
    by_cases here : inside v = true
    · rw [if_pos here]
      by_cases ahead : v < v + step
      · rw [if_pos ahead]
        obtain ⟨rising, reached⟩ := ih ahead
        have above : ∀ w ∈ walk inside step (v + step), v < w := by
          intro w mem
          obtain ⟨_, rfl | further⟩ := reached w mem
          · exact ahead
          · exact less_trans ahead further
        constructor
        · exact List.pairwise_cons.mpr ⟨above, rising⟩
        · intro w mem
          rcases List.mem_cons.mp mem with rfl | later
          · exact ⟨here, Or.inl rfl⟩
          · exact ⟨(reached w later).1, Or.inr (above w later)⟩
      · rw [if_neg ahead]
        constructor
        · exact List.pairwise_singleton _ v
        · intro w mem
          obtain rfl := List.mem_singleton.mp mem
          exact ⟨here, Or.inl rfl⟩
    · rw [if_neg here]
      exact ⟨List.Pairwise.nil, fun w mem => absurd mem List.not_mem_nil⟩

end Grid

/-! ### Cells -/

namespace SampleGrid

open Grid

theorem bounds_of_mem_axis {start stop step v : Float} (mem : v ∈ axis start stop step) :
    start ≤ v ∧ v ≤ stop := by
  obtain ⟨inside, reached⟩ := (walk_ascends _ step start).2 v mem
  have top : v ≤ stop := of_decide_eq_true inside
  cases reached with
  | inl first => exact ⟨first ▸ le_refl_of_le top, top⟩
  | inr above => exact ⟨le_of_less above, top⟩

theorem mem_cells {g : SampleGrid} {x y : Float} : (x, y) ∈ g.cells ↔ x ∈ g.xs ∧ y ∈ g.ys := by
  simp only [cells, List.mem_flatMap, List.mem_map, Prod.mk.injEq]
  constructor
  · rintro ⟨x', hx, y', hy, rfl, rfl⟩
    exact ⟨hx, hy⟩
  · rintro ⟨hx, hy⟩
    exact ⟨x, hx, y, hy, rfl, rfl⟩

/-- Cells in the order of a visit: by the first axis, and by the second where the first is equal. -/
def Before (c d : Float × Float) : Prop := c.1 < d.1 ∨ c.1 = d.1 ∧ c.2 < d.2

/-- A visit comes to each cell after all those before it, and so to none of them twice. -/
theorem cells_ascend (g : SampleGrid) : g.cells.Pairwise Before := by
  apply List.pairwise_flatMap.mpr
  constructor
  · intro x _
    apply List.pairwise_map.mpr
    apply (walk_ascends _ g.step g.yMin).1.imp
    intro y y' above
    exact Or.inr ⟨rfl, above⟩
  · apply (walk_ascends _ g.step g.xMin).1.imp
    intro x x' above c mem d mem'
    obtain ⟨y, _, rfl⟩ := List.mem_map.mp mem
    obtain ⟨y', _, rfl⟩ := List.mem_map.mp mem'
    exact Or.inl above

end SampleGrid

/-! ### Points -/

/-- The cell that a sampled point stands over. -/
def Point.cell (p : Point) : Float × Float := (p.x, p.z)

namespace Surface

variable {f h : Surface} {g : SampleGrid}

theorem pointAt?_of_ok {x y z : Float} (height : f x y = .ok z) :
    f.pointAt? x y = some ⟨x, z, y⟩ := by
  rw [pointAt?, height]

theorem pointAt?_of_error {x y : Float} {cause : Expr.Error} (gap : f x y = .error cause) :
    f.pointAt? x y = none := by
  rw [pointAt?, gap]

/-- The points stand over the cells where the surface has a height, each over one of its own. -/
theorem map_cell_sample (f : Surface) (g : SampleGrid) :
    (f.sample g).map Point.cell = g.cells.filter fun c => (f c.1 c.2).isOk := by
  rw [sample, List.map_filterMap, ← List.filterMap_eq_filter]
  apply List.filterMap_congr
  rintro ⟨x, y⟩ _
  cases at_cell : f x y with
  | ok z =>
    have kept : (f x y).isOk = true := by rw [at_cell]; rfl
    simp only [pointAt?_of_ok at_cell]
    exact (if_pos kept).symm
  | error cause =>
    have dropped : ¬(f x y).isOk = true := by rw [at_cell]; exact Bool.false_ne_true
    simp only [pointAt?_of_error at_cell]
    exact (if_neg dropped).symm

theorem bounds_of_mem_sample {p : Point} (mem : p ∈ f.sample g) :
    (g.xMin ≤ p.x ∧ p.x ≤ g.xMax) ∧ g.yMin ≤ p.z ∧ p.z ≤ g.yMax := by
  have cell : p.cell ∈ (f.sample g).map Point.cell := List.mem_map_of_mem mem
  rw [map_cell_sample] at cell
  obtain ⟨hx, hy⟩ := SampleGrid.mem_cells.mp (List.mem_filter.mp cell).1
  exact ⟨SampleGrid.bounds_of_mem_axis hx, SampleGrid.bounds_of_mem_axis hy⟩

/-- A surface that has fewer heights, but the same ones, loses the points of the cells where it
has none. -/
theorem sample_eq_filter
    (fewer : ∀ x ∈ g.xs, ∀ y ∈ g.ys, h x y = f x y ∨ ∃ cause, h x y = .error cause) :
    h.sample g = (f.sample g).filter fun p => (h p.x p.z).isOk := by
  rw [sample, sample, List.filter_filterMap]
  apply List.filterMap_congr
  rintro ⟨x, y⟩ mem
  obtain ⟨hx, hy⟩ := SampleGrid.mem_cells.mp mem
  cases fewer x hx y hy with
  | inl same =>
    cases at_cell : f x y with
    | ok z =>
      have kept : (h x y).isOk = true := by rw [same, at_cell]; rfl
      simp only [pointAt?_of_ok at_cell, pointAt?_of_ok (same.trans at_cell), Option.filter_some]
      exact (if_pos kept).symm
    | error cause =>
      simp only [pointAt?_of_error at_cell, pointAt?_of_error (same.trans at_cell)]
      rfl
  | inr lost =>
    obtain ⟨cause, lost⟩ := lost
    have dropped : ¬(h x y).isOk = true := by rw [lost]; exact Bool.false_ne_true
    cases at_cell : f x y with
    | ok z =>
      simp only [pointAt?_of_ok at_cell, pointAt?_of_error lost, Option.filter_some]
      exact (if_neg dropped).symm
    | error cause' =>
      simp only [pointAt?_of_error at_cell, pointAt?_of_error lost]
      rfl

/-- The points and the gaps are as many as the pairs of numbers on the axes. -/
theorem visited_of_axes {columns rows : Nat} (f : Surface) (xs : g.xs.length = columns)
    (ys : g.ys.length = rows) :
    (f.sample g).length + (f.gaps g).length = columns * rows ∧
      g.cellCount = min (columns * rows) (UInt64.size - 1) := by
  rw [length_sample_add_gaps, SampleGrid.length_cells, SampleGrid.cellCount_eq, xs, ys]
  exact ⟨rfl, rfl⟩

/-- Sampling visits every cell of a grid once, in order, and leaves out just the cells where the
surface has no height. The points and the gaps together are the cells; their number is given in a
word of 64 bits, and stops at the greatest one. -/
theorem sample_visits (f : Surface) (g : SampleGrid) :
    f.sample g =
        (g.xs.flatMap fun x => g.ys.filterMap fun y => (f x y).toOption.map fun z => ⟨x, z, y⟩) ∧
      ((f.sample g).map Point.cell).Pairwise SampleGrid.Before ∧
      (∀ p ∈ f.sample g, (g.xMin ≤ p.x ∧ p.x ≤ g.xMax) ∧ g.yMin ≤ p.z ∧ p.z ≤ g.yMax) ∧
      (f.sample g).length + (f.gaps g).length = g.xs.length * g.ys.length ∧
      g.cellCount = min ((f.sample g).length + (f.gaps g).length) (UInt64.size - 1) ∧
      ∀ h : Surface,
        (∀ x ∈ g.xs, ∀ y ∈ g.ys, h x y = f x y ∨ ∃ cause, h x y = .error cause) →
          h.sample g = (f.sample g).filter fun p => (h p.x p.z).isOk := by
  obtain ⟨visited, counted⟩ := visited_of_axes f (g := g) rfl rfl
  refine ⟨?_, ?_, fun p mem => bounds_of_mem_sample mem, visited, ?_,
    fun h fewer => sample_eq_filter fewer⟩
  · rw [sample, SampleGrid.cells, List.filterMap_flatMap]
    apply congrArg fun row => List.flatMap row g.xs
    funext x
    rw [List.filterMap_map]
    apply congrArg fun point => List.filterMap point g.ys
    funext y
    cases at_cell : f x y with
    | ok z => exact pointAt?_of_ok at_cell
    | error cause => exact pointAt?_of_error at_cell
  · rw [map_cell_sample]
    exact g.cells_ascend.filter _
  · rw [visited, counted]

/-- A sum over the unit square, with a gap on the left edge and without. -/
theorem sample_visits_unit_square :
    ∃ g, SampleGrid.new? 0.0 1.0 0.0 1.0 1.0 = .ok g ∧
      sample (fun x y => if x < 1.0 then .error (.arithmetic .divisionByZero) else .ok (x + y)) g =
        (sample (fun x y => .ok (x + y)) g).filter fun p =>
          (if p.x < 1.0 then .error (.arithmetic .divisionByZero) else .ok (p.x + p.z) :
            Except Expr.Error Float).isOk := by
  refine ⟨⟨0.0, 1.0, 0.0, 1.0, 1.0⟩, rfl, (sample_visits _ _).2.2.2.2.2 _ ?_⟩
  intro x _ y _
  split
  · exact Or.inr ⟨_, rfl⟩
  · exact Or.inl rfl

/-- With `2 ^ 32` whole numbers on each axis there is one cell more than the greatest word, and so one more
than the number that is given. -/
theorem sample_visits_too_many :
    ∃ g, SampleGrid.new? 4503599627370496.0 4503603922337791.0 4503599627370496.0
        4503603922337791.0 1.0 = .ok g ∧
      ∀ f : Surface, (f.sample g).length + (f.gaps g).length = 2 ^ 64 ∧ g.cellCount = 2 ^ 64 - 1 ∧
        (f.sample g).length + (f.gaps g).length ≠ g.cellCount := by
  have low : (4503599627370496.0 : Float) = Grid.whole 4503599627370496 := by decide +kernel
  have high : (4503603922337791.0 : Float) = Grid.whole 4503603922337791 := by decide +kernel
  have axis : (SampleGrid.axis 4503599627370496.0 4503603922337791.0 1.0).length = 2 ^ 32 := by
    rw [low, high]
    exact SampleGrid.length_axis_whole (by decide) (by decide) (by decide)
  refine ⟨⟨4503599627370496.0, 4503603922337791.0, 4503599627370496.0, 4503603922337791.0, 1.0⟩, rfl,
    fun f => ?_⟩
  obtain ⟨cells, count⟩ := visited_of_axes (g := ⟨_, _, _, _, _⟩) f axis axis
  rw [cells, count]
  decide

end Surface

end PointScope
