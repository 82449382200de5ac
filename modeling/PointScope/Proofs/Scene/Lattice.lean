import PointScope.Proofs.Scene.Painter

/-! Reference grids. A grid is drawn edge by edge of its lattice, each edge once and in order, and
only if both its ends are pixels of the frame. The line between two such pixels never leaves the
frame, so an edge is drawn with all of its pixels or not at all. -/
namespace PointScope

namespace Draw.Line

variable {l : Line} {f : Frame} {c : Rgba}

/-- A pixel changes once for each of the lines that go through it. -/
theorem pixel?_foldl_draw (lines : List Line) {x y : Nat} (held : f.Holds x y) :
    (lines.foldl (fun f l => l.draw f c) f).pixel? x y =
      (f.pixel? x y).map c.covering^[lines.countP fun l => decide (⟨x, y⟩ ∈ l.pixels)] := by
  induction lines generalizing f with
  | nil => exact Option.map_id_apply.symm
  | cons l lines ih =>
    rw [List.foldl_cons, ih ((l.alike_draw f c).holds.mpr held), draw_eq_plotAll,
      Frame.pixel?_plotAll_of_nodup l.pixels_nodup held]
    by_cases through : ⟨x, y⟩ ∈ l.pixels
    · rw [if_pos through, List.countP_cons, if_pos (decide_eq_true through), Option.map_map]
      rfl
    · rw [if_neg through, List.countP_cons, if_neg (by simpa using through), Nat.add_zero]

end Draw.Line

namespace Scene

/-! ### Lattices -/

theorem mem_latticeIndices {extent i : Int} :
    i ∈ latticeIndices extent ↔ -extent ≤ i ∧ i ≤ extent := by
  rw [latticeIndices, List.mem_map]
  constructor
  · rintro ⟨k, mem, rfl⟩
    have := List.mem_range.mp mem
    omega
  · intro bounds
    refine ⟨(i + extent).toNat, List.mem_range.mpr ?_, ?_⟩
    · omega
    · omega

theorem latticeIndices_ascend (extent : Int) : (latticeIndices extent).Pairwise (· < ·) := by
  apply List.pairwise_map.mpr
  apply List.pairwise_lt_range.imp
  intro i j less
  omega

/-- An edge of a lattice: from a lattice point to the next one along one of the two axes. -/
structure LatticeEdge where
  i : Int
  j : Int
  /-- Whether the edge goes along the second axis. -/
  second : Bool

namespace LatticeEdge

/-- The lattice point at the end of an edge. -/
def stop (e : LatticeEdge) : Int × Int := if e.second then (e.i, e.j + 1) else (e.i + 1, e.j)

/-- The line of an edge, if both its ends have a pixel in the viewport. -/
def line? (view : Projection) (plane : GridPlane) (e : LatticeEdge) : Option Draw.Line :=
  (latticePixel? view plane e.i e.j).bind fun start =>
    (latticePixel? view plane e.stop.1 e.stop.2).map fun stop => { start, stop }

/-- Edges in the order they are drawn: by the point they start from, and the edge along the first
axis before the one along the second. -/
def Before (d e : LatticeEdge) : Prop :=
  d.i < e.i ∨ d.i = e.i ∧ (d.j < e.j ∨ d.j = e.j ∧ d.second = false ∧ e.second = true)

end LatticeEdge

/-- The edges from all lattice points of a grid. -/
def latticeEdges (extent : Int) : List LatticeEdge :=
  (latticeIndices extent).flatMap fun i =>
    (latticeIndices extent).flatMap fun j => [⟨i, j, false⟩, ⟨i, j, true⟩]

theorem mem_latticeEdges {extent : Int} {e : LatticeEdge} :
    e ∈ latticeEdges extent ↔
      (-extent ≤ e.i ∧ e.i ≤ extent) ∧ -extent ≤ e.j ∧ e.j ≤ extent := by
  obtain ⟨i, j, second⟩ := e
  simp only [latticeEdges, List.mem_flatMap, mem_latticeIndices]
  constructor
  · rintro ⟨i', hi, j', hj, mem⟩
    simp only [List.mem_cons, LatticeEdge.mk.injEq, List.not_mem_nil, or_false] at mem
    rcases mem with ⟨rfl, rfl, _⟩ | ⟨rfl, rfl, _⟩
    · exact ⟨hi, hj⟩
    · exact ⟨hi, hj⟩
  · rintro ⟨hi, hj⟩
    refine ⟨i, hi, j, hj, ?_⟩
    cases second with
    | false => exact List.mem_cons_self
    | true => exact List.mem_cons_of_mem _ List.mem_cons_self

theorem latticeEdges_ascend (extent : Int) : (latticeEdges extent).Pairwise LatticeEdge.Before := by
  have point : ∀ {i j e}, e ∈ [LatticeEdge.mk i j false, ⟨i, j, true⟩] → e.i = i ∧ e.j = j := by
    intro i j e mem
    simp only [List.mem_cons, List.not_mem_nil, or_false] at mem
    rcases mem with rfl | rfl <;> exact ⟨rfl, rfl⟩
  apply List.pairwise_flatMap.mpr
  constructor
  · intro i _
    apply List.pairwise_flatMap.mpr
    constructor
    · intro j _
      exact List.pairwise_pair.mpr (Or.inr ⟨rfl, Or.inr ⟨rfl, rfl, rfl⟩⟩)
    · apply (latticeIndices_ascend extent).imp
      intro j j' less d mem e mem'
      obtain ⟨di, dj⟩ := point mem
      obtain ⟨ei, ej⟩ := point mem'
      exact Or.inr ⟨di.trans ei.symm, Or.inl (by omega)⟩
  · apply (latticeIndices_ascend extent).imp
    intro i i' less d mem e mem'
    obtain ⟨j, _, mem⟩ := List.mem_flatMap.mp mem
    obtain ⟨j', _, mem'⟩ := List.mem_flatMap.mp mem'
    have di := (point mem).1
    have ei := (point mem').1
    exact Or.inl (by omega)

/-! ### Segments -/

variable {view : Projection} {plane : GridPlane}

/-- A point has a finite place on the screen, and this is the pixel of it in the viewport. -/
structure Shows (view : Projection) (q : Point) (p : Pixel) : Prop where
  finite : (view.project q).isFinite = true
  pixel : (view.project q).toPixel = p
  inside : view.viewport.contains p = true

theorem latticePixel?_eq_some {i j : Int} {p : Pixel} :
    latticePixel? view plane i j = some p ↔ Shows view (plane.point i j) p := by
  rw [latticePixel?, Option.filter_eq_some_iff, Projection.pixel?, ScreenPoint.pixel?,
    Option.ite_none_right_eq_some, Option.some.injEq]
  constructor
  · rintro ⟨⟨finite, pixel⟩, inside⟩
    exact ⟨finite, pixel, inside⟩
  · rintro ⟨finite, pixel, inside⟩
    exact ⟨⟨finite, pixel⟩, inside⟩

theorem line?_eq_some {e : LatticeEdge} {l : Draw.Line} :
    e.line? view plane = some l ↔
      Shows view (plane.point e.i e.j) l.start ∧
        Shows view (plane.point e.stop.1 e.stop.2) l.stop := by
  rw [← latticePixel?_eq_some, ← latticePixel?_eq_some, LatticeEdge.line?]
  constructor
  · intro line
    obtain ⟨start, hstart, line⟩ := Option.bind_eq_some_iff.mp line
    obtain ⟨stop, hstop, rfl⟩ := Option.map_eq_some_iff.mp line
    exact ⟨hstart, hstop⟩
  · rintro ⟨hstart, hstop⟩
    rw [hstart, hstop]
    rfl

/-- The lines of a grid are those of its edges. -/
theorem segments_eq_filterMap (view : Projection) (extent : Int) (plane : GridPlane) :
    segments view extent plane = (latticeEdges extent).filterMap (LatticeEdge.line? view plane) := by
  rw [segments, latticeEdges, List.filterMap_flatMap]
  apply congrArg fun row => List.flatMap row (latticeIndices extent)
  funext i
  rw [List.filterMap_flatMap]
  apply congrArg fun row => List.flatMap row (latticeIndices extent)
  funext j
  cases start : latticePixel? view plane i j with
  | none => simp [segmentsAt, LatticeEdge.line?, start]
  | some p =>
    cases right : latticePixel? view plane (i + 1) j <;>
      cases down : latticePixel? view plane i (j + 1) <;>
        simp [segmentsAt, LatticeEdge.line?, LatticeEdge.stop, start, right, down]

/-- An edge whose ends are pixels of a frame is drawn within the frame. -/
theorem contains_of_line? {f : Frame} {e : LatticeEdge} {l : Draw.Line}
    (line : e.line? (view.setViewport f.size) plane = some l) :
    ∀ p ∈ l.pixels, f.contains p = true := by
  obtain ⟨start, stop⟩ := line?_eq_some.mp line
  exact Draw.Line.contains_of_mem_pixels start.inside stop.inside

/-- A grid is the lines of those edges of its lattice that show both their ends, in order and each
of them once. Such a line is drawn in full, every pixel of it once, and nothing else is drawn. -/
theorem drawGrid_segments (style : SceneStyle) (view : Projection) (f : Frame) (plane : GridPlane) :
    let sized := view.setViewport f.size
    let lines := (latticeEdges style.gridExtent).filterMap (LatticeEdge.line? sized plane)
    drawGrid style sized f plane = lines.foldl (fun f l => l.draw f (plane.tint style)) f ∧
      (latticeEdges style.gridExtent).Pairwise LatticeEdge.Before ∧
      (∀ e, e ∈ latticeEdges style.gridExtent ↔
        (-style.gridExtent ≤ e.i ∧ e.i ≤ style.gridExtent) ∧
          -style.gridExtent ≤ e.j ∧ e.j ≤ style.gridExtent) ∧
      (∀ e l, LatticeEdge.line? sized plane e = some l ↔
        Shows sized (plane.point e.i e.j) l.start ∧
          Shows sized (plane.point e.stop.1 e.stop.2) l.stop) ∧
      (∀ l ∈ lines, l.pixels.Nodup ∧ (∀ p ∈ l.pixels, f.contains p = true) ∧
        ∀ g : Frame, g.size = f.size → l.visited g = l.pixels) ∧
      (∀ x y, f.Holds x y → (drawGrid style sized f plane).pixel? x y =
        (f.pixel? x y).map
          (plane.tint style).covering^[lines.countP fun l => decide (⟨x, y⟩ ∈ l.pixels)]) ∧
      (style.gridExtent < 0 → drawGrid style sized f plane = f) := by
  intro sized lines
  have drawn : drawGrid style sized f plane =
      lines.foldl (fun f l => l.draw f (plane.tint style)) f := by
    rw [drawGrid, segments_eq_filterMap]
  refine ⟨drawn, latticeEdges_ascend _, fun e => mem_latticeEdges, fun e l => line?_eq_some, ?_, ?_, ?_⟩
  · intro l mem
    obtain ⟨e, _, line⟩ := List.mem_filterMap.mp mem
    have inside := contains_of_line? line
    refine ⟨l.pixels_nodup, inside, fun g size => Draw.Line.visited_eq_pixels fun p on => ?_⟩
    rw [Frame.contains, size]
    exact inside p on
  · intro x y held
    rw [drawn, Draw.Line.pixel?_foldl_draw lines held]
  · intro negative
    have empty : latticeEdges style.gridExtent = [] := by
      apply List.eq_nil_iff_forall_not_mem.mpr
      intro e mem
      have := mem_latticeEdges.mp mem
      omega
    rw [drawn]
    simp only [lines, empty]
    rfl

end Scene

end PointScope
