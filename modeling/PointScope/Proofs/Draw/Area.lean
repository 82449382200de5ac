import PointScope.Draw.Area
import PointScope.Proofs.Frame.Pixels
import Mathlib.Data.Int.Order.Lemmas
import Mathlib.Data.List.Nodup
import Mathlib.Data.Nat.Sqrt

/-! Coverage of areas. A span, a rectangle and a disc plot a list of pixels that holds none twice,
and the pixels of a disc are those within the radius of its center. -/
namespace PointScope.Draw

/-! ### Square roots -/

theorem lowered_mul_self_le (v guess : Nat) : lowered v guess * lowered v guess ≤ v := by
  induction guess with
  | zero => exact Nat.zero_le v
  | succ s ih =>
    simp only [lowered]
    split
    · exact ih
    · exact Nat.le_of_not_lt ‹_›

/-- Raising ends at the root from every number below it. -/
theorem raised_eq_sqrt {v s : Nat} (below : s * s ≤ v) : raised v s = Nat.sqrt v := by
  fun_induction raised v s with
  | case1 s next ih =>
    exact ih next
  | case2 s stop =>
    have low : s ≤ Nat.sqrt v := Nat.le_sqrt.mpr below
    have high : Nat.sqrt v < s + 1 := Nat.sqrt_lt.mpr (Nat.lt_of_not_le stop)
    omega

/-- Both corrections together give the root from every guess, so nothing depends on how near the
guess is. -/
theorem rootFrom_eq_sqrt (guess v : Nat) : rootFrom guess v = Nat.sqrt v :=
  raised_eq_sqrt (lowered_mul_self_le v guess)

theorem root_eq_sqrt (v : Nat) : root v = Nat.sqrt v := rootFrom_eq_sqrt _ v

/-! ### Spans -/

/-- The pixels of a row from one column to another that a frame has. -/
def spanPixels (f : Frame) (row : Nat) (first last : Int) : List Pixel :=
  let lo := (max first 0).toNat
  let hi := min last ((f.width.toNat : Int) - 1)
  (List.range' lo (hi + 1 - lo).toNat).map fun (column : Nat) => ⟨column, row⟩

theorem mem_spanPixels {f : Frame} {row : Nat} {first last : Int} {p : Pixel} :
    p ∈ spanPixels f row first last ↔
      p.y = row ∧ 0 ≤ p.x ∧ p.x < f.width.toNat ∧ first ≤ p.x ∧ p.x ≤ last := by
  obtain ⟨x, y⟩ := p
  unfold spanPixels
  rw [List.mem_map]
  constructor
  · rintro ⟨column, bounds, same⟩
    rw [List.mem_range'_1] at bounds
    rw [Pixel.mk.injEq] at same
    dsimp only
    omega
  · rintro ⟨rfl, bounds⟩
    refine ⟨x.toNat, List.mem_range'_1.mpr ?_, ?_⟩
    · dsimp only at bounds
      omega
    · rw [Int.toNat_of_nonneg bounds.1]

theorem spanPixels_nodup (f : Frame) (row : Nat) (first last : Int) :
    (spanPixels f row first last).Nodup := by
  refine List.Nodup.map ?_ List.nodup_range'
  intro i j same
  exact Int.ofNat.inj (congrArg Pixel.x same)

theorem spanPixels_alike {f g : Frame} (alike : f.Alike g) (row : Nat) (first last : Int) :
    spanPixels g row first last = spanPixels f row first last := by
  rw [spanPixels, spanPixels, alike.width]

/-- Along a row inside the frame, the checked plot of a pixel is the plain one. -/
theorem foldl_eq_plotAll {f : Frame} {c : Rgba} {row : Nat} {put : Frame → Nat → Frame}
    (inside : row < f.height.toNat)
    (puts : ∀ (g : Frame) (x : Nat), x < g.width.toNat → row < g.height.toNat →
      put g x = g.plot ⟨x, row⟩ c)
    {columns : List Nat} (bound : ∀ x ∈ columns, x < f.width.toNat) :
    columns.foldl put f = f.plotAll (columns.map fun (x : Nat) => ⟨x, row⟩) c := by
  induction columns generalizing f with
  | nil => rfl
  | cons x columns ih =>
    have here : put f x = f.plot ⟨x, row⟩ c := puts f x (bound x List.mem_cons_self) inside
    have alike := f.alike_plot ⟨x, row⟩ c
    rw [List.foldl_cons, here]
    refine ih (alike.height ▸ inside) fun y mem => ?_
    rw [alike.width]
    exact bound y (List.mem_cons_of_mem x mem)

theorem plot_eq_paint {f : Frame} {x y : Nat} (hx : x < f.width.toNat) (hy : y < f.height.toNat)
    (c : Rgba) : f.plot ⟨x, y⟩ c = f.paint x y c :=
  if_pos (Frame.contains_iff.mpr ⟨by simp, by simp, by simpa using hx, by simpa using hy⟩)

/-- A span of an opaque color is written pixel by pixel like any other. -/
theorem span_of_isOpaque {f : Frame} {row : Nat} (inside : row < f.height.toNat) (first last : Int)
    {c : Rgba} (covers : c.isOpaque = true) :
    span f row first last c =
      (List.range' (max first 0).toNat
        (min last ((f.width.toNat : Int) - 1) + 1 - (max first 0).toNat).toNat).foldl
          (fun f column => f.set column row c) f := by
  have one_row : min (row + 1) f.height.toNat - row = 1 := by omega
  have uncut : min ((max first 0).toNat +
        (min last ((f.width.toNat : Int) - 1) + 1 - (max first 0).toNat).toNat) f.width.toNat -
      (max first 0).toNat =
      (min last ((f.width.toNat : Int) - 1) + 1 - (max first 0).toNat).toNat := by omega
  simp only [span, Frame.fillRect]
  rw [if_pos covers, one_row, uncut, List.range'_one, List.foldl_cons, List.foldl_nil]

/-- A span is the same list of plots whether it is written as a rectangle or blended. -/
theorem span_eq_plotAll {f : Frame} {row : Nat} (inside : row < f.height.toNat) (first last : Int)
    (c : Rgba) : span f row first last c = f.plotAll (spanPixels f row first last) c := by
  have bound : ∀ x ∈ List.range' (max first 0).toNat
      (min last ((f.width.toNat : Int) - 1) + 1 - (max first 0).toNat).toNat,
      x < f.width.toNat := by
    intro x mem
    rw [List.mem_range'_1] at mem
    omega
  by_cases covers : c.isOpaque = true
  · rw [span_of_isOpaque inside first last covers]
    refine foldl_eq_plotAll inside (fun g x hx hy => ?_) bound
    rw [plot_eq_paint hx hy, Frame.paint, if_pos covers]
  · simp only [span, spanPixels]
    rw [if_neg covers]
    refine foldl_eq_plotAll inside (fun g x hx hy => ?_) bound
    rw [plot_eq_paint hx hy, Frame.paint, if_neg covers]

theorem alike_span (f : Frame) (row : Nat) (first last : Int) (c : Rgba) :
    f.Alike (span f row first last c) := by
  simp only [span]
  split
  · exact f.alike_fillRect _ row _ 1 c
  · exact .foldl (fun f column => f.alike_blend column row c) _ f

theorem alike_rect (f : Frame) (x y : Int) (w h : Nat) (c : Rgba) : f.Alike (rect f x y w h c) :=
  .foldl (fun f row => alike_span f row x (x + w - 1) c) _ f

/-- An area painted row by row. -/
theorem foldl_span_eq_plotAll {f : Frame} {rows : List Nat} (first last : Nat → Int) (c : Rgba)
    (inside : ∀ row ∈ rows, row < f.height.toNat) :
    rows.foldl (fun f row => span f row (first row) (last row) c) f =
      f.plotAll (rows.flatMap fun row => spanPixels f row (first row) (last row)) c := by
  induction rows generalizing f with
  | nil => rfl
  | cons row rows ih =>
    have here := span_eq_plotAll (inside row List.mem_cons_self) (first row) (last row) c
    have alike := f.alike_plotAll (spanPixels f row (first row) (last row)) c
    rw [List.foldl_cons, here, List.flatMap_cons, Frame.plotAll_append, ih]
    · simp only [spanPixels_alike alike]
    · intro other mem
      rw [alike.height]
      exact inside other (List.mem_cons_of_mem row mem)

theorem flatMap_spanPixels_nodup {f : Frame} {rows : List Nat} (distinct : rows.Nodup)
    (first last : Nat → Int) :
    (rows.flatMap fun row => spanPixels f row (first row) (last row)).Nodup := by
  rw [List.nodup_flatMap]
  refine ⟨fun row _ => spanPixels_nodup f row _ _, distinct.imp ?_⟩
  intro row other ne p mem mem'
  have here := (mem_spanPixels.mp mem).1
  have there := (mem_spanPixels.mp mem').1
  omega

theorem mem_rowsOf {f : Frame} {first beyond : Int} {row : Nat} :
    row ∈ rowsOf f first beyond ↔
      first ≤ row ∧ row < beyond ∧ row < f.height.toNat ∧ (row : Int) ≤ Screen.greatest := by
  simp only [rowsOf]
  simp only [List.mem_range'_1]
  omega

theorem rowsOf_nodup (f : Frame) (first beyond : Int) : (rowsOf f first beyond).Nodup :=
  List.nodup_range'

theorem lt_height_of_mem_rowsOf {f : Frame} {first beyond : Int} :
    ∀ row ∈ rowsOf f first beyond, row < f.height.toNat :=
  fun _ mem => (mem_rowsOf.mp mem).2.2.1

/-! ### Rectangles -/

/-- A pixel lies in the rectangle with an upper left corner and two sides. -/
def InRect (x y : Int) (w h : Nat) (p : Pixel) : Prop :=
  (x ≤ p.x ∧ p.x < x + w) ∧ y ≤ p.y ∧ p.y < y + h

instance (x y : Int) (w h : Nat) (p : Pixel) : Decidable (InRect x y w h p) :=
  inferInstanceAs (Decidable (_ ∧ _))

/-- The pixels of a rectangle that a frame has, row by row. -/
def rectPixels (f : Frame) (x y : Int) (w h : Nat) : List Pixel :=
  (rowsOf f y (y + h)).flatMap fun row => spanPixels f row x (x + w - 1)

theorem rect_eq_plotAll (f : Frame) (x y : Int) (w h : Nat) (c : Rgba) :
    rect f x y w h c = f.plotAll (rectPixels f x y w h) c :=
  foldl_span_eq_plotAll (fun _ => x) (fun _ => x + w - 1) c lt_height_of_mem_rowsOf

theorem contains_of_mem_rectPixels {f : Frame} {x y : Int} {w h : Nat} {p : Pixel}
    (mem : p ∈ rectPixels f x y w h) : f.contains p = true ∧ InRect x y w h p := by
  simp only [rectPixels, List.mem_flatMap, mem_rowsOf, mem_spanPixels] at mem
  obtain ⟨row, rows, at_row, columns⟩ := mem
  rw [Frame.contains_iff, InRect]
  omega

theorem mem_rectPixels {f : Frame} (short : f.height.toNat ≤ 2 ^ 31) {x y : Int} {w h : Nat}
    {p : Pixel} : p ∈ rectPixels f x y w h ↔ f.contains p = true ∧ InRect x y w h p := by
  refine ⟨contains_of_mem_rectPixels, ?_⟩
  simp only [rectPixels, List.mem_flatMap, mem_rowsOf, mem_spanPixels, Frame.contains_iff, InRect]
  rintro ⟨inside, columns, rows⟩
  refine ⟨p.y.toNat, ?_, by omega⟩
  unfold Screen.greatest
  omega

/-! ### Discs -/

/-- Whether a pixel is at most a radius away from a center. Nothing is within a negative radius. -/
def isWithin (center : Pixel) (radius : Int) (p : Pixel) : Bool :=
  decide (0 ≤ radius ∧ (p.x - center.x) * (p.x - center.x) + (p.y - center.y) * (p.y - center.y) ≤
    radius * radius)

/-- A larger disc covers a smaller one. -/
theorem isWithin_mono {center p : Pixel} {inner outer : Int} (le : inner ≤ outer)
    (within : isWithin center inner p = true) : isWithin center outer p = true := by
  rw [isWithin, decide_eq_true_eq] at within ⊢
  obtain ⟨nonneg, near⟩ := within
  exact ⟨Int.le_trans nonneg le, Int.le_trans near (Int.mul_self_le_mul_self nonneg le)⟩

/-- The pixels of a disc that a frame has, row by row. -/
def discPixels (f : Frame) (center : Pixel) (radius : Int) : List Pixel :=
  (rowsOf f (center.y - radius) (center.y + radius + 1)).flatMap fun (row : Nat) =>
    let dy := (row : Int) - center.y
    let half := Nat.sqrt (radius * radius - dy * dy).toNat
    spanPixels f row (center.x - half) (center.x + half)

theorem discPixels_alike {f g : Frame} (alike : f.Alike g) (center : Pixel) (radius : Int) :
    discPixels g center radius = discPixels f center radius := by
  simp only [discPixels, rowsOf]
  simp only [alike.height, spanPixels_alike alike]

/-- The half width of a row reaches exactly as far as the radius does. -/
theorem mem_row_iff {radius dx dy : Int} (tall : dy * dy ≤ radius * radius) :
    (-(Nat.sqrt (radius * radius - dy * dy).toNat : Int) ≤ dx ∧
      dx ≤ Nat.sqrt (radius * radius - dy * dy).toNat) ↔ dx * dx + dy * dy ≤ radius * radius := by
  have square : dx.natAbs ≤ Nat.sqrt (radius * radius - dy * dy).toNat ↔
      dx.natAbs * dx.natAbs ≤ (radius * radius - dy * dy).toNat := Nat.le_sqrt
  have cast : ((dx.natAbs * dx.natAbs : Nat) : Int) = dx * dx := Int.natAbs_mul_self
  constructor
  · intro bounds
    have := square.mp (by omega)
    omega
  · intro near
    have := square.mpr (by omega)
    omega

theorem mem_discPixels {f : Frame} {center p : Pixel} {radius : Int} (nonneg : 0 ≤ radius)
    (short : f.height.toNat ≤ 2 ^ 31) :
    p ∈ discPixels f center radius ↔ f.contains p = true ∧ isWithin center radius p = true := by
  obtain ⟨x, y⟩ := p
  simp only [discPixels, isWithin]
  simp only [List.mem_flatMap, mem_rowsOf, mem_spanPixels, Frame.contains_iff, decide_eq_true_eq]
  have tall : y - center.y ≤ radius ∧ -radius ≤ y - center.y ↔
      (y - center.y) * (y - center.y) ≤ radius * radius := by
    rw [← Int.natAbs_le_iff_mul_self_le]
    omega
  constructor
  · rintro ⟨row, ⟨above, below, low, _⟩, rfl, left, right, first, last⟩
    refine ⟨⟨left, by omega, right, by omega⟩, nonneg, (mem_row_iff (tall.mp (by omega))).mp ?_⟩
    omega
  · rintro ⟨⟨left, top, right, bottom⟩, _, near⟩
    obtain ⟨row, rfl⟩ := Int.eq_ofNat_of_zero_le top
    have dx := mul_self_nonneg (x - center.x)
    have high := (mem_row_iff (by omega)).mpr near
    have := tall.mpr (by omega)
    refine ⟨row, ⟨?_, ?_, ?_, ?_⟩, rfl, left, right, ?_, ?_⟩
    all_goals unfold Screen.greatest at *
    all_goals omega

theorem disc_eq_plotAll (f : Frame) (center : Pixel) {radius : Int} (nonneg : 0 ≤ radius)
    (c : Rgba) : disc f center radius c = f.plotAll (discPixels f center radius) c := by
  simp only [disc, discPixels]
  rw [if_neg (Int.not_lt.mpr nonneg)]
  simp only [root_eq_sqrt]
  exact foldl_span_eq_plotAll _ _ c lt_height_of_mem_rowsOf

theorem alike_disc (f : Frame) (center : Pixel) (radius : Int) (c : Rgba) :
    f.Alike (disc f center radius c) := by
  by_cases nonneg : 0 ≤ radius
  · rw [disc_eq_plotAll f center nonneg]
    exact f.alike_plotAll _ c
  · rw [disc, if_pos (Int.lt_of_not_ge nonneg)]
    exact .refl f

/-- A disc changes the pixels within its radius, each of them once, and no others. -/
theorem pixel?_disc {f : Frame} (short : f.height.toNat ≤ 2 ^ 31) {x y : Nat} (held : f.Holds x y)
    (center : Pixel) (radius : Int) (c : Rgba) :
    (disc f center radius c).pixel? x y =
      if isWithin center radius ⟨x, y⟩ then (f.pixel? x y).map c.covering else f.pixel? x y := by
  by_cases nonneg : 0 ≤ radius
  · rw [disc_eq_plotAll f center nonneg, Frame.pixel?_plotAll_of_nodup _ held]
    · exact if_congr ((mem_discPixels nonneg short).trans (and_iff_right held.contains)) rfl rfl
    · exact flatMap_spanPixels_nodup (rowsOf_nodup f _ _) _ _
  · have outside : isWithin center radius ⟨x, y⟩ = false :=
      decide_eq_false fun within => nonneg within.1
    rw [disc, if_pos (Int.lt_of_not_ge nonneg), outside]
    rfl

end PointScope.Draw
