import PointScope.Proofs.Draw.Words
import PointScope.Proofs.Frame.Region
import Mathlib.Order.Bounds.Defs

/-! What areas cover. A disc paints the pixels within its radius and a rectangle those between its
edges, each of them once if the frame contains it, and no other pixel; neither an end of the words they
are computed in nor the edge of the frame takes a pixel away or adds one. -/
namespace PointScope

open Screen (IsCoordinate)

namespace Frame

variable {region region' : Pixel → Prop} {f g : Frame} {c : Rgba} {x y : Nat}

/-- A frame on which a region was painted with a color: every pixel of it that the frame contains was
plotted once, so that it was overwritten or blended once, and all else is kept. -/
structure Covers (region : Pixel → Prop) (c : Rgba) (f g : Frame) : Prop where
  plots : ∃ ps : List Pixel, ps.Nodup ∧ (∀ p, p ∈ ps ↔ f.contains p = true ∧ region p) ∧
    g = f.plotAll ps c
  painted : ∀ x y : Nat, f.Holds x y → region ⟨x, y⟩ →
    g.pixel? x y = if c.isOpaque then some c else (f.pixel? x y).map c.onto
  rest : ChangesOnly region f g

theorem map_covering (held : f.Holds x y) (c : Rgba) :
    (f.pixel? x y).map c.covering = if c.isOpaque then some c else (f.pixel? x y).map c.onto := by
  rw [pixel?_eq_some held, Option.map_some, Option.map_some, Rgba.covering]
  split <;> rfl

theorem Covers.of_plotAll {ps : List Pixel} (distinct : ps.Nodup)
    (mem : ∀ p, p ∈ ps ↔ f.contains p = true ∧ region p) (drawn : g = f.plotAll ps c) :
    Covers region c f g where
  plots := ⟨ps, distinct, mem, drawn⟩
  painted x y held within := by
    rw [drawn, pixel?_plotAll_of_nodup distinct held, if_pos ((mem _).mpr ⟨held.contains, within⟩),
      map_covering held]
  rest := drawn ▸ changesOnly_plotAll (fun p on => ((mem p).mp on).2) f c

/-- Only the pixels of the frame count. -/
theorem Covers.congr (covers : Covers region c f g)
    (same : ∀ p, f.contains p = true → (region p ↔ region' p)) : Covers region' c f g := by
  obtain ⟨ps, distinct, mem, drawn⟩ := covers.plots
  exact .of_plotAll distinct (fun p => (mem p).trans (and_congr_right (same p))) drawn

/-- Where nothing of a region is in the frame, painting it changes nothing. -/
theorem Covers.eq_self (covers : Covers region c f g) (empty : ∀ p, ¬region p) : g = f := by
  obtain ⟨ps, _, mem, rfl⟩ := covers.plots
  have none : ps = [] := List.eq_nil_iff_forall_not_mem.mpr fun p on => empty p ((mem p).mp on).2
  rw [none]
  rfl

/-! ### Written rectangles -/

/-- Steps that each write a pixel or leave it write it if one of them does. -/
theorem pixel?_foldl_of_writes (step : Frame → α → Frame) {hits : α → Prop} [DecidablePred hits]
    (alike : ∀ (g : Frame) a, g.Alike (step g a))
    (writes : ∀ g : Frame, g.Holds x y → ∀ a,
      (step g a).pixel? x y = if hits a then some c else g.pixel? x y)
    (held : f.Holds x y) (as : List α) :
    (as.foldl step f).pixel? x y = if ∃ a ∈ as, hits a then some c else f.pixel? x y := by
  induction as generalizing f with
  | nil => simp
  | cons a as ih =>
    rw [List.foldl_cons, ih ((alike f a).holds.mpr held), writes f held a]
    by_cases later : ∃ b ∈ as, hits b
    · rw [if_pos later, if_pos (by simp [later])]
    · rw [if_neg later]
      exact if_congr (by simp [later]) rfl rfl

/-- A rectangle of a frame is written whatever its color covers, and nothing else is. -/
theorem pixel?_fillRect (held : f.Holds x y) (left top w h : Nat) (c : Rgba) :
    (f.fillRect left top w h c).pixel? x y =
      if (left ≤ x ∧ x < left + w) ∧ top ≤ y ∧ y < top + h then some c else f.pixel? x y := by
  have row (g : Frame) (held : g.Holds x y) (at_ : Nat) :=
    pixel?_foldl_of_writes (fun g column => g.set column at_ c)
      (fun g column => g.alike_set column at_ c) (fun g held column => pixel?_set held) held
      (List.range' left (min (left + w) f.width.toNat - left))
  have rows := pixel?_foldl_of_writes _
    (fun g at_ => .foldl (fun g column => g.alike_set column at_ c) _ g) row held
    (List.range' top (min (top + h) f.height.toNat - top))
  refine rows.trans (if_congr ?_ rfl rfl)
  obtain ⟨hx, hy, _⟩ := held
  simp only [List.mem_range'_1]
  constructor
  · rintro ⟨_, tall, _, wide, rfl, rfl⟩
    omega
  · rintro ⟨wide, tall⟩
    exact ⟨y, by omega, x, by omega, rfl, rfl⟩

end Frame

namespace Draw

variable {f : Frame} {c : Rgba}

/-! ### Rectangles -/

theorem covers_rect (short : f.height.toNat ≤ 2 ^ 31) (x y : Int) (w h : Nat) (c : Rgba) :
    Frame.Covers (InRect x y w h) c f (rect f x y w h c) :=
  .of_plotAll (flatMap_spanPixels_nodup (rowsOf_nodup f y (y + h)) _ _) (fun _ => mem_rectPixels short)
    (rect_eq_plotAll f x y w h c)

/-- Along a row the two ways to paint an opaque rectangle write the same pixels. -/
theorem rect_eq_fillRect (short : f.height.toNat ≤ 2 ^ 31) (covers : c.isOpaque = true) (x y w h : Nat) :
    rect f x y w h c = f.fillRect x y w h c := by
  have rows : rowsOf f y (y + h) = List.range' y (min (y + h) f.height.toNat - y) := by
    rw [rowsOf_eq_range' short]
    congr 1 <;> omega
  simp only [rect, Frame.fillRect, rows]
  apply Frame.Alike.foldl_congr
  · intro g row
    exact .foldl (fun g column => g.alike_set column row c) _ g
  · intro g alike row mem
    rw [List.mem_range'_1] at mem
    rw [span_of_isOpaque (by rw [alike.height]; omega) _ _ covers, alike.width]
    congr 2 <;> omega

/-- A rectangle of a frame replaces the color of its pixels and keeps all others, up to the ends of
the words of its corner and its sides. A drawn rectangle paints its pixels once, wherever its corner is,
and every number it is computed from fits into its word; for an opaque color that does not begin beyond
the left or the upper edge it is the same frame. -/
theorem rectangles_cover (short : f.height.toNat ≤ 2 ^ 31) (w h : UInt32) (c : Rgba) :
    (∀ x y : UInt32,
      f.fillRectInWords x y w h c = f.fillRect x.toNat y.toNat w.toNat h.toNat c ∧
      Frame.ChangesOnly (InRect x.toNat y.toNat w.toNat h.toNat) f
        (f.fillRect x.toNat y.toNat w.toNat h.toNat c) ∧
      ∀ px py : Nat, f.Holds px py → InRect x.toNat y.toNat w.toNat h.toNat ⟨px, py⟩ →
        (f.fillRect x.toNat y.toNat w.toNat h.toNat c).pixel? px py = some c) ∧
    (∀ x y : Int, IsCoordinate x → IsCoordinate y →
      rectInWords? f x y w h c = some (rect f x y w.toNat h.toNat c) ∧
      Frame.Covers (InRect x y w.toNat h.toNat) c f (rect f x y w.toNat h.toNat c)) ∧
    (c.isOpaque = true → ∀ x y : Nat,
      rect f x y w.toNat h.toNat c = f.fillRect x y w.toNat h.toNat c) := by
  refine ⟨fun x y => ⟨f.fillRectInWords_eq x y w h c, ?_, ?_⟩, ?_, ?_⟩
  · refine ⟨f.alike_fillRect _ _ _ _ c, fun px py outside held => ?_⟩
    rw [Frame.pixel?_fillRect held, if_neg]
    intro within
    unfold InRect at outside
    dsimp only at outside
    omega
  · intro px py held within
    rw [Frame.pixel?_fillRect held, if_pos]
    unfold InRect at within
    dsimp only at within
    omega
  · intro x y hx hy
    exact ⟨rectInWords?_eq_some short hx hy w h c, covers_rect short x y w.toNat h.toNat c⟩
  · intro covers x y
    exact rect_eq_fillRect short covers x y w.toNat h.toNat

/-- Rectangles as large as the words allow, from inside a frame and from the least column. -/
theorem rectangles_cover_far :
    ∃ f, Frame.new? 3 2 = .ok f ∧
      f.fillRectInWords 1 0 4294967295 4294967295 .red = f.fillRect 1 0 4294967295 4294967295 .red ∧
      (f.fillRect 1 0 4294967295 4294967295 .red).pixel? 2 1 = some .red ∧
      rectInWords? f (-2147483648) (-1) 4294967295 4294967295 .red =
        some (rect f (-2147483648) (-1) 4294967295 4294967295 .red) ∧
      (rect f (-2147483648) (-1) 4294967295 4294967295 .red).pixel? 2 1 = some .red := by
  obtain ⟨f, new, _, tall, held⟩ := Frame.exists_whole_new? (by decide : Frame.Allocatable 3 2)
  have short : f.height.toNat ≤ 2 ^ 31 := tall ▸ (by decide : (2 : UInt32).toNat ≤ 2 ^ 31)
  have corner := held 2 (by decide) 1 (by decide)
  obtain ⟨replaced, painted, _⟩ := rectangles_cover short 4294967295 4294967295 .red
  obtain ⟨words, _, filled⟩ := replaced 1 0
  obtain ⟨fits, covers⟩ := painted (-2147483648) (-1) (by decide) (by decide)
  refine ⟨f, new, words, filled 2 1 corner (by decide), fits, ?_⟩
  exact covers.painted 2 1 corner (by decide)

/-! ### Discs -/

theorem covers_disc (short : f.height.toNat ≤ 2 ^ 31) (center : Pixel) (radius : Int) (c : Rgba) :
    Frame.Covers (fun p => isWithin center radius p = true) c f (disc f center radius c) := by
  by_cases nonneg : 0 ≤ radius
  · exact .of_plotAll (flatMap_spanPixels_nodup (rowsOf_nodup f _ _) _ _)
      (fun _ => mem_discPixels nonneg short) (disc_eq_plotAll f center nonneg c)
  · refine .of_plotAll List.nodup_nil (fun p => ?_) (if_pos (Int.lt_of_not_ge nonneg))
    have outside : isWithin center radius p ≠ true := fun within =>
      nonneg (of_decide_eq_true within).1
    exact ⟨fun mem => absurd mem List.not_mem_nil, fun within => absurd within.2 outside⟩

/-- Both corrections of a root end at the greatest number whose square is not above the radicand,
wherever they begin. -/
theorem isGreatest_rootFrom (guess v : Nat) : IsGreatest {s | s * s ≤ v} (rootFrom guess v) := by
  rw [rootFrom_eq_sqrt]
  exact ⟨Nat.sqrt_le v, fun s square => Nat.le_sqrt.mpr square⟩

/-- A disc paints the pixels within its radius once and no others, wherever its center is and however
large it is; with a negative radius it has none. Its half widths are the exact roots, whatever number
they are corrected from, and every number it is computed from fits into its word. -/
theorem disc_covers_radius (short : f.height.toNat ≤ 2 ^ 31) (center : Pixel) (radius : Int)
    (hx : IsCoordinate center.x) (hy : IsCoordinate center.y) (hr : IsCoordinate radius) (c : Rgba) :
    Frame.Covers (fun p => 0 ≤ radius ∧
      (p.x - center.x) * (p.x - center.x) + (p.y - center.y) * (p.y - center.y) ≤ radius * radius)
      c f (disc f center radius c) ∧
    (radius < 0 → disc f center radius c = f) ∧
    (∀ guess v, root v = rootFrom guess v ∧ IsGreatest {s | s * s ≤ v} (rootFrom guess v)) ∧
    discInWords? f center radius c = some (disc f center radius c) := by
  have covers := covers_disc short center radius c
  simp only [isWithin, decide_eq_true_eq] at covers
  refine ⟨covers, ?_, ?_, discInWords?_eq_some short hx hy hr c⟩
  · intro negative
    exact covers.eq_self fun p within => Int.not_lt.mpr within.1 negative
  · intro guess v
    exact ⟨(root_eq_sqrt v).trans (rootFrom_eq_sqrt guess v).symm, isGreatest_rootFrom guess v⟩

/-- The greatest disc, with its center as far to the left as lets it reach the first column. -/
theorem disc_covers_radius_far :
    ∃ f, Frame.new? 3 2 = .ok f ∧
      (disc f ⟨-2147483647, 0⟩ 2147483647 .red).pixel? 0 0 = some .red ∧
      (disc f ⟨-2147483647, 0⟩ 2147483647 .red).pixel? 0 1 = f.pixel? 0 1 ∧
      discInWords? f ⟨-2147483647, 0⟩ 2147483647 .red =
        some (disc f ⟨-2147483647, 0⟩ 2147483647 .red) := by
  obtain ⟨f, new, _, tall, held⟩ := Frame.exists_whole_new? (by decide : Frame.Allocatable 3 2)
  have short : f.height.toNat ≤ 2 ^ 31 := tall ▸ (by decide : (2 : UInt32).toNat ≤ 2 ^ 31)
  obtain ⟨covers, _, _, fits⟩ := disc_covers_radius short ⟨-2147483647, 0⟩
    2147483647 (by decide) (by decide) (by decide) .red
  refine ⟨f, new, ?_, ?_, fits⟩
  · exact covers.painted 0 0 (held 0 (by decide) 0 (by decide)) (by decide)
  · exact covers.rest.kept 0 1 (by decide) (held 0 (by decide) 1 (by decide))

end Draw

end PointScope
