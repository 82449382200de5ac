import PointScope.Proofs.Draw.Coverage
import PointScope.Proofs.Draw.Label

/-! Text pixel by pixel. A label is its backdrop, painted once, and the dots of its glyphs, plotted once
each, all of them where plain arithmetic puts them: what stops at an end of the range of pixel
coordinates, is dropped there or is not reached any more lies outside the frame. -/
namespace PointScope

open Screen (IsCoordinate)

namespace Draw

/-! ### Dots -/

/-- Lists that belong to the indices of another have no element twice if none has and if those of two
indices have none in common. -/
theorem nodup_flatMap_zipIdx {as : List α} {part : α × Nat → List β}
    (distinct : ∀ a, (part a).Nodup) (apart : ∀ a b, a.2 < b.2 → (part a).Disjoint (part b)) :
    (as.zipIdx.flatMap part).Nodup := by
  have ascend : (as.zipIdx.map Prod.snd).Pairwise (· < ·) := by
    rw [List.zipIdx_map_snd]
    exact List.pairwise_lt_range'
  exact List.nodup_flatMap.mpr
    ⟨fun a _ => distinct a, (List.pairwise_map.mp ascend).imp fun lt => apart _ _ lt⟩

/-- A bit of a bitmap is set. -/
def Glyph.HasDot (g : Glyph) (dx dy : Nat) : Prop :=
  dx < width ∧ ∃ row, g.rows[dy]? = some row ∧ row.testBit (width - 1 - dx) = true

theorem Glyph.mem_dots {g : Glyph} {dx dy : Nat} : (dx, dy) ∈ g.dots ↔ g.HasDot dx dy := by
  simp only [dots, columnsOf, HasDot, List.mem_flatMap, List.mem_map, List.mem_filter, List.mem_range,
    List.mem_zipIdx_iff_getElem?]
  constructor
  · rintro ⟨⟨row, i⟩, at_row, column, ⟨bound, set_⟩, same⟩
    cases same
    exact ⟨bound, row, at_row, set_⟩
  · rintro ⟨bound, row, at_row, set_⟩
    exact ⟨(row, dy), at_row, dx, ⟨bound, set_⟩, rfl⟩

theorem Glyph.dots_nodup (g : Glyph) : g.dots.Nodup := by
  apply nodup_flatMap_zipIdx
  · rintro ⟨row, dy⟩
    exact (List.nodup_range.filter _).map fun dx dx' same => congrArg Prod.fst same
  · rintro ⟨row, dy⟩ ⟨row', dy'⟩ lt d here there
    obtain ⟨_, _, rfl⟩ := List.mem_map.mp here
    obtain ⟨_, _, same⟩ := List.mem_map.mp there
    obtain ⟨_, rfl⟩ := Prod.mk.inj same
    exact Nat.lt_irrefl _ lt

/-- The pixels of the dots of a glyph. -/
def glyphPixels (g : Glyph) (x y : Int) : List Pixel :=
  g.dots.map fun d => ⟨x + (d.1 : Nat), y + (d.2 : Nat)⟩

/-- The pixels of the dots of the glyphs of a text, side by side. -/
def textPixels (text : List Char) (x y : Int) : List Pixel :=
  text.zipIdx.flatMap fun (ch, i) => glyphPixels (.ofChar ch) (x + Glyph.advance * (i : Nat)) y

theorem mem_glyphPixels {g : Glyph} {x y : Int} {p : Pixel} :
    p ∈ glyphPixels g x y ↔ ∃ dx dy : Nat, g.HasDot dx dy ∧ p = ⟨x + dx, y + dy⟩ := by
  simp only [glyphPixels, List.mem_map, Prod.exists, Glyph.mem_dots]
  simp only [eq_comm]

theorem mem_textPixels {text : List Char} {x y : Int} {p : Pixel} :
    p ∈ textPixels text x y ↔ ∃ (i : Nat) (ch : Char) (dx dy : Nat),
      text[i]? = some ch ∧ (Glyph.ofChar ch).HasDot dx dy ∧
        p = ⟨x + Glyph.advance * i + dx, y + dy⟩ := by
  simp only [textPixels, List.mem_flatMap, mem_glyphPixels, Prod.exists, List.mem_zipIdx_iff_getElem?]
  constructor
  · rintro ⟨ch, i, at_i, dx, dy, dot, rfl⟩
    exact ⟨i, ch, dx, dy, at_i, dot, rfl⟩
  · rintro ⟨i, ch, dx, dy, at_i, dot, rfl⟩
    exact ⟨ch, i, at_i, dx, dy, dot, rfl⟩

theorem textPixels_cons (ch : Char) (rest : List Char) (x y : Int) :
    textPixels (ch :: rest) x y =
      glyphPixels (.ofChar ch) x y ++ textPixels rest (x + Glyph.advance) y := by
  have next (i : Nat) : x + (Glyph.advance : Int) * (i + 1 : Nat) =
      x + Glyph.advance + Glyph.advance * i := by
    rw [Int.natCast_succ, Int.mul_add, Int.mul_one, Int.add_comm (_ * _), ← Int.add_assoc]
  simp only [textPixels, List.zipIdx_cons, List.zipIdx_succ, List.flatMap_cons, List.flatMap_map, next,
    Int.natCast_zero, Int.mul_zero, Int.add_zero]

theorem glyphPixels_nodup (g : Glyph) (x y : Int) : (glyphPixels g x y).Nodup := by
  refine g.dots_nodup.map ?_
  rintro ⟨dx, dy⟩ ⟨dx', dy'⟩ same
  simp only [Pixel.mk.injEq, Prod.mk.injEq] at same ⊢
  omega

/-- Glyphs side by side have no pixel in common. -/
theorem textPixels_nodup (text : List Char) (x y : Int) : (textPixels text x y).Nodup := by
  apply nodup_flatMap_zipIdx
  · rintro ⟨ch, i⟩
    exact glyphPixels_nodup _ _ y
  · rintro ⟨ch, i⟩ ⟨ch', j⟩ lt p here there
    obtain ⟨dx, dy, dot, rfl⟩ := mem_glyphPixels.mp here
    obtain ⟨dx', dy', _, same⟩ := mem_glyphPixels.mp there
    have wide := dot.1
    rw [Pixel.mk.injEq] at same
    unfold Glyph.width at wide
    unfold Glyph.advance Glyph.width at same
    dsimp only at lt
    omega

/-! ### Glyphs -/

variable {f : Frame}

theorem glyph_eq_plotAll (wide : f.width.toNat ≤ Screen.greatest)
    (tall : f.height.toNat ≤ Screen.greatest) (g : Glyph) (x y : Int) (c : Rgba) :
    glyph f g x y c = f.plotAll (glyphPixels g x y) c := by
  rw [glyph, glyphPixels, Frame.plotAll, List.foldl_map]
  apply Frame.Alike.foldl_congr
  · intro g d
    exact g.alike_plot _ c
  · rintro g alike ⟨dx, dy⟩ _
    dsimp only
    split
    · rfl
    · rename_i beyond
      refine (if_neg fun inside => beyond ?_).symm
      have within := Frame.contains_iff.mp ((alike.contains _).symm.trans inside)
      dsimp only at within
      exact ⟨by omega, by omega⟩

/-- Behind the right edge of the frame there is nothing to plot, so stopping there loses nothing. -/
theorem glyphs_eq_plotAll (wide : f.width.toNat ≤ Screen.greatest)
    (tall : f.height.toNat ≤ Screen.greatest) (text : List Char) (x y : Int) (c : Rgba) :
    glyphs f text x y c = f.plotAll (textPixels text x y) c := by
  induction text generalizing f x with
  | nil => rfl
  | cons ch rest ih =>
    rw [glyphs]
    split
    · rename_i beyond
      -- Later glyphs stand further to the right, so none of their dots is back inside the frame.
      refine (Frame.plotAll_eq_self (fun p mem inside => ?_) c).symm
      obtain ⟨i, _, dx, dy, _, _, rfl⟩ := mem_textPixels.mp mem
      have within := (Frame.contains_iff.mp inside).2.2.1
      unfold Glyph.advance Glyph.width at within
      dsimp only at within
      omega
    · have alike := f.alike_plotAll (glyphPixels (.ofChar ch) x y) c
      rw [textPixels_cons, Frame.plotAll_append, glyph_eq_plotAll wide tall]
      exact ih (alike.width ▸ wide) (alike.height ▸ tall) _

/-! ### Backdrops -/

/-- The rectangle behind a text, two pixels beyond it on the left, above and below and four on the
right. -/
def IsBehind (text : List Char) (at_ p : Pixel) : Prop :=
  (at_.x - 2 ≤ p.x ∧ p.x < at_.x + 6 * text.length + 4) ∧ at_.y - 2 ≤ p.y ∧ p.y < at_.y + 8

instance (text : List Char) (at_ p : Pixel) : Decidable (IsBehind text at_ p) :=
  inferInstanceAs (Decidable (_ ∧ _))

/-- No dot of a glyph is off the backdrop. -/
theorem isBehind_of_mem_textPixels {text : List Char} {at_ p : Pixel}
    (mem : p ∈ textPixels text at_.x at_.y) : IsBehind text at_ p := by
  obtain ⟨i, ch, dx, dy, at_i, dot, rfl⟩ := mem_textPixels.mp mem
  obtain ⟨bound, _⟩ := List.getElem?_eq_some_iff.mp at_i
  obtain ⟨wide, tall⟩ := lt_of_mem_dots (Glyph.mem_dots.mpr dot)
  unfold Glyph.width at wide
  unfold Glyph.height at tall
  unfold IsBehind Glyph.advance Glyph.width
  dsimp only
  omega

/-- Where the backdrop is held back at an end of the range of pixel coordinates, it is nowhere near the
frame, held back or not. -/
theorem covers_backdrop (wide : f.width.toNat ≤ Screen.greatest)
    (tall : f.height.toNat ≤ Screen.greatest) {text : List Char} (few : text.length ≤ 2 ^ 28)
    {at_ : Pixel} (hx : IsCoordinate at_.x) (hy : IsCoordinate at_.y) :
    Frame.Covers (IsBehind text at_) backdrop f
      (rect f (Screen.saturate (at_.x - labelPadding)) (Screen.saturate (at_.y - labelPadding))
        (textWidth text + 3 * labelPadding) (Glyph.height + 2 * labelPadding) backdrop) := by
  have short : f.height.toNat ≤ 2 ^ 31 := by
    unfold Screen.greatest at tall
    omega
  refine (covers_rect short _ _ _ _ backdrop).congr fun p inside => ?_
  have within := Frame.contains_iff.mp inside
  simp only [InRect, IsBehind, textWidth, Screen.saturate, IsCoordinate] at *
  unfold labelPadding Glyph.height Glyph.advance Glyph.width at *
  unfold Screen.least Screen.greatest at *
  omega

/-- A label in plain words. Its backdrop is laid once over every pixel behind the text that the frame
has. Then the dots of all glyphs are plotted once each, where their column and row put them without any
bound, and none of them off the backdrop. -/
theorem label_eq_lettering (wide : f.width.toNat ≤ Screen.greatest)
    (tall : f.height.toNat ≤ Screen.greatest) (text : List Char) (letters : text ≠ [])
    (few : text.length ≤ 2 ^ 28) (at_ : Pixel) (hx : IsCoordinate at_.x) (hy : IsCoordinate at_.y)
    (c : Rgba) :
    (∃ ground, Frame.Covers (IsBehind text at_) backdrop f ground ∧
      label f text at_ c = ground.plotAll (textPixels text at_.x at_.y) c) ∧
    (textPixels text at_.x at_.y).Nodup ∧
    (∀ p, p ∈ textPixels text at_.x at_.y ↔ ∃ (i : Nat) (ch : Char) (dx dy : Nat),
      text[i]? = some ch ∧ (Glyph.ofChar ch).HasDot dx dy ∧ p = ⟨at_.x + 6 * i + dx, at_.y + dy⟩) ∧
    (∀ p ∈ textPixels text at_.x at_.y, IsBehind text at_ p) ∧
    ∀ x y : Nat, f.Holds x y → (label f text at_ c).pixel? x y =
      if ⟨x, y⟩ ∈ textPixels text at_.x at_.y then (f.pixel? x y).map (c.covering ∘ backdrop.onto)
      else if IsBehind text at_ ⟨x, y⟩ then (f.pixel? x y).map backdrop.onto
      else f.pixel? x y := by
  have ground := covers_backdrop wide tall few hx hy
  have alike := ground.rest.alike
  have drawn := glyphs_eq_plotAll (alike.width ▸ wide) (alike.height ▸ tall) text at_.x at_.y c
  have lettered : label f text at_ c = _ :=
    (if_neg (by rwa [List.isEmpty_iff])).trans drawn
  refine ⟨⟨_, ground, lettered⟩, textPixels_nodup text _ _, fun p => mem_textPixels,
    fun p => isBehind_of_mem_textPixels, fun x y held => ?_⟩
  have translucent : backdrop.isOpaque = false := by decide
  have behind := ground.painted x y held
  rw [translucent, if_neg Bool.false_ne_true] at behind
  rw [lettered, Frame.pixel?_plotAll_of_nodup (textPixels_nodup text _ _) (alike.holds.mpr held)]
  split
  · rename_i dot
    rw [behind (isBehind_of_mem_textPixels dot), Option.map_map]
  · split
    · exact behind ‹_›
    · exact ground.rest.kept x y ‹_› held

/-- A dash that is cut at the upper edge of a frame, and one at the end of the range. -/
theorem label_eq_lettering_dash :
    ∃ f, Frame.new? 3 2 = .ok f ∧
      (label f ['-'] ⟨0, -2⟩ .red).pixel? 0 0 = some .red ∧
      (label f ['-'] ⟨0, -2⟩ .red).pixel? 0 1 = (f.pixel? 0 1).map backdrop.onto ∧
      (label f ['-'] ⟨-2147483648, 0⟩ .red).pixel? 0 1 = f.pixel? 0 1 := by
  obtain ⟨f, new, wide, tall, held⟩ := Frame.exists_whole_new? (by decide : Frame.Allocatable 3 2)
  have above := held 0 (by decide) 0 (by decide)
  have below := held 0 (by decide) 1 (by decide)
  have law := label_eq_lettering (f := f) (by rw [wide]; decide) (by rw [tall]; decide) ['-']
    (by decide) (by decide)
  obtain ⟨_, _, _, _, cut⟩ := law ⟨0, -2⟩ (by decide) (by decide) .red
  obtain ⟨_, _, _, _, far⟩ := law ⟨-2147483648, 0⟩ (by decide) (by decide) .red
  have dot := cut 0 0 above
  have ground := cut 0 1 below
  have apart := far 0 1 below
  rw [if_pos (by decide), Frame.pixel?_eq_some above] at dot
  rw [if_neg (by decide), if_pos (by decide)] at ground
  rw [if_neg (by decide), if_neg (by decide)] at apart
  exact ⟨f, new, dot, ground, apart⟩

end Draw

end PointScope
