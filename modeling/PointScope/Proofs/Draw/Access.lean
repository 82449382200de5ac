import PointScope.Proofs.Draw.Label
import PointScope.Proofs.Draw.Line
import PointScope.Proofs.Frame.Access

/-! Accesses of lines, areas and labels. Each has a checked form that is made of checked pixels and
rectangles; on a whole frame it is the drawing itself, however far its ends, its center or its
corner are from the frame. -/
namespace PointScope

namespace Draw

open PointScope.Frame

variable {f : Frame}

/-! ### Areas -/

def span? (f : Frame) (row : Nat) (first last : Int) (c : Rgba) : Option Frame :=
  let lo := (max first 0).toNat
  let hi := min last ((f.width.toNat : Int) - 1)
  let length := (hi + 1 - lo).toNat
  if c.isOpaque then f.fillRect? lo row length 1 c
  else (List.range' lo length).foldlM (fun f column => f.blend? column row c) f

def rect? (f : Frame) (x y : Int) (w h : Nat) (c : Rgba) : Option Frame :=
  (rowsOf f y (y + h)).foldlM (fun f row => span? f row x (x + w - 1) c) f

def disc? (f : Frame) (center : Pixel) (radius : Int) (c : Rgba) : Option Frame :=
  if radius < 0 then some f
  else
    (rowsOf f (center.y - radius) (center.y + radius + 1)).foldlM
      (fun f (row : Nat) =>
        let dy := (row : Int) - center.y
        let half := root (radius * radius - dy * dy).toNat
        span? f row (center.x - half) (center.x + half) c) f

theorem span?_eq_some (whole : f.Whole) (row : Nat) (first last : Int) (c : Rgba) :
    span? f row first last c = some (span f row first last c) := by
  simp only [span?, span]
  split
  · exact fillRect?_eq_some whole _ row _ 1 c
  · apply Whole.foldlM
    · intro f column
      exact f.alike_blend column row c
    · intro f whole column
      exact blend?_eq_some whole column row c
    · exact whole

theorem rect?_eq_some (whole : f.Whole) (x y : Int) (w h : Nat) (c : Rgba) :
    rect? f x y w h c = some (rect f x y w h c) :=
  whole.foldlM (fun f row => alike_span f row x (x + w - 1) c)
    (fun _ whole row => span?_eq_some whole row x (x + w - 1) c) _

theorem disc?_eq_some (whole : f.Whole) (center : Pixel) (radius : Int) (c : Rgba) :
    disc? f center radius c = some (disc f center radius c) := by
  simp only [disc?, disc]
  split
  · rfl
  · apply Whole.foldlM
    · intro f row
      exact alike_span f row _ _ c
    · intro f whole row
      exact span?_eq_some whole row _ _ c
    · exact whole

/-! ### Lines -/

namespace Line

def draw? (l : Line) (f : Frame) (c : Rgba) : Option Frame :=
  (l.visited f).foldlM (fun f p => f.plot? p c) f

def drawThick? (l : Line) (f : Frame) (thickness : Nat) (c : Rgba) : Option Frame := do
  let thin ← l.draw? f c
  ((discOffsets (thickness / 2)).filter (· != (0, 0))).foldlM
    (fun f (dx, dy) => (l.shift dx dy).draw? f c) thin

theorem draw?_eq_some (whole : f.Whole) (l : Line) (c : Rgba) :
    l.draw? f c = some (l.draw f c) :=
  whole.foldlM (fun f p => f.alike_plot p c) (fun _ whole p => plot?_eq_some whole p c) _

theorem drawThick?_eq_some (whole : f.Whole) (l : Line) (thickness : Nat) (c : Rgba) :
    l.drawThick? f thickness c = some (l.drawThick f thickness c) := by
  simp only [drawThick?, drawThick, draw?_eq_some whole l c]
  apply Whole.foldlM
  · rintro f ⟨dx, dy⟩
    exact (l.shift dx dy).alike_draw f c
  · rintro f whole ⟨dx, dy⟩
    exact draw?_eq_some whole (l.shift dx dy) c
  · exact (l.alike_draw f c).whole whole

end Line

/-! ### Labels -/

def glyph? (f : Frame) (g : Glyph) (x y : Int) (c : Rgba) : Option Frame :=
  g.dots.foldlM
    (fun f (dx, dy) =>
      let p : Pixel := ⟨x + dx, y + dy⟩
      if p.x ≤ Screen.greatest ∧ p.y ≤ Screen.greatest then f.plot? p c else some f) f

def glyphs? (f : Frame) (text : List Char) (x y : Int) (c : Rgba) : Option Frame :=
  match text with
  | [] => some f
  | ch :: rest =>
    if (f.width.toNat : Int) ≤ x then some f
    else do
      let drawn ← glyph? f (.ofChar ch) x y c
      glyphs? drawn rest (x + Glyph.advance) y c

def label? (f : Frame) (text : List Char) (at_ : Pixel) (c : Rgba) : Option Frame :=
  if text.isEmpty then some f
  else do
    let ground ← rect? f
      (Screen.saturate (at_.x - labelPadding)) (Screen.saturate (at_.y - labelPadding))
      (textWidth text + 3 * labelPadding) (Glyph.height + 2 * labelPadding) backdrop
    glyphs? ground text at_.x at_.y c

theorem glyph?_eq_some (whole : f.Whole) (g : Glyph) (x y : Int) (c : Rgba) :
    glyph? f g x y c = some (glyph f g x y c) := by
  apply Whole.foldlM
  · rintro f ⟨dx, dy⟩
    dsimp only
    split
    · exact f.alike_plot _ c
    · exact .refl f
  · rintro f whole ⟨dx, dy⟩
    dsimp only
    split
    · exact plot?_eq_some whole _ c
    · rfl
  · exact whole

theorem glyphs?_eq_some (whole : f.Whole) (text : List Char) (x y : Int) (c : Rgba) :
    glyphs? f text x y c = some (glyphs f text x y c) := by
  induction text generalizing f x with
  | nil => rfl
  | cons ch rest ih =>
    simp only [glyphs?, glyphs]
    split
    · rfl
    · rw [glyph?_eq_some whole]
      exact ih ((alike_glyph f (.ofChar ch) x y c).whole whole) (x + Glyph.advance)

theorem label?_eq_some (whole : f.Whole) (text : List Char) (at_ : Pixel) (c : Rgba) :
    label? f text at_ c = some (label f text at_ c) := by
  simp only [label?, label]
  split
  · rfl
  · rw [rect?_eq_some whole]
    exact glyphs?_eq_some ((alike_rect f _ _ _ _ _).whole whole) text at_.x at_.y c

end Draw

end PointScope
