import PointScope.Draw.Area
import PointScope.Draw.Glyph

/-!
Labels: a line of glyphs on a translucent backdrop. The backdrop reaches two pixels beyond the
text on the left, above and below, and four on the right.
-/

namespace PointScope.Draw

def backdrop : Rgba := ⟨240, 240, 240, 220⟩

def labelPadding : Nat := 2

/-- The width of a text in pixels, at most the greatest pixel coordinate. -/
def textWidth (text : List Char) : Nat :=
  min (text.length * Glyph.advance) Screen.greatest.toNat

/-- Plots the dots of a glyph with its upper left corner at a position. -/
def glyph (f : Frame) (g : Glyph) (x y : Int) (c : Rgba) : Frame :=
  g.dots.foldl
    (fun f (dx, dy) =>
      let p : Pixel := ⟨x + dx, y + dy⟩
      if p.x ≤ Screen.greatest ∧ p.y ≤ Screen.greatest then f.plot p c else f) f

/-- Plots glyphs from left to right, up to the right edge of the frame. -/
def glyphs (f : Frame) (text : List Char) (x y : Int) (c : Rgba) : Frame :=
  match text with
  | [] => f
  | ch :: rest =>
    if (f.width.toNat : Int) ≤ x then f
    else glyphs (glyph f (.ofChar ch) x y c) rest (x + Glyph.advance) y c

/-- Draws a text with the upper left corner of its first glyph at a position. An empty text draws
nothing, not even a backdrop. -/
def label (f : Frame) (text : List Char) (at_ : Pixel) (c : Rgba) : Frame :=
  if text.isEmpty then f
  else
    let ground := rect f
      (Screen.saturate (at_.x - labelPadding)) (Screen.saturate (at_.y - labelPadding))
      (textWidth text + 3 * labelPadding) (Glyph.height + 2 * labelPadding) backdrop
    glyphs ground text at_.x at_.y c

end PointScope.Draw
