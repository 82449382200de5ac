/-!
Glyphs: bitmaps of five columns and six rows for the characters of labels.
-/

namespace PointScope.Draw

/-- A bitmap of six rows from the top. A row has five bits, of which the highest is the leftmost
column. -/
structure Glyph where
  rows : List Nat
deriving DecidableEq, Repr

namespace Glyph

def width : Nat := 5

def height : Nat := 6

def advance : Nat := width + 1

/-- The outline of a box, for characters that have no glyph of their own. -/
def box : Glyph := ⟨[0b11111, 0b10001, 0b10001, 0b10001, 0b10001, 0b11111]⟩

def ofChar : Char → Glyph
  | '0' => ⟨[0b01110, 0b10001, 0b10001, 0b10001, 0b10001, 0b01110]⟩
  | '1' => ⟨[0b00100, 0b01100, 0b00100, 0b00100, 0b00100, 0b01110]⟩
  | '2' => ⟨[0b01110, 0b10001, 0b00010, 0b00100, 0b01000, 0b11111]⟩
  | '3' => ⟨[0b01110, 0b10001, 0b00110, 0b00001, 0b10001, 0b01110]⟩
  | '4' => ⟨[0b00010, 0b00110, 0b01010, 0b10010, 0b11111, 0b00010]⟩
  | '5' => ⟨[0b11111, 0b10000, 0b11110, 0b00001, 0b10001, 0b01110]⟩
  | '6' => ⟨[0b01110, 0b10000, 0b11110, 0b10001, 0b10001, 0b01110]⟩
  | '7' => ⟨[0b11111, 0b00001, 0b00010, 0b00100, 0b01000, 0b10000]⟩
  | '8' => ⟨[0b01110, 0b10001, 0b01110, 0b10001, 0b10001, 0b01110]⟩
  | '9' => ⟨[0b01110, 0b10001, 0b10001, 0b01111, 0b00001, 0b01110]⟩
  | '.' => ⟨[0, 0, 0, 0, 0, 0b00100]⟩
  | '-' => ⟨[0, 0, 0b11111, 0, 0, 0]⟩
  | ',' => ⟨[0, 0, 0, 0, 0b00100, 0b01000]⟩
  | '(' => ⟨[0b00100, 0b01000, 0b10000, 0b10000, 0b01000, 0b00100]⟩
  | ')' => ⟨[0b00100, 0b00010, 0b00001, 0b00001, 0b00010, 0b00100]⟩
  | ' ' => ⟨[0, 0, 0, 0, 0, 0]⟩
  | 'X' => ⟨[0b10001, 0b01010, 0b00100, 0b01010, 0b10001, 0]⟩
  | 'Y' => ⟨[0b10001, 0b01010, 0b00100, 0b00100, 0b00100, 0]⟩
  | 'Z' => ⟨[0b11111, 0b00010, 0b00100, 0b01000, 0b11111, 0]⟩
  | _ => box

def columnsOf (row : Nat) : List Nat :=
  (List.range width).filter fun column => row.testBit (width - 1 - column)

/-- The dots of a glyph as columns and rows, row by row. -/
def dots (g : Glyph) : List (Nat × Nat) :=
  g.rows.zipIdx.flatMap fun (row, dy) => (columnsOf row).map fun dx => (dx, dy)

end Glyph

end PointScope.Draw
