import PointScope.Frame.Reading

/-!
A frame as terminal text. The frame is divided into cells; each cell has the mean color of its
pixels and becomes a character of a ramp from dark to light, or half a block character in color.
-/

namespace PointScope.Terminal

inductive Mode where
  /-- Characters of a ramp, no escape sequences. -/
  | ascii
  /-- Upper half blocks with colors for both halves. -/
  | halfBlock
deriving DecidableEq, Repr

/-- The rows of cells on a line of text. -/
def Mode.rowsPerLine : Mode → Nat
  | ascii => 1
  | halfBlock => 2

def defaultColumns : Nat := 80

structure Settings where
  mode : Mode := .halfBlock
  /-- The width in characters; a preview is never wider than the frame. -/
  columns : Nat := defaultColumns
  /-- Exchanges light and dark. -/
  invert : Bool := false
  /-- Spreads the ramp over the brightness that the frame has. -/
  stretch : Bool := false
deriving Repr

/-- A terminal character is about this many times as high as it is wide. -/
def cellAspect : Float := 2.0

/-- The characters of the ramp, from dark to light. -/
def ramp : Array Char := #[' ', '.', ':', '-', '=', '+', '*', '#', '%', '@']

/-- A number that is not negative, rounded to the nearest natural; halves go up. -/
def roundNat (v : Float) : Nat :=
  let whole := v.toUInt64
  if 0.5 ≤ v - whole.toFloat then whole.toNat + 1 else whole.toNat

structure GridSize where
  columns : Nat
  lines : Nat
deriving DecidableEq, Repr

/-- The size of the preview of a frame. The lines follow from the shape of a character, and there
are at least one and at most as many as the rows of pixels can fill. -/
def gridSize (s : Settings) (f : Frame) : GridSize :=
  let columns := min (max s.columns 1) f.width.toNat
  let cellWidth := f.width.toFloat / columns.toFloat
  let lines := roundNat (f.height.toFloat / (cellWidth * cellAspect))
  let perLine := s.mode.rowsPerLine
  let most := max ((f.height.toNat + perLine - 1) / perLine) 1
  { columns, lines := min (max lines 1) most }

/-- The pixels of cell `i` when `length` pixels are divided into `n` cells, from the first to the
one behind the last. A cell has at least one pixel. -/
def cellSpan (i n length : Nat) : Nat × Nat :=
  let first := i * length / n
  let beyond := (i + 1) * length / n
  (first, min (max beyond (first + 1)) length)

structure Sums where
  r : Nat := 0
  g : Nat := 0
  b : Nat := 0
  count : Nat := 0

def Sums.add (s : Sums) (c : Rgba) : Sums :=
  { r := s.r + c.r.toNat, g := s.g + c.g.toNat, b := s.b + c.b.toNat, count := s.count + 1 }

/-- The mean of each channel, rounded to the nearest with halves up, if there is a pixel. -/
def Sums.mean? (s : Sums) : Option Rgba :=
  let channel := fun sum => ((sum + s.count / 2) / s.count).toUInt8
  if s.count = 0 then none else some (.rgb (channel s.r) (channel s.g) (channel s.b))

/-- The color with light and dark exchanged. -/
def inverted (c : Rgba) : Rgba := .rgb (255 - c.r) (255 - c.g) (255 - c.b)

def block (xs ys : Nat × Nat) : List (Nat × Nat) :=
  (List.range' ys.1 (ys.2 - ys.1)).flatMap fun y =>
    (List.range' xs.1 (xs.2 - xs.1)).map fun x => (x, y)

/-- The mean color of a cell of a frame divided into `columns` by `rows` cells. -/
def cellMean? (f : Frame) (column columns row rows : Nat) : Option Rgba :=
  let positions := block (cellSpan column columns f.width.toNat) (cellSpan row rows f.height.toNat)
  (positions.foldl (fun s (x, y) => ((f.pixel? x y).map s.add).getD s) ({} : Sums)).mean?

/-- The color a cell is shown in; a cell without pixels would be black. -/
def cellColor (s : Settings) (f : Frame) (column columns row rows : Nat) : Rgba :=
  match cellMean? f column columns row rows with
  | none => .black
  | some mean => if s.invert then inverted mean else mean

def luma (c : Rgba) : Float :=
  (0.2126 * c.r.toFloat + 0.7152 * c.g.toFloat + 0.0722 * c.b.toFloat) / 255.0

/-- The brightness that the two ends of the ramp stand for. A frame of nearly one brightness is
not stretched. -/
def lumaRange (s : Settings) (f : Frame) : Float × Float :=
  if !s.stretch then (0.0, 1.0)
  else
    let b := f.brightness
    if b.greatest - b.least < 1.0 then (0.0, 1.0)
    else
      let lo := b.least.toFloat / 255.0
      let hi := b.greatest.toFloat / 255.0
      if s.invert then (1.0 - hi, 1.0 - lo) else (lo, hi)

def clampUnit (v : Float) : Float := if v < 0.0 then 0.0 else if 1.0 < v then 1.0 else v

def rampChar (level : Float) : Char :=
  ramp.getD (min (roundNat (level * (ramp.size - 1).toFloat)) (ramp.size - 1)) '@'

def asciiCell (s : Settings) (f : Frame) (range : Float × Float) (g : GridSize) (row column : Nat) :
    Char :=
  let c := cellColor s f column g.columns row g.lines
  rampChar (clampUnit ((luma c - range.1) / (range.2 - range.1)))

/-- The escape sequences of a block whose halves have two colors. -/
def blockText (top bottom : Rgba) : String :=
  s!"\x1b[38;2;{top.r};{top.g};{top.b}m\x1b[48;2;{bottom.r};{bottom.g};{bottom.b}m▀"

/-- The text of a pair of cells, one above the other. -/
def halfBlockCell (s : Settings) (f : Frame) (g : GridSize) (row column : Nat) : String :=
  blockText (cellColor s f column g.columns (row * 2) (g.lines * 2))
    (cellColor s f column g.columns (row * 2 + 1) (g.lines * 2))

/-- The preview of a frame, one line of text per row. -/
def render (s : Settings) (f : Frame) : String :=
  let g := gridSize s f
  let range := lumaRange s f
  let line := fun row =>
    match s.mode with
    | .ascii => String.ofList ((List.range g.columns).map (asciiCell s f range g row)) ++ "\n"
    | .halfBlock =>
      String.join ((List.range g.columns).map (halfBlockCell s f g row)) ++ "\x1b[0m\n"
  String.join ((List.range g.lines).map line)

end PointScope.Terminal
