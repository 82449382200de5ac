import PointScope.Frame.Basic

/-!
Straight lines. A line has one pixel for each step along its longer axis; the other coordinate is
that of the ideal line, rounded, with halves away from the start. Both ends belong to it. A line
beyond one edge of the frame is not walked at all, and of any other line only the steps that land
inside the frame along the longer axis are taken, so a line may begin and end anywhere at no cost.
-/

namespace PointScope.Draw

/-- How far a line has moved along its shorter axis after `i` steps along its longer one. -/
def minorOffset (i minor major : Nat) : Nat :=
  if major = 0 then 0 else (2 * i * minor + major) / (2 * major)

def heading (start stop : Int) : Int := if stop < start then -1 else 1

/-- The steps along an axis from `0` to `length` that land inside `[0, limit)`. -/
def visibleSteps (start direction : Int) (length limit : Nat) : List Nat :=
  let first := if 0 < direction then -start else start - (limit - 1)
  let last := if 0 < direction then limit - 1 - start else start
  let lo := (max first 0).toNat
  let hi := min last length
  List.range' lo (hi + 1 - lo).toNat

structure Line where
  start : Pixel
  stop : Pixel
deriving DecidableEq, Repr

namespace Line

def dx (l : Line) : Nat := (l.stop.x - l.start.x).natAbs

def dy (l : Line) : Nat := (l.stop.y - l.start.y).natAbs

/-- Whether the first axis is the longer one. -/
def isFlat (l : Line) : Bool := decide (l.dy ≤ l.dx)

def length (l : Line) : Nat := max l.dx l.dy

def pixel (l : Line) (i : Nat) : Pixel :=
  let sx := heading l.start.x l.stop.x
  let sy := heading l.start.y l.stop.y
  if l.isFlat then ⟨l.start.x + sx * i, l.start.y + sy * minorOffset i l.dy l.dx⟩
  else ⟨l.start.x + sx * minorOffset i l.dx l.dy, l.start.y + sy * i⟩

/-- All pixels of the line, from its start to its end. -/
def pixels (l : Line) : List Pixel := (List.range (l.length + 1)).map l.pixel

/-- The steps of the line that may land inside a frame. -/
def steps (l : Line) (f : Frame) : List Nat :=
  if l.isFlat then visibleSteps l.start.x (heading l.start.x l.stop.x) l.dx f.width.toNat
  else visibleSteps l.start.y (heading l.start.y l.stop.y) l.dy f.height.toNat

/-- Whether both ends lie beyond the same edge of a frame. -/
def isBeside (l : Line) (f : Frame) : Bool :=
  decide (l.start.x < 0 ∧ l.stop.x < 0) || decide (l.start.y < 0 ∧ l.stop.y < 0) ||
    decide ((f.width.toNat : Int) ≤ l.start.x ∧ (f.width.toNat : Int) ≤ l.stop.x) ||
    decide ((f.height.toNat : Int) ≤ l.start.y ∧ (f.height.toNat : Int) ≤ l.stop.y)

/-- Whether a pixel of the line is inside a frame along the shorter axis. -/
def lands (l : Line) (f : Frame) (p : Pixel) : Bool :=
  if l.isFlat then decide (0 ≤ p.y ∧ p.y < f.height.toNat)
  else decide (0 ≤ p.x ∧ p.x < f.width.toNat)

/-- The pixels that drawing the line visits, in order. -/
def visited (l : Line) (f : Frame) : List Pixel :=
  if l.isBeside f then [] else ((l.steps f).map l.pixel).filter (l.lands f)

def draw (l : Line) (f : Frame) (c : Rgba) : Frame := f.plotAll (l.visited f) c

/-- The line moved, with each coordinate kept inside the range of pixel coordinates. -/
def shift (l : Line) (dx dy : Int) : Line :=
  { start := ⟨Screen.saturate (l.start.x + dx), Screen.saturate (l.start.y + dy)⟩
    stop := ⟨Screen.saturate (l.stop.x + dx), Screen.saturate (l.stop.y + dy)⟩ }

def around (n : Nat) : List Int := (List.range (2 * n + 1)).map fun (i : Nat) => (i : Int) - n

def discOffsets (radius : Nat) : List (Int × Int) :=
  (around radius).flatMap fun dy =>
    ((around radius).map fun dx => (dx, dy)).filter fun (dx, dy) =>
      decide (dx * dx + dy * dy ≤ (radius * radius : Nat))

/-- Draws the line with a thickness: the line itself, and then a copy of it for every other
offset of the disc whose radius is half the thickness. -/
def drawThick (l : Line) (f : Frame) (thickness : Nat) (c : Rgba) : Frame :=
  ((discOffsets (thickness / 2)).filter (· != (0, 0))).foldl
    (fun f (dx, dy) => (l.shift dx dy).draw f c) (l.draw f c)

end Line

end PointScope.Draw
