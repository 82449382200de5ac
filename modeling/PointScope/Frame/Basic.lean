import PointScope.Color.Blend
import PointScope.Screen.Basic

/-!
Frames: rectangles of pixels, four bytes each, in rows from the top. A row is padded to a multiple
of 64 bytes, and the padding stays zero. `pixel?` is the view of a frame that everything else is
described by: what a drawing does is what it does to the pixels.

Sizes are words of 32 bits. The length of a buffer is computed in words of 64 bits, and every operation
on the way is checked: a program does not go on from a size whose buffer it cannot have.
-/

namespace PointScope

/-- Why there is no frame of a size: one side is zero. -/
structure EmptySize where
  width : UInt32
  height : UInt32
deriving DecidableEq, Repr

def EmptySize.message (e : EmptySize) : String := s!"Invalid dimensions: {e.width}x{e.height}"

/-- What comes of asking for a frame that there is not. -/
inductive FrameFault where
  /-- A side is zero, and that is the answer. -/
  | empty (size : EmptySize)
  /-- No buffer is as long as all rows. There is no answer: the program stops. -/
  | stopped
deriving DecidableEq, Repr

def rowAlignment : UInt64 := 64

def rowStride (width : UInt32) : UInt64 :=
  (4 * width.toUInt64 + (rowAlignment - 1)) / rowAlignment * rowAlignment

structure Frame where
  width : UInt32
  height : UInt32
  bytes : ByteArray

namespace Frame

/-- The bytes of the longest buffer that can be asked for, which is the greatest signed word of 64 bits. -/
def greatestCapacity : Nat := 9223372036854775807

/-- The bytes of all rows. A buffer with room for one more unit of alignment is asked for, and there is none
if the length or the room overflows or the room is more than a buffer can have. -/
def bufferLength? (width height : UInt32) : Option Nat :=
  let length := (rowStride width).toNat * height.toNat
  let room := length + rowAlignment.toNat
  if UInt64.size ≤ length ∨ UInt64.size ≤ room ∨ greatestCapacity < room then none
  else some length

/-- A frame of transparent black. -/
def new? (width height : UInt32) : Except FrameFault Frame :=
  if width = 0 ∨ height = 0 then .error (.empty ⟨width, height⟩)
  else
    match bufferLength? width height with
    | none => .error .stopped
    | some length => .ok { width, height, bytes := ⟨Array.replicate length 0⟩ }

def size (f : Frame) : Viewport := ⟨f.width, f.height⟩

/-- The bytes of a row with its padding. -/
def stride (f : Frame) : Nat := (rowStride f.width).toNat

/-- The bytes of a row without its padding. -/
def rowBytes (f : Frame) : Nat := 4 * f.width.toNat

def pixelCount (f : Frame) : Nat := f.width.toNat * f.height.toNat

def contains (f : Frame) (p : Pixel) : Bool := f.size.contains p

def offset (f : Frame) (x y : Nat) : Nat := y * f.stride + 4 * x

def byte (f : Frame) (i : Nat) : UInt8 := if h : i < f.bytes.size then f.bytes[i] else 0

def colorAt (f : Frame) (i : Nat) : Rgba :=
  ⟨f.byte i, f.byte (i + 1), f.byte (i + 2), f.byte (i + 3)⟩

def pixel? (f : Frame) (x y : Nat) : Option Rgba :=
  if x < f.width.toNat ∧ y < f.height.toNat then some (f.colorAt (f.offset x y)) else none

def putByte (bytes : ByteArray) (i : Nat) (v : UInt8) : ByteArray :=
  if h : i < bytes.size then bytes.set i v h else bytes

def putColor (bytes : ByteArray) (i : Nat) (c : Rgba) : ByteArray :=
  putByte (putByte (putByte (putByte bytes i c.r) (i + 1) c.g) (i + 2) c.b) (i + 3) c.a

/-- Replaces the color of a pixel; outside the frame nothing happens. -/
def set (f : Frame) (x y : Nat) (c : Rgba) : Frame :=
  if x < f.width.toNat ∧ y < f.height.toNat then
    let i := f.offset x y
    { f with bytes := putColor f.bytes i c }
  else f

/-- Lays a color over a pixel; outside the frame nothing happens. -/
def blend (f : Frame) (x y : Nat) (c : Rgba) : Frame :=
  if x < f.width.toNat ∧ y < f.height.toNat then
    let i := f.offset x y
    let mixed := c.onto (f.colorAt i)
    { f with bytes := putColor f.bytes i mixed }
  else f

/-- Replaces the color of a pixel by one that covers it and lays any other color over it. -/
def paint (f : Frame) (x y : Nat) (c : Rgba) : Frame :=
  if c.isOpaque then f.set x y c else f.blend x y c

/-- Paints a pixel at a signed position; outside the frame nothing happens. -/
def plot (f : Frame) (p : Pixel) (c : Rgba) : Frame :=
  if f.contains p then f.paint p.x.toNat p.y.toNat c else f

def plotAll (f : Frame) (ps : List Pixel) (c : Rgba) : Frame := ps.foldl (fun f p => f.plot p c) f

/-- Replaces the color of the pixels of a rectangle, cut to the frame. -/
def fillRect (f : Frame) (x y w h : Nat) (c : Rgba) : Frame :=
  let columns := List.range' x (min (x + w) f.width.toNat - x)
  (List.range' y (min (y + h) f.height.toNat - y)).foldl
    (fun f row => columns.foldl (fun f column => f.set column row c) f) f

/-! ### Clearing -/

/-- The pixels that are copied at once when a row is cleared; they are a whole unit of alignment. -/
def blockPixels : Nat := 16

def blockBytes : Nat := 4 * blockPixels

/-- Writes a color to pixels that follow one another in a buffer. -/
def putRun (bytes : ByteArray) (i pixels : Nat) (c : Rgba) : ByteArray :=
  (List.range pixels).foldl (fun bytes k => putColor bytes (i + 4 * k) c) bytes

/-- The bytes of a block of pixels of one color. -/
def block (c : Rgba) : ByteArray := putRun ⟨Array.replicate blockBytes 0⟩ 0 blockPixels c

/-- Replaces the bytes from `i` on by those of a part, if the buffer has all of them. -/
def putPart (bytes : ByteArray) (i : Nat) (part : ByteArray) : ByteArray :=
  if i + part.size ≤ bytes.size then part.copySlice 0 bytes i part.size else bytes

/-- Replaces the color of the pixels of a row, block by block and then pixel by pixel. -/
def clearRow (bytes : ByteArray) (start rowBytes : Nat) (pattern : ByteArray) (c : Rgba) :
    ByteArray :=
  let blocks := rowBytes / blockBytes
  let copied := (List.range blocks).foldl
    (fun bytes k => putPart bytes (start + blockBytes * k) pattern) bytes
  putRun copied (start + blockBytes * blocks) (rowBytes % blockBytes / 4) c

/-- Replaces the color of all pixels. -/
def clear (f : Frame) (c : Rgba) : Frame :=
  let pattern := block c
  let bytes := (List.range f.height.toNat).foldl
    (fun bytes y => clearRow bytes (y * f.stride) f.rowBytes pattern c) f.bytes
  { f with bytes }

end Frame

end PointScope
