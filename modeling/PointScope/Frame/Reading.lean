import PointScope.Frame.Basic

/-!
Frames as other programs take them: rows without padding, the number of pixels of a color, and the
range of brightness.
-/

namespace PointScope.Frame

def positions (f : Frame) : List (Nat × Nat) :=
  (List.range f.height.toNat).flatMap fun y => (List.range f.width.toNat).map fun x => (x, y)

/-- The bytes of all pixels without padding. Rows that have none are taken from the buffer at once, and
their length is computed in words. -/
def compactBytes (f : Frame) : ByteArray :=
  if f.stride = f.rowBytes then
    let size := 4 * f.width.toUInt64 * f.height.toUInt64
    f.bytes.extract 0 size.toNat
  else
    (List.range f.height.toNat).foldl
      (fun out y => out ++ f.bytes.extract (y * f.stride) (y * f.stride + f.rowBytes))
      ByteArray.empty

def colors (f : Frame) : List Rgba :=
  f.positions.map fun (x, y) => f.colorAt (f.offset x y)

def countColor (f : Frame) (c : Rgba) : Nat := f.colors.count c

/-- The brightness of a color, from 0 to 255. -/
def luminance (c : Rgba) : Float32 :=
  0.2126 * c.r.toFloat32 + 0.7152 * c.g.toFloat32 + 0.0722 * c.b.toFloat32

/-- The least, the greatest and the mean brightness of a frame. -/
structure Brightness where
  least : Float32
  greatest : Float32
  mean : Float

def brightness (f : Frame) : Brightness :=
  match f.colors.map luminance with
  | [] => ⟨0.0, 255.0, 127.5⟩
  | first :: rest =>
    let least := rest.foldl (fun m v => if v < m then v else m) first
    let greatest := rest.foldl (fun m v => if m < v then v else m) first
    let sum := rest.foldl (fun s v => s + v.toFloat) first.toFloat
    ⟨least, greatest, sum / f.pixelCount.toFloat⟩

end PointScope.Frame
