import PointScope.Frame.Reading
import PointScope.Png.Checksum

/-!
Images in the PNG format: eight bits each of red, green, blue and alpha, not interlaced. The data
is stored without compression, which every reader accepts. `decode?` reads what `encode` writes.
-/

namespace PointScope.Png

/-- An image: its size and its pixels row by row, four bytes each. -/
structure Image where
  width : UInt32
  height : UInt32
  pixels : ByteArray

def Image.ofFrame (f : Frame) : Image := ⟨f.width, f.height, f.compactBytes⟩

def signature : ByteArray := ⟨#[137, 80, 78, 71, 13, 10, 26, 10]⟩

def bitDepth : UInt8 := 8

def colorType : UInt8 := 6

/-! ### Writing -/

/-- A word in four bytes, the most significant one first. -/
def wordBytes (w : UInt32) : ByteArray :=
  ⟨#[(w >>> 24).toUInt8, (w >>> 16).toUInt8, (w >>> 8).toUInt8, w.toUInt8]⟩

/-- A short word in two bytes, the least significant one first. -/
def shortBytes (n : Nat) : ByteArray := ⟨#[n.toUInt8, (n / 256).toUInt8]⟩

/-- A chunk: the length of its data, its name, the data and the checksum of name and data. -/
def chunk (name : String) (data : ByteArray) : ByteArray :=
  let body := name.toUTF8 ++ data
  wordBytes data.size.toUInt32 ++ body ++ wordBytes (crc32 body)

def headerData (i : Image) : ByteArray :=
  wordBytes i.width ++ wordBytes i.height ++ ⟨#[bitDepth, colorType, 0, 0, 0]⟩

/-- The rows of an image, each behind the number of its filter, which is none. -/
def scanlines (i : Image) : ByteArray :=
  let row := 4 * i.width.toNat
  (List.range i.height.toNat).foldl
    (fun out y => out.push 0 ++ i.pixels.extract (y * row) ((y + 1) * row)) ByteArray.empty

def blockSize : Nat := 65535

def storedBlock (last : Bool) (data : ByteArray) : ByteArray :=
  ByteArray.mk #[if last then 1 else 0] ++ shortBytes data.size ++
    shortBytes (65535 - data.size) ++ data

/-- The compressed form of some bytes, as stored blocks between a header and a checksum. -/
def deflate (data : ByteArray) : ByteArray :=
  let blocks := max ((data.size + blockSize - 1) / blockSize) 1
  let stored := (List.range blocks).foldl
    (fun out k => out ++
      storedBlock (k + 1 == blocks) (data.extract (k * blockSize) ((k + 1) * blockSize)))
    ⟨#[0x78, 0x01]⟩
  stored ++ wordBytes (adler32 data)

def encode (i : Image) : ByteArray :=
  signature ++ chunk "IHDR" (headerData i) ++ chunk "IDAT" (deflate (scanlines i)) ++
    chunk "IEND" ByteArray.empty

/-! ### Reading -/

/-- A byte, or zero behind the end. -/
def byteAt (bytes : ByteArray) (i : Nat) : UInt8 := if h : i < bytes.size then bytes[i] else 0

def wordAt (bytes : ByteArray) (i : Nat) : UInt32 :=
  ((byteAt bytes i).toUInt32 <<< 24) ||| ((byteAt bytes (i + 1)).toUInt32 <<< 16) |||
    ((byteAt bytes (i + 2)).toUInt32 <<< 8) ||| (byteAt bytes (i + 3)).toUInt32

/-- The bytes of stored blocks from a position on, with room for `fuel` blocks. -/
def inflateFrom (bytes : ByteArray) (at_ : Nat) (out : ByteArray) : (fuel : Nat) → Option ByteArray
  | 0 => none
  | fuel + 1 =>
    let size := (byteAt bytes (at_ + 1)).toNat + 256 * (byteAt bytes (at_ + 2)).toNat
    let out := out ++ bytes.extract (at_ + 5) (at_ + 5 + size)
    match byteAt bytes at_ with
    | 1 => some out
    | 0 => inflateFrom bytes (at_ + 5 + size) out fuel
    | _ => none

def inflate? (bytes : ByteArray) : Option ByteArray :=
  if byteAt bytes 0 = 0x78 then inflateFrom bytes 2 ByteArray.empty (bytes.size + 1) else none

structure Header where
  width : UInt32
  height : UInt32
  bitDepth : UInt8
  colorType : UInt8
  interlaced : Bool
deriving DecidableEq, Repr

def header? (bytes : ByteArray) : Option Header :=
  if bytes.extract 0 8 == signature && bytes.extract 12 16 == "IHDR".toUTF8 then
    some
      { width := wordAt bytes 16, height := wordAt bytes 20, bitDepth := byteAt bytes 24
        colorType := byteAt bytes 25, interlaced := byteAt bytes 28 != 0 }
  else none

/-- The image of a file with one data chunk of stored blocks behind its header. -/
def decode? (bytes : ByteArray) : Option Image := do
  let h ← header? bytes
  let size := (wordAt bytes 33).toNat
  let lines ← inflate? (bytes.extract 41 (41 + size))
  let row := 4 * h.width.toNat
  let pixels := (List.range h.height.toNat).foldl
    (fun out y => out ++ lines.extract (y * (row + 1) + 1) ((y + 1) * (row + 1))) ByteArray.empty
  return ⟨h.width, h.height, pixels⟩

end PointScope.Png
