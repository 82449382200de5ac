import PointScope.Png.Image

/-!
Images as text for web pages: the file in base 64 behind the announcement of its type.
-/

namespace PointScope.Png

def base64Digits : Array Char :=
  "ABCDEFGHIJKLMNOPQRSTUVWXYZabcdefghijklmnopqrstuvwxyz0123456789+/".toList.toArray

def base64Digit (n : Nat) : Char := base64Digits.getD (n % 64) '='

/-- Three bytes, or the one or two that are left, as four characters. -/
def base64Group (bytes : ByteArray) (i : Nat) : List Char :=
  let n := ((byteAt bytes i).toNat * 256 + (byteAt bytes (i + 1)).toNat) * 256 +
    (byteAt bytes (i + 2)).toNat
  let left := bytes.size - i
  [base64Digit (n / 262144), base64Digit (n / 4096),
    if 1 < left then base64Digit (n / 64) else '=', if 2 < left then base64Digit n else '=']

def base64 (bytes : ByteArray) : String :=
  (List.range ((bytes.size + 2) / 3)).foldl
    (fun text k => (base64Group bytes (3 * k)).foldl String.push text) ""

def dataUriStart : String := "data:image/png;base64,"

def dataUri (i : Image) : String := dataUriStart ++ base64 (encode i)

end PointScope.Png
