/-!
The two checksums of the PNG format: CRC-32 over chunks and Adler-32 over the uncompressed data.
-/

namespace PointScope.Png

def crcBit (c : UInt32) : UInt32 :=
  if c &&& 1 == 1 then (0xEDB88320 : UInt32) ^^^ (c >>> 1) else c >>> 1

def crcTable : Array UInt32 :=
  (Array.range 256).map fun n => (List.range 8).foldl (fun c _ => crcBit c) n.toUInt32

def crcByte (table : Array UInt32) (c : UInt32) (b : UInt8) : UInt32 :=
  table.getD (c ^^^ b.toUInt32).toUInt8.toNat 0 ^^^ (c >>> 8)

def crc32 (bytes : ByteArray) : UInt32 :=
  ~~~ bytes.foldl (crcByte crcTable) 0xFFFFFFFF

def adler32 (bytes : ByteArray) : UInt32 :=
  let (a, b) := bytes.foldl
    (fun ((a, b) : UInt32 × UInt32) x =>
      let a := (a + x.toUInt32) % 65521
      (a, (b + a) % 65521)) ((1, 0) : UInt32 × UInt32)
  (b <<< 16) ||| a

end PointScope.Png
