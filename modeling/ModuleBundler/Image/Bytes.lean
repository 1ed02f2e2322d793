/-!
# Reading image files byte by byte

Every image reader walks an array of bytes by position. A read past the end of the file is a
failure, so each accessor answers `none` there, and a reader written in `Option` stops at the
first byte that is missing. The chunk checksums of PNG files are the CRC-32 of the reflected
polynomial `0xEDB88320`.
-/

namespace ModuleBundler

namespace Image

/-- A big-endian number from bytes. -/
def beNat (bs : List UInt8) : Nat := bs.foldl (fun n b => 256 * n + b.toNat) 0

/-- A little-endian number from bytes. -/
def leNat (bs : List UInt8) : Nat := bs.foldr (fun b n => 256 * n + b.toNat) 0

/-- The bytes of an ASCII text. -/
def ascii (s : String) : List UInt8 := s.toList.map fun c => c.toNat.toUInt8

/-- The byte at `i` as a number, when the file reaches that far. -/
def byteAt? (bs : Array UInt8) (i : Nat) : Option Nat := bs[i]?.map UInt8.toNat

/-- The `n` bytes from `i` on, when they are all there. -/
def bytesAt? (bs : Array UInt8) (i n : Nat) : Option (List UInt8) :=
  if i + n ≤ bs.size then some (bs.extract i (i + n)).toList else none

/-- The big-endian number in the `n` bytes from `i` on. -/
def beAt? (bs : Array UInt8) (i n : Nat) : Option Nat := (bytesAt? bs i n).map beNat

/-- The little-endian number in the `n` bytes from `i` on. -/
def leAt? (bs : Array UInt8) (i n : Nat) : Option Nat := (bytesAt? bs i n).map leNat

/-- Whether the bytes from `i` on spell out `tag`. -/
def tagAt (bs : Array UInt8) (i : Nat) (tag : List UInt8) : Bool :=
  bytesAt? bs i tag.length == some tag

/-- One byte folded into a CRC-32 remainder, a bit at a time. -/
def crcByte (c : UInt32) (b : UInt8) : UInt32 :=
  (List.range 8).foldl (fun c _ => if c &&& 1 = 1 then (c >>> 1) ^^^ 0xEDB88320 else c >>> 1)
    (c ^^^ b.toUInt32)

/-- The CRC-32 of a list of bytes. -/
def crc32 (bs : List UInt8) : UInt32 := bs.foldl crcByte 0xFFFFFFFF ^^^ 0xFFFFFFFF

end Image

end ModuleBundler
