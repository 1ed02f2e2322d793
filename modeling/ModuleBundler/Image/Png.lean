import ModuleBundler.Image.Bytes

/-!
# PNG dimensions

A PNG file has dimensions when a decoder gets as far as its first image data chunk: the
signature, a well-formed `IHDR` chunk first, intact critical chunks up to the first `IDAT`, and
no `IEND` before it. An ancillary chunk whose checksum is wrong is passed over. The decoder
also sets aside one decoded row before reading pixels, with low bit depths widened to eight
bits and palettes to colour, and refuses a row above 512 MiB.
-/

namespace ModuleBundler

namespace Image

/-- The fields of a PNG header chunk that the reading of dimensions depends on. -/
structure PngHeader where
  /-- Pixels per row. -/
  width : Nat
  /-- Rows. -/
  height : Nat
  /-- Bits per sample. -/
  depth : Nat
  /-- The colour type: 0 grey, 2 colour, 3 palette, 4 grey with alpha, 6 colour with alpha. -/
  color : Nat

namespace PngHeader

/-- Whether a colour type allows a bit depth. -/
def allows (color depth : Nat) : Bool :=
  match color with
  | 0 => [1, 2, 4, 8, 16].contains depth
  | 3 => [1, 2, 4, 8].contains depth
  | 2 | 4 | 6 => [8, 16].contains depth
  | _ => false

/-- The header in the thirteen bytes of an `IHDR` chunk, when every field is valid: nonzero
sizes, a known colour type with a depth it allows, compression and filter method 0, and
interlace method 0 or 1. -/
def read? (data : List UInt8) : Option PngHeader :=
  let field := fun i => (data.getD i 0).toNat
  let width := beNat (data.take 4)
  let height := beNat ((data.drop 4).take 4)
  if data.length = 13 && width != 0 && height != 0 && allows (field 9) (field 8) &&
      field 10 = 0 && field 11 = 0 && field 12 ≤ 1 then
    some ⟨width, height, field 8, field 9⟩
  else none

/-- The bytes of one decoded row: depths below eight widened to eight, a palette expanded to
colour, and an alpha channel added when a transparency chunk is present. -/
def rowBytes (h : PngHeader) (transparent : Bool) : Nat :=
  let samples := match h.color with
    | 0 => if transparent then 2 else 1
    | 2 | 3 => if transparent then 4 else 3
    | 4 => 2
    | _ => 4
  (h.width * samples * max h.depth 8 + 7) / 8

end PngHeader

/-- The most bytes the decoder sets aside for a row. -/
def pngRowLimit : Nat := 512 * 1024 * 1024

/-- Whether a chunk type is critical: the first letter is upper case. -/
def isCritical (kind : List UInt8) : Bool := (kind.headD 0) &&& 0x20 == 0

/-- The dimensions, reading the chunks from `i` on up to the first `IDAT`. -/
def pngChunks (bs : Array UInt8) (h : PngHeader) : Nat → Bool → Nat → Option (Nat × Nat)
  | 0, _, _ => none
  | fuel + 1, transparent, i => do
    let len ← beAt? bs i 4
    let kind ← bytesAt? bs (i + 4) 4
    if kind = ascii "IDAT" then
      if h.rowBytes transparent ≤ pngRowLimit then some (h.width, h.height) else none
    else
      let data ← bytesAt? bs (i + 8) len
      let crc ← beAt? bs (i + 8 + len) 4
      let intact := (crc32 (kind ++ data)).toNat == crc
      if kind = ascii "IHDR" || kind = ascii "IEND" || (isCritical kind && !intact) then none
      else
        let marks := kind = ascii "tRNS" && intact && [0, 2, 3].contains h.color
        pngChunks bs h fuel (transparent || marks) (i + 12 + len)

/-- The signature every PNG file starts with. -/
def pngSignature : List UInt8 := [0x89, 0x50, 0x4E, 0x47, 0x0D, 0x0A, 0x1A, 0x0A]

/-- The dimensions of a PNG file. -/
def png? (bs : Array UInt8) : Option (Nat × Nat) := do
  if !tagAt bs 0 pngSignature then none
  let len ← beAt? bs 8 4
  if !tagAt bs 12 (ascii "IHDR") then none
  let data ← bytesAt? bs 16 len
  let crc ← beAt? bs (16 + len) 4
  if (crc32 (ascii "IHDR" ++ data)).toNat != crc then none
  let h ← PngHeader.read? data
  pngChunks bs h bs.size false (20 + len)

end Image

end ModuleBundler
