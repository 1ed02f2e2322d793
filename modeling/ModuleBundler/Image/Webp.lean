import ModuleBundler.Image.Bytes

/-!
# WebP dimensions

A WebP file is a `RIFF` container of type `WEBP` whose first chunk says how the image is
stored:

* `VP8 ` (lossy): a key frame with its start code and nonzero 14-bit sizes;
* `VP8L` (lossless): signature `0x2F`, version 0, and 14-bit sizes stored less one, so that
  the size is the stored field plus one, kept to 14 bits;
* `VP8X` (extended): the canvas size, valid when the chunks after it hold what its flags
  promise. Those chunks are scanned up to the end the container gives or the end of the file;
  an animation needs `ANIM` (exactly six bytes) and `ANMF`, an Exif or XMP flag its chunk, and
  a still image exactly one of `VP8 ` and `VP8L`.
-/

namespace ModuleBundler

namespace Image

/-- The chunk types a WebP reader records. -/
def webpChunkKinds : List String :=
  ["RIFF", "WEBP", "VP8 ", "VP8L", "VP8X", "ANIM", "ANMF", "ALPH", "ICCP", "EXIF", "XMP "]

/-- A chunk of an extended WebP file: its type and where its body starts and ends. -/
structure WebpChunk where
  /-- The four-letter type. -/
  kind : List UInt8
  /-- The first byte of the body. -/
  start : Nat
  /-- The byte after the body. -/
  stop : Nat

/-- A chunk size rounded up to an even number, as chunks are padded. -/
def paddedSize (size : Nat) : Nat := if size = Nat.pow 2 32 - 1 then size else size + size % 2

/-- What the scan of an extended file's chunks finds. -/
structure WebpScan where
  /-- The first chunk of each recorded type, in the order found. -/
  chunks : List WebpChunk := []
  /-- Whether lossy image data has been seen inside an animation frame. -/
  lossy : Bool := false

namespace WebpScan

/-- The first chunk of a type. -/
def find? (s : WebpScan) (kind : String) : Option WebpChunk :=
  s.chunks.find? fun c => c.kind = ascii kind

/-- Whether a chunk of a type was found. -/
def has (s : WebpScan) (kind : String) : Bool := (s.find? kind).isSome

/-- The scan with a chunk recorded, unless its type is unknown or already recorded. -/
def record (s : WebpScan) (c : WebpChunk) : WebpScan :=
  if (webpChunkKinds.map ascii).contains c.kind && !s.chunks.any (·.kind = c.kind) then
    { s with chunks := s.chunks ++ [c] }
  else s

end WebpScan

/-- The chunks from `pos` on, before `limit`; `none` when an animation frame does not read. -/
def webpChunks (bs : Array UInt8) (limit : Nat) : Nat → WebpScan → Nat → Option WebpScan
  | 0, s, _ => some s
  | fuel + 1, s, pos =>
    if pos ≥ limit then some s
    else
      match bytesAt? bs pos 4, leAt? bs (pos + 4) 4 with
      | some kind, some size =>
        let s := s.record ⟨kind, pos + 8, pos + 8 + size⟩
        let next := pos + 8 + paddedSize size
        if kind = ascii "ANMF" then do
          if size < 24 then none
          let _ ← bytesAt? bs (pos + 20) 4
          let s ← if s.lossy then some s else do
            let inner ← bytesAt? bs (pos + 24) 4
            let _ ← bytesAt? bs (pos + 28) 4
            some { s with lossy := inner = ascii "VP8 " || inner = ascii "ALPH" }
          webpChunks bs limit fuel s next
        else webpChunks bs limit fuel s next
      | _, _ => some s

/-- Whether the first animation frame's leading chunk headers read. -/
def webpFrameReads (bs : Array UInt8) (frame : WebpChunk) : Bool :=
  match bytesAt? bs (frame.start + 16) 8 with
  | none => false
  | some head =>
    let next := frame.start + 24 + paddedSize (leNat (head.drop 4))
    next + 8 > frame.stop || (bytesAt? bs next 8).isSome

/-- The canvas of an extended file whose `VP8X` chunk, `size` bytes long, starts at 12. -/
def webpExtended? (bs : Array UInt8) (riffSize size : Nat) : Option (Nat × Nat) := do
  let flags ← byteAt? bs 20
  let _ ← bytesAt? bs 21 3
  let width := (← leAt? bs 24 3) + 1
  let height := (← leAt? bs 27 3) + 1
  if width * height ≥ Nat.pow 2 32 then none
  let pos := 20 + paddedSize size
  let s ← webpChunks bs (pos + (riffSize - 12)) (bs.size + 1) {} pos
  let animated := flags &&& 2 != 0
  if animated && (!s.has "ANIM" || !s.has "ANMF") || flags &&& 8 != 0 && !s.has "EXIF" ||
      flags &&& 4 != 0 && !s.has "XMP " || !animated && s.has "VP8 " == s.has "VP8L" then none
  if animated then
    let anim ← s.find? "ANIM"
    if anim.stop - anim.start != 6 || anim.stop > bs.size then none
  match s.find? "ANMF" with
  | some frame => if webpFrameReads bs frame then some (width, height) else none
  | none => some (width, height)

/-- The dimensions of a WebP file. -/
def webp? (bs : Array UInt8) : Option (Nat × Nat) := do
  if !tagAt bs 0 (ascii "RIFF") then none
  let riffSize ← leAt? bs 4 4
  if !tagAt bs 8 (ascii "WEBP") then none
  let kind ← bytesAt? bs 12 4
  let size ← leAt? bs 16 4
  if kind = ascii "VP8 " then
    let tag ← leAt? bs 20 3
    if tag % 2 != 0 || !tagAt bs 23 [0x9D, 0x01, 0x2A] then none
    let width := (← leAt? bs 26 2) % 16384
    let height := (← leAt? bs 28 2) % 16384
    if width = 0 || height = 0 then none
    some (width, height)
  else if kind = ascii "VP8L" then
    let signature ← byteAt? bs 20
    let header ← leAt? bs 21 4
    if signature != 0x2F || header / Nat.pow 2 29 != 0 then none
    some ((header + 1) % 16384, (header / 16384 + 1) % 16384)
  else if kind = ascii "VP8X" then webpExtended? bs riffSize size
  else none

end Image

end ModuleBundler
