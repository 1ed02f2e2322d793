import ModuleBundler.Image.Bytes

/-!
# JPEG dimensions

A JPEG file has dimensions when its headers decode: the start-of-image marker, then marker
segments up to the start of scan. Between segments any bytes are passed over until a `0xFF`
and a marker byte; runs of `0xFF` and zero bytes after a `0xFF` are fill. Only baseline,
extended and progressive Huffman frames decode, with eight-bit samples, nonzero sizes and at
most four components; quantisation and Huffman tables must fit their segments; and the scan
header must name components of the frame.
-/

namespace ModuleBundler

namespace Image

/-- The frame header of a JPEG file. -/
structure JpegFrame where
  /-- Pixels per line. -/
  width : Nat
  /-- Lines. -/
  height : Nat
  /-- The identifier of each component. -/
  components : List Nat

/-- What one marker segment leads to. -/
inductive JpegStep where
  /-- The start of scan: the headers are over and the frame has these dimensions. -/
  | scan (width height : Nat)
  /-- The walk goes on from a position, with the frame read so far. -/
  | next (pos : Nat) (frame : Option JpegFrame)

/-- Whether a sampling factor is a power of two. -/
def isSampling (v : Nat) : Bool := [1, 2, 4, 8].contains v

/-- The identifier of a component in the three bytes that describe it, when its sampling
factors are powers of two and its quantisation table is one of four. -/
def jpegComponent? : List UInt8 → Option Nat
  | [id, sampling, table] =>
    if isSampling (sampling.toNat / 16) && isSampling (sampling.toNat % 16) && table.toNat < 4 then
      some id.toNat
    else none
  | _ => none

/-- The frame header of the segment at `j`, with the position after it. -/
def jpegFrame? (bs : Array UInt8) (j : Nat) : Option (JpegFrame × Nat) := do
  let len ← beAt? bs j 2
  let precision ← byteAt? bs (j + 2)
  if precision != 8 then none
  let height ← beAt? bs (j + 3) 2
  let width ← beAt? bs (j + 5) 2
  if width = 0 || height = 0 then none
  let n ← byteAt? bs (j + 7)
  if n = 0 || len != 8 + 3 * n then none
  let ids ← (List.range n).mapM fun k =>
    if k ≥ 4 then none else bytesAt? bs (j + 8 + 3 * k) 3 >>= jpegComponent?
  some (⟨width, height, ids⟩, j + 8 + 3 * n)

/-- The position after the quantisation tables from `p` on, `left` bytes of them. -/
def jpegQuantTables (bs : Array UInt8) : Nat → Nat → Nat → Option Nat
  | 0, _, _ => none
  | fuel + 1, left, p =>
    if left = 0 then some p
    else do
      let info ← byteAt? bs p
      let size := 64 * (info / 16 + 1)
      if size + 1 > left || info / 16 > 1 || info % 16 ≥ 4 then none
      let _ ← bytesAt? bs (p + 1) size
      jpegQuantTables bs fuel (left - size - 1) (p + 1 + size)

/-- Whether the counts of Huffman codes of each length from 1 to 16 make a prefix code in
which no code is all ones. -/
def huffmanCodesFit (counts : List UInt8) : Bool :=
  ((counts.zip (List.range 16)).foldl
    (fun (acc : Bool × Nat) (c, l) =>
      let code := acc.2 + c.toNat
      (acc.1 && code < Nat.pow 2 (l + 1), 2 * code))
    (true, 0)).1

/-- The position after the Huffman tables from `p` on, `left` bytes of them. -/
def jpegHuffmanTables (bs : Array UInt8) : Nat → Nat → Nat → Option Nat
  | 0, _, _ => none
  | fuel + 1, left, p =>
    if left ≤ 16 then (if left = 0 then some p else none)
    else do
      let info ← byteAt? bs p
      if info % 16 ≥ 4 || info / 16 > 1 then none
      let counts ← bytesAt? bs (p + 1) 16
      let total := (counts.map UInt8.toNat).sum
      if total > 256 || total > left - 17 then none
      let _ ← bytesAt? bs (p + 17) total
      if !huffmanCodesFit counts then none
      jpegHuffmanTables bs fuel (left - 17 - total) (p + 17 + total)

/-- The length field of the segment at `j`, when it counts at least itself. -/
def segmentLength? (bs : Array UInt8) (j : Nat) : Option Nat := do
  let len ← beAt? bs j 2
  if len < 2 then none
  some len

/-- Whether the scan header at `j` reads for the frame `f`: one to four components, each a
component of the frame and none twice, and spectral and approximation fields in range. -/
def jpegScanReads (bs : Array UInt8) (j : Nat) (f : JpegFrame) : Bool :=
  (do
    let len ← beAt? bs j 2
    let n ← byteAt? bs (j + 2)
    if len != 6 + 2 * n || n < 1 || n > 4 then none
    let specs ← bytesAt? bs (j + 3) (2 * n)
    let ids := (List.range n).map fun k => (specs.getD (2 * k) 0).toNat
    if ids.eraseDups.length != n || !ids.all f.components.contains then none
    let first ← byteAt? bs (j + 3 + 2 * n)
    let last ← byteAt? bs (j + 4 + 2 * n)
    let approx ← byteAt? bs (j + 5 + 2 * n)
    if first > 63 || last > 63 || approx / 16 > 13 || approx % 16 > 13 then none
    some ()).isSome

/-- Whether a marker starts a frame of a kind that does not decode. -/
def isOtherFrame (m : Nat) : Bool :=
  0xC3 ≤ m && m ≤ 0xCF && m != 0xC4 && m != 0xC8 && m != 0xCC

/-- The segment of marker `m`, its body at `j`. -/
def jpegSegment (bs : Array UInt8) (m j : Nat) (frame : Option JpegFrame) : Option JpegStep :=
  if m = 0xC0 || m = 0xC1 || m = 0xC2 then
    if frame.isSome then none else (jpegFrame? bs j).map fun (f, k) => .next k (some f)
  else if isOtherFrame m || m = 0xCC || m = 0xDC || m = 0xD9 then none
  else if m = 0xC4 then do
    let len ← segmentLength? bs j
    let k ← jpegHuffmanTables bs (len + 1) (len - 2) (j + 2)
    some (.next k frame)
  else if m = 0xDB then do
    let len ← segmentLength? bs j
    let k ← jpegQuantTables bs (len + 1) (len - 2) (j + 2)
    some (.next k frame)
  else if m = 0xDD then do
    let len ← beAt? bs j 2
    let _ ← beAt? bs (j + 2) 2
    if len != 4 then none
    some (.next (j + 4) frame)
  else if m = 0xDA then do
    let f ← frame
    if jpegScanReads bs j f then some (.scan f.width f.height) else none
  else if m = 0xE0 then do
    let len ← segmentLength? bs j
    if len > 5 && j + 7 ≤ bs.size then some (.next (j + 7 + (len - 7)) frame)
    else some (.next (j + len) frame)
  else if m = 0xEE then do
    let len ← segmentLength? bs j
    if j + len > bs.size || len < 14 then none
    if tagAt bs (j + 2) (ascii "Adobe") then
      let transform ← byteAt? bs (j + 13)
      if transform > 2 then none
    some (.next (j + len) frame)
  else do
    let len ← segmentLength? bs j
    some (.next (j + len) frame)

/-- Past fill bytes: the first byte from `i` on that is neither `0xFF` nor zero, with the byte
before it and its position. -/
def jpegPastFill (bs : Array UInt8) : Nat → Nat → Nat → Option (Nat × Nat × Nat)
  | 0, _, _ => none
  | fuel + 1, i, last => do
    let m ← byteAt? bs i
    if m = 0xFF || m = 0 then jpegPastFill bs fuel (i + 1) m else some (m, last, i)

/-- The dimensions, walking the file from `i` on, `last` the byte before. -/
def jpegMarkers (bs : Array UInt8) : Nat → Nat → Nat → Option JpegFrame → Option (Nat × Nat)
  | 0, _, _, _ => none
  | fuel + 1, i, last, frame => do
    let m ← byteAt? bs i
    let (m, last, i) ←
      if (m = 0xFF || m = 0) && last = 0xFF then jpegPastFill bs bs.size (i + 1) m
      else some (m, last, i)
    if last != 0xFF then jpegMarkers bs fuel (i + 1) m frame
    else
      match ← jpegSegment bs m (i + 1) frame with
      | .scan width height => some (width, height)
      | .next k frame => jpegMarkers bs fuel k m frame

/-- The dimensions of a JPEG file. -/
def jpeg? (bs : Array UInt8) : Option (Nat × Nat) :=
  if tagAt bs 0 [0xFF, 0xD8] then jpegMarkers bs (bs.size + 1) 2 0 none else none

end Image

end ModuleBundler
