import ModuleBundler.Image.Bytes

/-!
# GIF dimensions

The dimensions of a GIF file are those of its logical screen. A decoder reports them once the
header is over: the signature `GIF87a` or `GIF89a`, the seven bytes of the screen descriptor,
the global colour table when the descriptor announces one, and any extension blocks before the
first block of another kind. The decoder steps byte by byte and looks at one byte past each
step, so the header ends only where the file goes on.
-/

namespace ModuleBundler

namespace Image

/-- Where a GIF decoder stands while it reads the blocks after the colour table. -/
inductive GifPlace where
  /-- A block of the given type starts; its type byte has been read. -/
  | block (kind : Nat)
  /-- The next byte is the size of a data sub-block, or the zero that ends them. -/
  | subBlocks
  /-- The sub-blocks are over; the next byte is the type of the next block. -/
  | blockEnd

/-- Whether the header ends, reading from position `i` in the place `at_`. -/
def gifHeaderEnds (bs : Array UInt8) : Nat → GifPlace → Nat → Bool
  | 0, _, _ => false
  | fuel + 1, at_, i =>
    match byteAt? bs i with
    | none => false
    | some b =>
      match at_ with
      | .block kind =>
        if kind != 0x21 then true
        else
          match byteAt? bs (i + 1) with
          | none => false
          | some size =>
            if b = 0xF9 then size = 4 && gifHeaderEnds bs fuel .subBlocks (i + 6)
            else gifHeaderEnds bs fuel .subBlocks (i + 2 + size)
      | .subBlocks =>
        if b = 0 then gifHeaderEnds bs fuel .blockEnd (i + 1)
        else gifHeaderEnds bs fuel .subBlocks (i + 1 + b)
      | .blockEnd =>
        if b = 0x3B then gifHeaderEnds bs fuel (.block b) i
        else gifHeaderEnds bs fuel (.block b) (i + 1)

/-- The dimensions of a GIF file. -/
def gif? (bs : Array UInt8) : Option (Nat × Nat) := do
  if !tagAt bs 0 (ascii "GIF87a") && !tagAt bs 0 (ascii "GIF89a") then none
  let width ← leAt? bs 6 2
  let height ← leAt? bs 8 2
  let flags ← byteAt? bs 10
  let table := if flags &&& 0x80 = 0 then 0 else 3 * Nat.pow 2 (flags % 8 + 1)
  let kind ← byteAt? bs (13 + table)
  if gifHeaderEnds bs (2 * bs.size + 2) (.block kind) (14 + table) then some (width, height)
  else none

end Image

end ModuleBundler
