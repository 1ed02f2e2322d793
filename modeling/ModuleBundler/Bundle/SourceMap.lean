import ModuleBundler.Text.Split
import ModuleBundler.Json.Value

/-!
# Source maps

Version 3 source maps. A module whose transformer gave no map is mapped line for line onto its
own source (`identityMap`); a bundle's map is an indexed map with one section per file-backed
module, each offset by the line the module's code starts at.

Mappings use the base64 variable-length encoding: five bits per digit, low bits first, the sign
in the lowest bit of the first digit, and `0x20` marking that more digits follow.
-/

namespace ModuleBundler

namespace SourceMap

/-- The base64 digit of a value below 64. -/
def digit (n : Nat) : Char :=
  if n < 26 then Char.ofNat (65 + n)
  else if n < 52 then Char.ofNat (71 + n)
  else if n < 62 then Char.ofNat (n - 4)
  else if n = 62 then '+' else '/'

/-- The digits of a value already carrying its sign bit. -/
def vlqDigits (v : Nat) : List Char :=
  go (v + 1) v
where
  go : Nat → Nat → List Char
    | 0, _ => []
    | fuel + 1, v =>
      let low := v % 32
      let rest := v / 32
      if rest > 0 then digit (low + 32) :: go fuel rest else [digit low]

/-- A signed 64-bit value with its sign moved into the lowest bit, as the unsigned word its digits
are cut from: twice the magnitude, plus one when the value is negative. Negation and the shift
wrap as 64-bit two's complement arithmetic does. -/
def signFold (value : Int64) : UInt64 :=
  (if value < 0 then (-value) <<< 1 ||| 1 else value <<< 1).toUInt64

/-- The encoding of a signed 64-bit value. -/
def vlq (value : Int64) : String :=
  String.ofList (vlqDigits (signFold value).toNat)

/-- The number of lines of a text: one more than its line feeds. -/
def lineCount (code : String) : Nat := (Text.splitOnChar code '\n').length

/-- The mappings sending each line of a text of `lines` lines onto itself. -/
def identityMappings (lines : Nat) : String :=
  ";".intercalate ((List.range lines).map fun l =>
    vlq 0 ++ vlq 0 ++ vlq (if l > 0 then 1 else 0) ++ vlq 0)

/-- A map sending each line of `source` onto itself. -/
def identityMap (sourcePath source : String) : Json :=
  .obj [("mappings", .str (identityMappings (lineCount source))), ("names", .arr []),
    ("sources", .arr [.str sourcePath]), ("sourcesContent", .arr [.str source]),
    ("version", Json.nat 3)]

/-- One section of an indexed map: the line it starts at and its map. -/
structure Section where
  line : Nat
  map : Json

/-- An indexed map over sections. -/
def indexedMap (file : String) (sections : List Section) : Json :=
  .obj [("file", .str file),
    ("sections", .arr (sections.map fun s =>
      .obj [("map", s.map), ("offset", .obj [("column", Json.nat 0), ("line", Json.nat s.line)])])),
    ("version", Json.nat 3)]

end SourceMap

end ModuleBundler
