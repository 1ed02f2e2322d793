import ModuleBundler.Bundle.SourceMap
import ModuleBundler.Proofs.Text

/-!
# Reading mappings back

The version 3 rules: lines are separated by `;` and segments by `,`; a segment holds one value
(a generated column alone) or four or five (the generated column, then the source index, line
and column, then a name); each value is an offset from the same field of the segment before, and
the generated column starts again from zero on every line. A value is written in base64 digits,
five bits each, low bits first, a digit of 32 or more continuing the value, the lowest bit of
the whole the sign.
-/

namespace ModuleBundler

namespace SourceMap

/-- The value of a base64 digit: `A`–`Z`, `a`–`z`, `0`–`9`, `+`, `/`. -/
def digitValue (c : Char) : Option Nat :=
  if 'A' ≤ c ∧ c ≤ 'Z' then some (c.toNat - 'A'.toNat)
  else if 'a' ≤ c ∧ c ≤ 'z' then some (c.toNat - 'a'.toNat + 26)
  else if '0' ≤ c ∧ c ≤ '9' then some (c.toNat - '0'.toNat + 52)
  else if c = '+' then some 62
  else if c = '/' then some 63
  else none

theorem digitValue_digit : ∀ n < 64, digitValue (digit n) = some n := by decide

/-- The number a value with its sign in the lowest bit stands for. -/
def signed (v : Nat) : Int := if v % 2 = 1 then -((v / 2 : Nat) : Int) else ((v / 2 : Nat) : Int)

/-- Read one digit into a segment's values: the values read, last first, the part of the value
being read, and the weight of its next digit. -/
def readDigit (st : List Int × Nat × Nat) (d : Nat) : List Int × Nat × Nat :=
  if d < 32 then (signed (st.2.1 + d * st.2.2) :: st.1, 0, 1)
  else (st.1, st.2.1 + (d - 32) * st.2.2, st.2.2 * 32)

/-- The values a segment spells; none when a character is no digit or the last value is left
unfinished. -/
def segmentValues (seg : String) : Option (List Int) :=
  (seg.toList.mapM digitValue).bind fun ds =>
    let st := ds.foldl readDigit ([], 0, 1)
    if st.2.1 = 0 ∧ st.2.2 = 1 then some st.1.reverse else none

/-- A decoded segment: its generated column, and the source index, line and column it maps to,
if it maps to any. -/
structure Segment where
  column : Int
  source : Option (Int × Int × Int)
  deriving DecidableEq

/-- Decode a segment's values against the running fields: generated column, source index, line
and column. -/
def decodeSegment (st : Int × Int × Int × Int) (vals : List Int) :
    Option (Segment × (Int × Int × Int × Int)) :=
  match vals with
  | [dc] => some (⟨st.1 + dc, none⟩, (st.1 + dc, st.2))
  | dc :: ds :: dl :: dk :: rest =>
    if rest.length ≤ 1 then
      let st' := (st.1 + dc, st.2.1 + ds, st.2.2.1 + dl, st.2.2.2 + dk)
      some (⟨st'.1, some st'.2⟩, st')
    else none
  | _ => none

/-- Decode the segments of one line in turn. -/
def decodeSegments : Int × Int × Int × Int → List String →
    Option (List Segment × (Int × Int × Int × Int))
  | st, [] => some ([], st)
  | st, seg :: rest => do
    let (s, st') ← decodeSegment st (← segmentValues seg)
    let (more, st'') ← decodeSegments st' rest
    return (s :: more, st'')

/-- Decode one line: its generated columns count from zero, its source fields carry on. -/
def decodeLine (st : Int × Int × Int) (line : String) : Option (List Segment × (Int × Int × Int)) :=
  (decodeSegments (0, st) (if line.isEmpty then [] else Text.splitOnChar line ',')).map
    fun r => (r.1, r.2.2)

/-- Decode lines in turn. -/
def decodeLines : Int × Int × Int → List String → Option (List (List Segment))
  | _, [] => some []
  | st, line :: rest => do
    let (segs, st') ← decodeLine st line
    let more ← decodeLines st' rest
    return segs :: more

/-- The segments of each generated line that a map's mappings encode. -/
def decodeMappings (m : String) : Option (List (List Segment)) :=
  decodeLines (0, 0, 0) (Text.splitOnChar m ';')

end SourceMap

end ModuleBundler
