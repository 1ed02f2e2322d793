import ModuleBundler.Json.Print
import ModuleBundler.Error

/-!
# Reading typed values out of JSON

Decoders from a JSON value to a typed value, failing with the message a strict typed reader
gives: `invalid type: <what was found>, expected <what was wanted>`, or `invalid value: ...`
for a number of the right type but out of range. What was found is written `null`,
``boolean `b` ``, ``integer `n` ``, ``floating point `x` `` (written as JSON writes it),
`string "s"`, `sequence` or `map`.

Records are read field by field: a missing field takes its default, a present one must have the
right type, and unknown fields are ignored.
-/

namespace ModuleBundler

namespace Json

/-- How a decoding failure names the value it found. -/
def unexpected : Json → String
  | .null => "null"
  | .bool b => "boolean `" ++ toString b ++ "`"
  | .num (.nat n) => "integer `" ++ toString n ++ "`"
  | .num (.negative n) => "integer `" ++ toString n ++ "`"
  | .num (.double x) => "floating point `" ++ (Double.toText? x).getD "NaN" ++ "`"
  | .str s => "string " ++ debugQuote s
  | .arr _ => "sequence"
  | .obj _ => "map"

/-- The failure of reading `j` as what `expected` names. -/
def invalidType (j : Json) (expected : String) : String :=
  "invalid type: " ++ unexpected j ++ ", expected " ++ expected

/-- An unsigned 64-bit integer. -/
def toU64 (j : Json) : Except String Nat :=
  match j with
  | .num (.nat n) => if n < Nat.pow 2 64 then .ok n else .error (invalidType j "u64")
  | .num (.negative n) => .error ("invalid value: integer `" ++ toString n ++ "`, expected u64")
  | _ => .error (invalidType j "u64")

/-- A boolean. -/
def toBool (j : Json) : Except String Bool :=
  match j with
  | .bool b => .ok b
  | _ => .error (invalidType j "a boolean")

/-- A string. -/
def toStr (j : Json) : Except String String :=
  match j with
  | .str s => .ok s
  | _ => .error (invalidType j "a string")

/-- A list of values each read by `f`. -/
def toList {α : Type} (f : Json → Except String α) (j : Json) : Except String (List α) :=
  match j with
  | .arr xs => xs.mapM f
  | _ => .error (invalidType j "a sequence")

/-- A list of strings. -/
def toStrings (j : Json) : Except String (List String) := toList toStr j

/-- A value or nothing: null and absence both read as nothing. -/
def toOption {α : Type} (f : Json → Except String α) (j : Json) : Except String (Option α) :=
  match j with
  | .null => .ok none
  | _ => (f j).map some

/-- A field read by `f`, or `default` when the field is absent. -/
def fieldOr {α : Type} (j : Json) (key : String) (f : Json → Except String α) (default : α) :
    Except String α :=
  match j.field? key with
  | some v => f v
  | none => .ok default

/-- A field that may be null or absent. -/
def optField {α : Type} (j : Json) (key : String) (f : Json → Except String α) :
    Except String (Option α) :=
  match j.field? key with
  | some v => toOption f v
  | none => .ok none

/-- A field that must be present. -/
def reqField {α : Type} (j : Json) (key : String) (f : Json → Except String α) : Except String α :=
  match j.field? key with
  | some v => f v
  | none => .error ("missing field `" ++ key ++ "`")

/-- The fields of an object. -/
def toFields (j : Json) : Except String (List (String × Json)) :=
  match j with
  | .obj fs => .ok fs
  | _ => .error (invalidType j "a map")

end Json

end ModuleBundler
